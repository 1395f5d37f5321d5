import Mathlib.Data.List.Chain
import Mathlib.Data.List.Forall2
import Turnstile.Gateway.Metrics
import Turnstile.Text.Split
/-!
# Paths in labels

Labels are meant to hold no identifiers. Segment by segment, a label is the path with its UUIDs replaced, wherever
they stand, and then its numbers (`segments_uncut`). A number is a whole segment, and its match takes in the slashes
on both sides; of two numbers in a row the second has no slash left to match, and it stays, as does one at the very
front (`collapsed`). Nothing else stays: a label holds a number just if the path has one that is overlooked so.
-/

namespace Turnstile.Gateway

open Text

/-! ### Replacing matches -/

/-- From the front, every match has been replaced that does not overlap an earlier one. A match is what stands at the
front of a text: it comes with what replaces it and with the rest of the text. -/
inductive Replaced (match? : List Char → Option (List Char × List Char)) :
    List Char → List Char → Prop where
  | nil : Replaced match? [] []
  | kept {c : Char} {s out : List Char} (h : match? (c :: s) = none) (hrest : Replaced match? s out) :
      Replaced match? (c :: s) (c :: out)
  | replaced {c : Char} {s text rest out : List Char} (h : match? (c :: s) = some (text, rest))
      (hrest : Replaced match? rest out) : Replaced match? (c :: s) (text ++ out)

theorem Replaced.unique {match? : List Char → Option (List Char × List Char)} {s out out' : List Char}
    (h : Replaced match? s out) (h' : Replaced match? s out') : out = out' := by
  induction h generalizing out' with
  | nil =>
    cases h'
    rfl
  | kept hnone _ ih =>
    cases h' with
    | kept _ hrest => rw [ih hrest]
    | replaced hsome _ => cases hnone.symm.trans hsome
  | replaced hsome _ ih =>
    cases h' with
    | kept hnone _ => cases hnone.symm.trans hsome
    | replaced hsome' hrest =>
      cases hsome.symm.trans hsome'
      rw [ih hrest]

/-- Replacing from the front, step by step; every match is consumed. -/
structure Replaces (match? : List Char → Option (List Char × List Char)) (replace : Nat → List Char → List Char) :
    Prop where
  nil (fuel : Nat) : replace fuel [] = []
  kept {c : Char} {s : List Char} (fuel : Nat) (h : match? (c :: s) = none) :
    replace (fuel + 1) (c :: s) = c :: replace fuel s
  replaced {c : Char} {s text rest : List Char} (fuel : Nat) (h : match? (c :: s) = some (text, rest)) :
    replace (fuel + 1) (c :: s) = text ++ replace fuel rest
  shorter {c : Char} {s text rest : List Char} (h : match? (c :: s) = some (text, rest)) : rest.length ≤ s.length

/-- No fuel is missing where there is as much as the text is long. -/
theorem Replaces.replaced_of_length_le {match? : List Char → Option (List Char × List Char)}
    {replace : Nat → List Char → List Char} (h : Replaces match? replace) {s : List Char} {fuel : Nat}
    (hfuel : s.length ≤ fuel) : Replaced match? s (replace fuel s) := by
  induction fuel generalizing s with
  | zero =>
    cases s with
    | nil =>
      rw [h.nil]
      exact .nil
    | cons c s => simp at hfuel
  | succ fuel ih =>
    cases s with
    | nil =>
      rw [h.nil]
      exact .nil
    | cons c s =>
      rw [List.length_cons, Nat.add_le_add_iff_right] at hfuel
      cases hmatch : match? (c :: s) with
      | none =>
        rw [h.kept fuel hmatch]
        exact .kept hmatch (ih hfuel)
      | some found =>
        obtain ⟨text, rest⟩ := found
        rw [h.replaced fuel hmatch]
        exact .replaced hmatch (ih (Nat.le_trans (h.shorter hmatch) hfuel))

/-! ### UUIDs -/

/-- Hexadecimal digits in groups of 8, 4, 4, 4 and 12, with a hyphen between two groups. -/
def IsUuid (s : List Char) : Prop :=
  ∃ groups : List (List Char), groups.map List.length = [8, 4, 4, 4, 12] ∧
    (∀ group ∈ groups, ∀ c ∈ group, (hexDigit? c).isSome = true) ∧ s = ['-'].intercalate groups

variable {s rest out u : List Char}

/-- A group at the front, and what is asked of the rest. -/
theorem go_cons_eq_some_iff {n : Nat} {lengths : List Nat} :
    afterUuid?.go (n :: lengths) s = some rest ↔ ∃ group tail : List Char, group.length = n ∧
      (∀ c ∈ group, (hexDigit? c).isSome = true) ∧ s = group ++ tail ∧
      (lengths = [] ∧ tail = rest ∨
        lengths ≠ [] ∧ ∃ after, tail = '-' :: after ∧ afterUuid?.go lengths after = some rest) := by
  rw [afterUuid?.go.eq_def]
  dsimp only
  constructor
  · intro h
    split at h
    · next hgroup =>
      rw [Bool.and_eq_true, decide_eq_true_eq, List.all_eq_true] at hgroup
      refine ⟨s.take n, s.drop n, hgroup.1, hgroup.2, (List.take_append_drop n s).symm, ?_⟩
      split at h
      · next => exact Or.inl ⟨rfl, Option.some.inj h⟩
      · next after hne hdrop => exact Or.inr ⟨hne, after, hdrop, h⟩
      · cases h
    · cases h
  · rintro ⟨group, tail, rfl, hhex, rfl, htail⟩
    have hgroup : (decide (group.length = group.length) &&
        group.all fun c => (hexDigit? c).isSome) = true := by simpa using hhex
    rw [List.take_left, List.drop_left, if_pos hgroup]
    rcases htail with ⟨rfl, rfl⟩ | ⟨hne, after, rfl, hgo⟩
    · rfl
    · cases lengths with
      | nil => exact absurd rfl hne
      | cons m lengths => exact hgo

theorem go_eq_some_iff (lengths : List Nat) (s rest : List Char) :
    afterUuid?.go lengths s = some rest ↔ ∃ groups : List (List Char), groups.map List.length = lengths ∧
      (∀ group ∈ groups, ∀ c ∈ group, (hexDigit? c).isSome = true) ∧ s = ['-'].intercalate groups ++ rest := by
  induction lengths generalizing s with
  | nil => simp [afterUuid?.go]
  | cons n lengths ih =>
    rw [go_cons_eq_some_iff]
    constructor
    · rintro ⟨group, tail, hlength, hhex, rfl, ⟨rfl, rfl⟩ | ⟨hne, after, rfl, hgo⟩⟩
      · exact ⟨[group], by simp [hlength], by simpa using hhex, by simp⟩
      · obtain ⟨groups, hlengths, hothers, rfl⟩ := (ih after).1 hgo
        refine ⟨group :: groups, by simp [hlength, hlengths], ?_, ?_⟩
        · intro g hg
          rcases List.mem_cons.1 hg with rfl | hg
          · exact hhex
          · exact hothers g hg
        · cases groups with
          | nil => exact absurd hlengths.symm hne
          | cons g groups => simp [List.intercalate_cons_cons]
    · rintro ⟨groups, hlengths, hhex, rfl⟩
      cases groups with
      | nil => simp at hlengths
      | cons group groups =>
        rw [List.map_cons, List.cons.injEq] at hlengths
        obtain ⟨hlength, rfl⟩ := hlengths
        cases groups with
        | nil =>
          exact ⟨group, rest, hlength, hhex group (by simp), by simp, Or.inl ⟨rfl, rfl⟩⟩
        | cons g groups =>
          refine ⟨group, '-' :: (['-'].intercalate (g :: groups) ++ rest), hlength, hhex group (by simp),
            by simp [List.intercalate_cons_cons], Or.inr ⟨by simp, _, rfl, ?_⟩⟩
          exact (ih _).2 ⟨g :: groups, rfl, fun x hx => hhex x (List.mem_cons_of_mem group hx), rfl⟩

theorem IsUuid.length_eq (h : IsUuid u) : u.length = 36 := by
  obtain ⟨groups, hlengths, -, rfl⟩ := h
  simp only [List.map_eq_cons_iff, List.map_eq_nil_iff] at hlengths
  obtain ⟨a, -, rfl, ha, b, -, rfl, hb, c, -, rfl, hc, d, -, rfl, hd, e, -, rfl, he, rfl⟩ := hlengths
  simp [List.intercalate_cons_cons, ha, hb, hc, hd, he]

theorem IsUuid.hyphen_mem (h : IsUuid u) : '-' ∈ u := by
  obtain ⟨groups, hlengths, -, rfl⟩ := h
  simp only [List.map_eq_cons_iff, List.map_eq_nil_iff] at hlengths
  obtain ⟨a, -, rfl, -, b, -, rfl, -, -⟩ := hlengths
  simp [List.intercalate_cons_cons]

theorem mem_intercalate_singleton {x c : Char} {groups : List (List Char)} (h : c ∈ [x].intercalate groups) :
    c = x ∨ ∃ group ∈ groups, c ∈ group := by
  induction groups with
  | nil => cases h
  | cons g groups ih =>
    cases groups with
    | nil => exact Or.inr ⟨g, by simp, by simpa using h⟩
    | cons g' groups =>
      rw [List.intercalate_cons_cons, List.mem_append, List.mem_append] at h
      rcases h with (h | h) | h
      · exact Or.inr ⟨g, by simp, h⟩
      · exact Or.inl (List.mem_singleton.1 h)
      · rcases ih h with rfl | ⟨group, hgroup, hc⟩
        · exact Or.inl rfl
        · exact Or.inr ⟨group, List.mem_cons_of_mem g hgroup, hc⟩

/-- A mark that is no hyphen does not stand in a UUID. -/
theorem IsUuid.notMem (h : IsUuid u) {c : Char} (hhyphen : c ≠ '-') (hc : hexDigit? c = none) : c ∉ u := by
  obtain ⟨groups, -, hhex, rfl⟩ := h
  intro hmem
  rcases mem_intercalate_singleton hmem with rfl | ⟨group, hgroup, hmem⟩
  · exact hhyphen rfl
  · have hsome := hhex group hgroup c hmem
    rw [hc] at hsome
    cases hsome

theorem afterUuid?_eq_some_iff : afterUuid? s = some rest ↔ ∃ u, IsUuid u ∧ s = u ++ rest := by
  rw [afterUuid?, go_eq_some_iff]
  constructor
  · rintro ⟨groups, hlengths, hhex, rfl⟩
    exact ⟨_, ⟨groups, hlengths, hhex, rfl⟩, rfl⟩
  · rintro ⟨u, ⟨groups, hlengths, hhex, rfl⟩, rfl⟩
    exact ⟨groups, hlengths, hhex, rfl⟩

/-- A UUID at the front, with what replaces it. -/
def uuidMatch? (s : List Char) : Option (List Char × List Char) := (afterUuid? s).map (placeholder, ·)

theorem uuidMatch?_eq_some_iff {text : List Char} :
    uuidMatch? s = some (text, rest) ↔ text = placeholder ∧ ∃ u, IsUuid u ∧ s = u ++ rest := by
  rw [← afterUuid?_eq_some_iff, uuidMatch?]
  constructor
  · intro h
    obtain ⟨after, hafter, heq⟩ := Option.map_eq_some_iff.1 h
    cases heq
    exact ⟨rfl, hafter⟩
  · rintro ⟨rfl, h⟩
    rw [h]
    rfl

theorem replaces_uuids : Replaces uuidMatch? replaceUuids where
  nil fuel := by cases fuel <;> rfl
  kept fuel h := by
    rw [uuidMatch?, Option.map_eq_none_iff] at h
    rw [replaceUuids, h]
  replaced fuel h := by
    obtain ⟨rest, hafter, heq⟩ := Option.map_eq_some_iff.1 h
    cases heq
    rw [replaceUuids, hafter]
  shorter h := by
    obtain ⟨-, u, hu, heq⟩ := uuidMatch?_eq_some_iff.1 h
    have hlength := congrArg List.length heq
    rw [List.length_cons, List.length_append, hu.length_eq] at hlength
    omega

/-- What stands at the front of the outcome without a brace stands at the front of the text. -/
theorem exists_front_of_replaced {u after : List Char} (h : Replaced uuidMatch? s out) (hout : out = u ++ after)
    (hu : '\x7b' ∉ u) : ∃ after', s = u ++ after' := by
  induction h generalizing u with
  | nil => exact ⟨[], by simp_all⟩
  | @kept c s out _ _ ih =>
    cases u with
    | nil => exact ⟨c :: s, rfl⟩
    | cons x u =>
      rw [List.cons_append, List.cons.injEq] at hout
      obtain ⟨rfl, hout⟩ := hout
      obtain ⟨after', rfl⟩ := ih hout fun hmem => hu (List.mem_cons_of_mem c hmem)
      exact ⟨after', rfl⟩
  | @replaced c s text rest out hmatch _ _ =>
    obtain ⟨rfl, -⟩ := uuidMatch?_eq_some_iff.1 hmatch
    cases u with
    | nil => exact ⟨c :: s, rfl⟩
    | cons x u =>
      have hx : '\x7b' = x := (List.cons.inj hout).1
      exact absurd List.mem_cons_self (hx ▸ hu)

/-- No UUID is left anywhere, and none has come into being. -/
theorem not_isUuid_of_replaced (h : Replaced uuidMatch? s out) (hwithin : u <:+: out) : ¬ IsUuid u := by
  intro hu
  obtain ⟨before, after, hout⟩ := hwithin
  replace hout := hout.symm
  have hbrace : '\x7b' ∉ u := hu.notMem (by decide) (by decide)
  have hclosing : '\x7d' ∉ u := hu.notMem (by decide) (by decide)
  have hlength := hu.length_eq
  induction h generalizing before with
  | nil =>
    have hnil := congrArg List.length hout
    simp only [List.length_nil, List.length_append] at hnil
    omega
  | @kept c s out hnone hrest ih =>
    cases before with
    | nil =>
      obtain ⟨after', heq⟩ := exists_front_of_replaced (.kept hnone hrest) hout hbrace
      have hsome : uuidMatch? (c :: s) = some (placeholder, after') :=
        uuidMatch?_eq_some_iff.2 ⟨rfl, u, hu, heq⟩
      cases hnone.symm.trans hsome
    | cons b before => exact ih before (List.cons.inj hout).2
  | @replaced c s text rest out hmatch _ ih =>
    obtain ⟨rfl, -⟩ := uuidMatch?_eq_some_iff.1 hmatch
    rw [List.append_assoc] at hout
    rcases List.append_eq_append_iff.1 hout with ⟨l, rfl, htail⟩ | ⟨l, hplaceholder, htail⟩
    · exact ih l (by rw [htail, List.append_assoc])
    · -- The UUID begins within the placeholder, so it would hold its closing brace.
      rcases List.eq_nil_or_concat l with rfl | ⟨l, x, rfl⟩
      · exact ih [] htail.symm
      · have hx : x = '\x7d' := by
          have hlast := congrArg List.getLast? hplaceholder
          rw [List.concat_eq_append, ← List.append_assoc, List.getLast?_concat] at hlast
          exact (Option.some.inj hlast).symm
        subst hx
        rcases List.append_eq_append_iff.1 htail with ⟨m, hl, -⟩ | ⟨m, rfl, -⟩
        · have hshort := congrArg List.length hplaceholder
          have hinner := congrArg List.length hl
          simp only [placeholder, List.length_cons, List.length_nil, List.length_append] at hshort hinner
          omega
        · exact hclosing (by simp)

/-! ### Segments -/

def segments (s : List Char) : List (List Char) := cut (· == '/') s

theorem beq_slash_of_notMem {a : List Char} (ha : '/' ∉ a) : ∀ c ∈ a, (c == '/') = false := by
  intro c hc
  rw [beq_eq_false_iff_ne]
  rintro rfl
  exact ha hc

theorem segments_of_notMem {a : List Char} (ha : '/' ∉ a) : segments a = [a] :=
  cut_of_free (beq_slash_of_notMem ha)

theorem segments_append_slash {a : List Char} (ha : '/' ∉ a) (s : List Char) :
    segments (a ++ '/' :: s) = a :: segments s := cut_append_cons (beq_slash_of_notMem ha) rfl s

theorem segments_slash (s : List Char) : segments ('/' :: s) = [] :: segments s :=
  segments_append_slash (a := []) (by simp) s

/-- The first segment, and what becomes of it when something without a slash is put in front. -/
theorem exists_segments (s : List Char) : ∃ first others, segments s = first :: others ∧ first <+: s ∧
    ∀ a : List Char, '/' ∉ a → segments (a ++ s) = (a ++ first) :: others := by
  obtain ⟨first, others, hcut, -, hs⟩ := cut_eq_cons (· == '/') s
  refine ⟨first, others, hcut, ?_, fun a ha => cut_free_append (beq_slash_of_notMem ha) hcut⟩
  rcases hs with ⟨-, rfl⟩ | ⟨c, tail, -, rfl, -⟩
  · exact List.prefix_rfl
  · exact List.prefix_append first _

/-- UUIDs lie within segments, so each segment is rid of its own. -/
theorem forall₂_segments (h : Replaced uuidMatch? s out) :
    List.Forall₂ (Replaced uuidMatch?) (segments s) (segments out) := by
  induction h with
  | nil => exact .cons .nil .nil
  | @kept c s out hnone _ ih =>
    by_cases hc : c = '/'
    · subst hc
      rw [segments_slash, segments_slash]
      exact .cons .nil ih
    · obtain ⟨first, others, hs, ⟨tail, hfirst⟩, hfront⟩ := exists_segments s
      obtain ⟨first', others', hout, -, hfront'⟩ := exists_segments out
      have hfree : '/' ∉ [c] := by simpa using Ne.symm hc
      rw [hs, hout, List.forall₂_cons] at ih
      rw [show c :: s = [c] ++ s from rfl, show c :: out = [c] ++ out from rfl, hfront _ hfree,
        hfront' _ hfree]
      refine .cons (.kept ?_ ih.1) ih.2
      -- A UUID at the front of the segment would be one at the front of the text.
      rw [Option.eq_none_iff_forall_not_mem]
      rintro ⟨text, after⟩ hmatch
      obtain ⟨rfl, u, hu, heq⟩ := uuidMatch?_eq_some_iff.1 hmatch
      have hsome : uuidMatch? (c :: s) = some (placeholder, after ++ tail) := by
        refine uuidMatch?_eq_some_iff.2 ⟨rfl, u, hu, ?_⟩
        rw [← hfirst, ← List.append_assoc, ← heq]
        rfl
      cases hnone.symm.trans hsome
  | @replaced c s text rest out hmatch _ ih =>
    obtain ⟨rfl, u, hu, heq⟩ := uuidMatch?_eq_some_iff.1 hmatch
    obtain ⟨first, others, hrest, -, hfront⟩ := exists_segments rest
    obtain ⟨first', others', hout, -, hfront'⟩ := exists_segments out
    rw [hrest, hout, List.forall₂_cons] at ih
    rw [heq, hfront u (hu.notMem (by decide) (by decide)), hfront' placeholder (by decide)]
    refine .cons ?_ ih.2
    cases u with
    | nil => cases hu.length_eq
    | cons x u => exact .replaced (uuidMatch?_eq_some_iff.2 ⟨rfl, x :: u, hu, rfl⟩) ih.1

def withoutUuids (s : List Char) : List Char := replaceUuids s.length s

theorem replaced_withoutUuids (s : List Char) : Replaced uuidMatch? s (withoutUuids s) :=
  replaces_uuids.replaced_of_length_le (Nat.le_refl _)

theorem segments_withoutUuids (s : List Char) : segments (withoutUuids s) = (segments s).map withoutUuids := by
  have hsegments := forall₂_segments (replaced_withoutUuids s)
  generalize segments (withoutUuids s) = parts, segments s = l at hsegments
  induction hsegments with
  | nil => rfl
  | cons hfirst _ ih => rw [List.map_cons, ← ih, hfirst.unique (replaced_withoutUuids _)]

/-! ### Numbers -/

/-- A segment that consists of decimal digits. -/
def isNumber (segment : List Char) : Bool := !segment.isEmpty && segment.all isDecimalDigit

theorem isDecimalDigit_of_mark : ∀ c ∈ ['/', '-', '\x7b'], isDecimalDigit c = false := by
  have hmarks : ['/', '-', '\x7b'].all (fun c => !isDecimalDigit c) = true := by decide +kernel
  intro c hc
  simpa using List.all_eq_true.1 hmarks c hc

theorem notMem_of_isNumber (h : isNumber s = true) {c : Char} (hc : c ∈ ['/', '-', '\x7b']) : c ∉ s := by
  intro hmem
  have hdigit := List.all_eq_true.1 (Bool.and_eq_true_iff.1 h).2 c hmem
  cases hdigit.symm.trans (isDecimalDigit_of_mark c hc)

theorem isNumber_placeholder : isNumber placeholder = false := by decide +kernel

theorem eq_of_replaced_of_hyphen (h : Replaced uuidMatch? s out) (hs : '-' ∉ s) : out = s := by
  induction h with
  | nil => rfl
  | kept _ _ ih => rw [ih fun hmem => hs (List.mem_cons_of_mem _ hmem)]
  | replaced hmatch _ _ =>
    obtain ⟨-, u, hu, heq⟩ := uuidMatch?_eq_some_iff.1 hmatch
    rw [heq] at hs
    exact absurd (List.mem_append_left _ hu.hyphen_mem) hs

theorem eq_of_replaced_of_brace (h : Replaced uuidMatch? s out) (hout : '\x7b' ∉ out) : out = s := by
  induction h with
  | nil => rfl
  | kept _ _ ih => rw [ih fun hmem => hout (List.mem_cons_of_mem _ hmem)]
  | replaced hmatch _ _ =>
    obtain ⟨rfl, -⟩ := uuidMatch?_eq_some_iff.1 hmatch
    exact absurd List.mem_cons_self hout

/-- Numbers hold no UUIDs, and no segment becomes a number by losing its UUIDs. -/
theorem withoutUuids_of_isNumber (h : isNumber s = true ∨ isNumber (withoutUuids s) = true) :
    withoutUuids s = s := by
  rcases h with h | h
  · exact eq_of_replaced_of_hyphen (replaced_withoutUuids s) (notMem_of_isNumber h (by simp))
  · exact eq_of_replaced_of_brace (replaced_withoutUuids s) (notMem_of_isNumber h (by simp))

theorem isNumber_withoutUuids (s : List Char) : isNumber (withoutUuids s) = isNumber s := by
  rw [Bool.eq_iff_iff]
  constructor
  · intro h
    rwa [withoutUuids_of_isNumber (Or.inr h)] at h
  · intro h
    rwa [withoutUuids_of_isNumber (Or.inl h)]

/-- A number at the front, with the slash before it and the one after it. -/
def numberMatch? (s : List Char) : Option (List Char × List Char) :=
  (afterNumber? s).map fun (slash, rest) => ('/' :: placeholder ++ (if slash then ['/'] else []), rest)

theorem takeWhile_number {digits : List Char} (hdigits : isNumber digits = true) (tail : List Char)
    (htail : ∀ c ∈ tail.head?, c = '/') : (digits ++ tail).takeWhile isDecimalDigit = digits := by
  rw [List.takeWhile_append_of_pos (List.all_eq_true.1 (Bool.and_eq_true_iff.1 hdigits).2)]
  cases tail with
  | nil => simp
  | cons c tail =>
    have hc : isDecimalDigit c = false := isDecimalDigit_of_mark c (by simp [htail c rfl])
    rw [List.takeWhile_cons, hc]
    simp

theorem afterNumber?_eq_some_iff {slash : Bool} : afterNumber? s = some (slash, rest) ↔
    ∃ digits, isNumber digits = true ∧ s = '/' :: (digits ++ (if slash then '/' :: rest else [])) ∧
      (slash = false → rest = []) := by
  constructor
  · intro h
    unfold afterNumber? at h
    split at h
    · next tail =>
      dsimp only at h
      have hsplit := List.prefix_iff_eq_append.1 (List.takeWhile_prefix isDecimalDigit (l := tail))
      have hdigits : (tail.takeWhile isDecimalDigit).all isDecimalDigit = true := List.all_takeWhile
      split at h
      · cases h
      · next hsome =>
        have hnumber : isNumber (tail.takeWhile isDecimalDigit) = true := by
          rw [isNumber, hdigits, Bool.and_true, Bool.not_eq_true']
          exact Bool.eq_false_iff.2 hsome
        split at h
        · next hdrop =>
          cases h
          rw [hdrop] at hsplit
          exact ⟨_, hnumber, by simpa using hsplit.symm, fun _ => rfl⟩
        · next after hdrop =>
          cases h
          rw [hdrop] at hsplit
          exact ⟨_, hnumber, by simpa using hsplit.symm, by simp⟩
        · cases h
    · cases h
  · rintro ⟨digits, hdigits, rfl, hrest⟩
    have hempty : digits.isEmpty = false := by simpa using (Bool.and_eq_true_iff.1 hdigits).1
    cases slash with
    | false =>
      have htake := takeWhile_number hdigits [] (by simp)
      simp only [afterNumber?, Bool.false_eq_true, if_false, htake, hempty, List.drop_left, hrest rfl]
    | true =>
      have htake := takeWhile_number hdigits ('/' :: rest) (by simp)
      simp only [afterNumber?, if_true, htake, hempty, Bool.false_eq_true, if_false, List.drop_left]

/-- A number between two slashes, or between a slash and the end. -/
theorem numberMatch?_eq_some_iff {text : List Char} : numberMatch? s = some (text, rest) ↔
    ∃ digits, isNumber digits = true ∧
      (s = '/' :: (digits ++ '/' :: rest) ∧ text = '/' :: (placeholder ++ ['/']) ∨
        s = '/' :: digits ∧ text = '/' :: placeholder ∧ rest = []) := by
  rw [numberMatch?, Option.map_eq_some_iff]
  constructor
  · rintro ⟨⟨slash, after⟩, hafter, heq⟩
    cases heq
    obtain ⟨digits, hdigits, hs, hrest⟩ := afterNumber?_eq_some_iff.1 hafter
    cases slash with
    | false => exact ⟨digits, hdigits, Or.inr ⟨by simpa using hs, by simp, hrest rfl⟩⟩
    | true => exact ⟨digits, hdigits, Or.inl ⟨by simpa using hs, by simp⟩⟩
  · rintro ⟨digits, hdigits, ⟨rfl, rfl⟩ | ⟨rfl, rfl, rfl⟩⟩
    · exact ⟨(true, rest), afterNumber?_eq_some_iff.2 ⟨digits, hdigits, by simp, by simp⟩, by simp⟩
    · exact ⟨(false, []), afterNumber?_eq_some_iff.2 ⟨digits, hdigits, by simp, by simp⟩, by simp⟩

/-- A slash in front of a number makes a match. -/
theorem numberMatch?_slash {first : List Char} {others : List (List Char)} (hs : segments s = first :: others)
    (hfirst : isNumber first = true) : ∃ found, numberMatch? ('/' :: s) = some found := by
  obtain ⟨_, _, hcut, -, ⟨-, rfl⟩ | ⟨c, after, hc, rfl, -⟩⟩ := cut_eq_cons (· == '/') s
  · cases hs.symm.trans hcut
    exact ⟨('/' :: placeholder, []), numberMatch?_eq_some_iff.2 ⟨s, hfirst, Or.inr ⟨rfl, rfl, rfl⟩⟩⟩
  · cases hs.symm.trans hcut
    rw [beq_iff_eq] at hc
    subst hc
    exact ⟨('/' :: (placeholder ++ ['/']), after),
      numberMatch?_eq_some_iff.2 ⟨first, hfirst, Or.inl ⟨rfl, rfl⟩⟩⟩

theorem replaces_numbers : Replaces numberMatch? replaceNumbers where
  nil fuel := by cases fuel <;> rfl
  kept fuel h := by
    rw [numberMatch?, Option.map_eq_none_iff] at h
    rw [replaceNumbers, h]
  replaced fuel h := by
    obtain ⟨⟨slash, rest⟩, hafter, heq⟩ := Option.map_eq_some_iff.1 h
    cases heq
    rw [replaceNumbers, hafter]
  shorter h := by
    obtain ⟨digits, -, ⟨heq, -⟩ | ⟨-, -, rfl⟩⟩ := numberMatch?_eq_some_iff.1 h
    · have hlength := congrArg List.length heq
      simp only [List.length_cons, List.length_append] at hlength
      omega
    · exact Nat.zero_le _

def withoutNumbers (s : List Char) : List Char := replaceNumbers s.length s

/-! ### Which numbers are replaced -/

/-- Whether the slash after a segment is used up, by the match of the segment. -/
def usedBy (used : Bool) (segment : List Char) : Bool := isNumber segment && !used

/-- What becomes of segments: a number is replaced unless the slash before it is used up. -/
def collapsed : Bool → List (List Char) → List (List Char)
  | _, [] => []
  | used, segment :: others =>
    (if usedBy used segment then placeholder else segment) :: collapsed (usedBy used segment) others

theorem collapsed_true_cons (segment : List Char) (others : List (List Char)) :
    collapsed true (segment :: others) = segment :: collapsed false others := by
  simp [collapsed, usedBy]

theorem collapsed_false_cons {segment : List Char} (h : isNumber segment = true) (others : List (List Char)) :
    collapsed false (segment :: others) = placeholder :: collapsed true others := by
  simp [collapsed, usedBy, h]

theorem collapsed_cons_of_not_isNumber {segment : List Char} (h : isNumber segment = false) (used : Bool)
    (others : List (List Char)) : collapsed used (segment :: others) = segment :: collapsed false others := by
  simp [collapsed, usedBy, h]

/-- Matches are whole segments. -/
theorem segments_of_replaced (h : Replaced numberMatch? s out) : segments out = collapsed true (segments s) := by
  induction h with
  | nil => rfl
  | @kept c s out hnone _ ih =>
    obtain ⟨first, others, hs, -, hfront⟩ := exists_segments s
    obtain ⟨first', others', hout, -, hfront'⟩ := exists_segments out
    by_cases hc : c = '/'
    · subst hc
      have hfirst : isNumber first = false := by
        rw [Bool.eq_false_iff]
        intro hfirst
        obtain ⟨found, hsome⟩ := numberMatch?_slash hs hfirst
        cases hnone.symm.trans hsome
      rw [segments_slash, segments_slash, ih, hs, collapsed_true_cons [],
        collapsed_cons_of_not_isNumber hfirst, collapsed_cons_of_not_isNumber hfirst]
    · have hfree : '/' ∉ [c] := by simpa using Ne.symm hc
      rw [hs, hout, collapsed_true_cons, List.cons.injEq] at ih
      rw [show c :: s = [c] ++ s from rfl, show c :: out = [c] ++ out from rfl, hfront _ hfree,
        hfront' _ hfree, collapsed_true_cons, ih.1, ih.2]
  | @replaced c s text rest out hmatch hrest ih =>
    have hplaceholder : '/' ∉ placeholder := by decide
    obtain ⟨digits, hdigits, ⟨heq, rfl⟩ | ⟨heq, rfl, rfl⟩⟩ := numberMatch?_eq_some_iff.1 hmatch
    · have hs : segments (c :: s) = [] :: digits :: segments rest := by
        rw [heq, segments_slash, segments_append_slash (notMem_of_isNumber hdigits (by simp))]
      have hout : segments ('/' :: (placeholder ++ ['/']) ++ out) = [] :: placeholder :: segments out := by
        rw [List.cons_append, List.append_assoc, List.singleton_append, segments_slash,
          segments_append_slash hplaceholder]
      rw [hout, hs, ih, collapsed_true_cons, collapsed_false_cons hdigits]
    · cases hrest
      have hs : segments (c :: s) = [[], digits] := by
        rw [heq, segments_slash, segments_of_notMem (notMem_of_isNumber hdigits (by simp))]
      rw [hs, List.append_nil, segments_slash, segments_of_notMem hplaceholder, collapsed_true_cons,
        collapsed_false_cons hdigits]
      rfl

def usedAfter (used : Bool) (before : List (List Char)) : Bool := before.foldl usedBy used

/-- The numbers left by the replacement are those with a used up slash in front. -/
theorem exists_of_collapsed_eq {used : Bool} {l before' after' : List (List Char)} {n : List Char}
    (hn : isNumber n = true) (h : collapsed used l = before' ++ n :: after') :
    ∃ before after, l = before ++ n :: after ∧ collapsed used before = before' ∧ usedAfter used before = true := by
  induction before' generalizing used l with
  | nil =>
    cases l with
    | nil => cases h
    | cons segment others =>
      have hhead := (List.cons.inj h).1
      cases hused : usedBy used segment with
      | true =>
        rw [hused, if_pos rfl] at hhead
        rw [← hhead, isNumber_placeholder] at hn
        cases hn
      | false =>
        rw [hused, if_neg Bool.false_ne_true] at hhead
        subst hhead
        rw [usedBy, hn, Bool.true_and, Bool.not_eq_false'] at hused
        exact ⟨[], others, rfl, rfl, hused⟩
  | cons b before' ih =>
    cases l with
    | nil => cases h
    | cons segment others =>
      obtain ⟨hhead, htail⟩ := List.cons.inj h
      obtain ⟨before, after, rfl, hbefore, hafter⟩ := ih htail
      exact ⟨segment :: before, after, rfl, by rw [collapsed, hhead, hbefore], hafter⟩

theorem collapsed_append (used : Bool) (before l : List (List Char)) :
    collapsed used (before ++ l) = collapsed used before ++ collapsed (usedAfter used before) l := by
  induction before generalizing used with
  | nil => rfl
  | cons segment before ih =>
    rw [List.cons_append, collapsed, collapsed, ih]
    rfl

theorem mem_collapsed {used : Bool} {l : List (List Char)} {segment : List Char}
    (h : segment ∈ collapsed used l) : segment = placeholder ∨ segment ∈ l := by
  induction l generalizing used with
  | nil => cases h
  | cons x l ih =>
    rcases List.mem_cons.1 h with rfl | h
    · split
      · exact Or.inl rfl
      · exact Or.inr List.mem_cons_self
    · rcases ih h with rfl | h
      · exact Or.inl rfl
      · exact Or.inr (List.mem_cons_of_mem x h)

theorem usedAfter_map_withoutUuids (used : Bool) (before : List (List Char)) :
    usedAfter used (before.map withoutUuids) = usedAfter used before := by
  have hused : ∀ used' segment, usedBy used' (withoutUuids segment) = usedBy used' segment := by
    intro used' segment
    rw [usedBy, isNumber_withoutUuids]
    rfl
  rw [usedAfter, List.foldl_map]
  simp only [hused]
  rfl

/-! ### The label -/

/-- The path without its identifiers, before it is shortened. -/
def uncut (path : String) : List Char := withoutNumbers (withoutUuids path.toList)

theorem toList_sanitizePath (path : String) : (sanitizePath path).toList = (uncut path).take maxPathLabel := by
  rw [sanitizePath, String.toList_ofList]
  rfl

/-- Segments as they stand in the label. -/
def label (l : List (List Char)) : List (List Char) := collapsed true (l.map withoutUuids)

theorem segments_uncut (path : String) : segments (uncut path) = label (segments path.toList) := by
  rw [uncut, withoutNumbers, segments_of_replaced (replaces_numbers.replaced_of_length_le (Nat.le_refl _)),
    segments_withoutUuids]
  rfl

/-- Segments as they are written, with a slash after each. -/
def leading (before : List (List Char)) : List Char := before.flatMap (· ++ ['/'])

/-- A segment in the text: what stands before it, and what can stand after it. -/
theorem exists_of_segments_eq {before after : List (List Char)} {segment t : List Char}
    (h : segments t = before ++ segment :: after) : ∃ tail : List Char, t = leading before ++ (segment ++ tail) ∧
      '/' ∉ segment ∧ (∀ s, segments (leading before ++ s) = before ++ segments s) ∧
      (after = [] ∧ tail = [] ∨ ∃ rest, tail = '/' :: rest ∧ segments rest = after) := by
  induction before generalizing t with
  | nil =>
    obtain ⟨first, others, hcut, hfirst, hrest⟩ := cut_eq_cons (· == '/') t
    cases h.symm.trans hcut
    have hfree : '/' ∉ segment := fun hmem => by simpa using hfirst '/' hmem
    rcases hrest with ⟨rfl, rfl⟩ | ⟨c, rest, hc, rfl, rfl⟩
    · exact ⟨[], by simp [leading], hfree, fun _ => rfl, Or.inl ⟨rfl, rfl⟩⟩
    · rw [beq_iff_eq] at hc
      subst hc
      exact ⟨'/' :: rest, rfl, hfree, fun _ => rfl, Or.inr ⟨rest, rfl, rfl⟩⟩
  | cons b before ih =>
    obtain ⟨first, others, hcut, hfirst, hrest⟩ := cut_eq_cons (· == '/') t
    cases h.symm.trans hcut
    have hb : '/' ∉ b := fun hmem => by simpa using hfirst '/' hmem
    have hleading : ∀ s, leading (b :: before) ++ s = b ++ '/' :: (leading before ++ s) := by simp [leading]
    rcases hrest with ⟨hnil, -⟩ | ⟨c, rest, hc, rfl, hothers⟩
    · simp at hnil
    · rw [beq_iff_eq] at hc
      subst hc
      obtain ⟨tail, rfl, hfree, hfront, hafter⟩ := ih hothers
      refine ⟨tail, (hleading _).symm, hfree, ?_, hafter⟩
      intro s
      rw [hleading, segments_append_slash hb, hfront, List.cons_append]

/-- The path is shortened within a segment: something other than a slash is what is left out first. -/
def IsCut (path : String) : Prop := ∃ c ∈ ((uncut path).drop maxPathLabel).head?, c ≠ '/'

/-- A segment of the label, other than a last one cut. -/
def WholeSegment (path : String) (segment : List Char) : Prop :=
  ∃ before after, segments (sanitizePath path).toList = before ++ segment :: after ∧ (after = [] → ¬ IsCut path)

/-- Whole are the segments that end within the greatest length. -/
theorem wholeSegment_iff {path : String} {segment : List Char} : WholeSegment path segment ↔
    ∃ before after, segments (uncut path) = before ++ segment :: after ∧
      (leading before ++ segment).length ≤ maxPathLabel := by
  rw [WholeSegment, toList_sanitizePath, IsCut]
  generalize uncut path = t
  constructor
  · rintro ⟨before, after, hsegments, hwhole⟩
    obtain ⟨tail, htake, hfree, hfront, hafter⟩ := exists_of_segments_eq hsegments
    have hfit : (leading before ++ segment).length ≤ maxPathLabel := by
      have hle := List.length_take_le maxPathLabel t
      rw [htake, ← List.append_assoc, List.length_append] at hle
      omega
    have ht : t = leading before ++ (segment ++ (tail ++ t.drop maxPathLabel)) := by
      rw [← List.append_assoc segment, ← List.append_assoc, ← htake, List.take_append_drop]
    rw [ht, hfront]
    rcases hafter with ⟨rfl, rfl⟩ | ⟨rest, rfl, -⟩
    · rw [List.nil_append]
      rcases hdrop : t.drop maxPathLabel with _ | ⟨c, rest⟩
      · exact ⟨before, [], by rw [List.append_nil, segments_of_notMem hfree], hfit⟩
      · have hc : c = '/' := by
          by_contra hc
          exact hwhole rfl ⟨c, by rw [hdrop]; rfl, hc⟩
        subst hc
        exact ⟨before, segments rest, by rw [segments_append_slash hfree], hfit⟩
    · rw [List.cons_append, segments_append_slash hfree]
      exact ⟨before, _, rfl, hfit⟩
  · rintro ⟨before, after, hsegments, hfit⟩
    obtain ⟨tail, rfl, hfree, hfront, hafter⟩ := exists_of_segments_eq hsegments
    rw [← List.append_assoc, List.take_append, List.take_of_length_le hfit, List.drop_append,
      List.drop_eq_nil_of_le hfit, List.nil_append, List.append_assoc, hfront]
    rcases hafter with ⟨-, rfl⟩ | ⟨rest, rfl, -⟩
    · exact ⟨before, [], by rw [List.take_nil, List.append_nil, segments_of_notMem hfree], by simp⟩
    · cases maxPathLabel - (leading before ++ segment).length with
      | zero => exact ⟨before, [], by rw [List.take_zero, List.append_nil, segments_of_notMem hfree], by simp⟩
      | succ m =>
        refine ⟨before, segments (rest.take m), by rw [List.take_succ_cons, segments_append_slash hfree], ?_⟩
        intro hnil
        exact absurd hnil (cut_ne_nil _ _)

/-- A number of the path with a slash in front that the match of the number before it has used up, or with nothing
in front; it stands in the label as a whole. -/
def Overlooked (path : String) : Prop :=
  ∃ before n after, segments path.toList = before ++ n :: after ∧ isNumber n = true ∧
    usedAfter true before = true ∧ (leading (label before) ++ n).length ≤ maxPathLabel

/-- Nothing is overlooked where numbers stand apart. -/
theorem not_overlooked_of_apart {path : String}
    (hfirst : ∀ n ∈ (segments path.toList).head?, isNumber n = false)
    (hapart : (segments path.toList).IsChain fun a b => isNumber a = true → isNumber b = false) :
    ¬ Overlooked path := by
  rintro ⟨before, n, after, hsegments, hn, hused, -⟩
  rw [hsegments] at hfirst hapart
  rcases List.eq_nil_or_concat before with rfl | ⟨before, a, rfl⟩
  · exact absurd hn (by simp [hfirst n rfl])
  · rw [List.concat_eq_append, usedAfter, List.foldl_concat, usedBy, Bool.and_eq_true] at hused
    rw [List.concat_eq_append, List.append_assoc, List.singleton_append, List.isChain_append_cons_cons] at hapart
    exact absurd hn (by simp [hapart.2.1 hused.1])

theorem exists_wholeSegment_isNumber_iff {path : String} :
    (∃ segment, WholeSegment path segment ∧ isNumber segment = true) ↔ Overlooked path := by
  constructor
  · rintro ⟨n, hwhole, hn⟩
    obtain ⟨before', after', hsegments, hfit⟩ := wholeSegment_iff.1 hwhole
    rw [segments_uncut] at hsegments
    obtain ⟨before, after, hmap, hbefore, hused⟩ := exists_of_collapsed_eq hn hsegments
    obtain ⟨b, tail, hpath, rfl, htail⟩ := List.map_eq_append_iff.1 hmap
    obtain ⟨segment, a, rfl, rfl, rfl⟩ := List.map_eq_cons_iff.1 htail
    have hkept := withoutUuids_of_isNumber (Or.inr hn)
    rw [hkept] at hn hfit
    rw [usedAfter_map_withoutUuids] at hused
    rw [← hbefore] at hfit
    exact ⟨b, segment, a, hpath, hn, hused, hfit⟩
  · rintro ⟨before, n, after, hsegments, hn, hused, hfit⟩
    refine ⟨n, wholeSegment_iff.2 ⟨label before, collapsed false (after.map withoutUuids), ?_, hfit⟩, hn⟩
    rw [segments_uncut, hsegments, label, List.map_append, List.map_cons, withoutUuids_of_isNumber (Or.inl hn),
      collapsed_append, usedAfter_map_withoutUuids, hused, collapsed_true_cons]
    rfl

/-- **What survives in labels**: labels are short, there is no UUID in any of their segments, and they have a number
as a segment just if the path has one that is overlooked. -/
theorem identifiers_collapse_iff (path : String) :
    (sanitizePath path).length ≤ 50 ∧
      (∀ segment, WholeSegment path segment → ∀ u, u <:+: segment → ¬ IsUuid u) ∧
      ((∀ segment, WholeSegment path segment → isNumber segment = false) ↔ ¬ Overlooked path) := by
  refine ⟨?_, ?_, ?_⟩
  · rw [← String.length_toList, toList_sanitizePath, List.length_take]
    exact Nat.min_le_left _ _
  · intro segment hwhole u hwithin
    obtain ⟨before, after, hsegments, -⟩ := wholeSegment_iff.1 hwhole
    have hmem : segment ∈ collapsed true ((segments path.toList).map withoutUuids) := by
      rw [← label, ← segments_uncut, hsegments]
      simp
    rcases mem_collapsed hmem with rfl | hmem
    · intro huuid
      have hshort := hwithin.length_le
      rw [huuid.length_eq] at hshort
      exact absurd hshort (by decide)
    · obtain ⟨s, -, rfl⟩ := List.mem_map.1 hmem
      exact not_isUuid_of_replaced (replaced_withoutUuids s) hwithin
  · rw [← exists_wholeSegment_isNumber_iff]
    simp

theorem number_replaced : WholeSegment "/orders/42/items" placeholder ∧ isNumber placeholder = false ∧
    ¬ IsUuid placeholder := by
  obtain ⟨-, huuids, hnumbers⟩ := identifiers_collapse_iff "/orders/42/items"
  have hwhole : WholeSegment "/orders/42/items" placeholder :=
    ⟨segments "/orders".toList, segments "items".toList, by decide +kernel, fun hnil => absurd hnil (by decide)⟩
  have hapart : ¬ Overlooked "/orders/42/items" := not_overlooked_of_apart (by decide +kernel) (by decide +kernel)
  exact ⟨hwhole, hnumbers.2 hapart placeholder hwhole, huuids placeholder hwhole placeholder List.infix_rfl⟩

/-- The second of two numbers in a row is left, in a label that is not shortened. -/
theorem number_left : ¬ ∀ segment, WholeSegment "/orders/1/2" segment → isNumber segment = false := by
  intro h
  have hwhole : WholeSegment "/orders/1/2" ['2'] := by
    refine ⟨segments "/orders/\x7bid\x7d".toList, [], by decide +kernel, fun _ => ?_⟩
    rintro ⟨c, hc, -⟩
    have hdrop : ((uncut "/orders/1/2").drop maxPathLabel).head? = none := by decide +kernel
    rw [hdrop] at hc
    cases hc
  exact absurd (h ['2'] hwhole) (by decide +kernel)

end Turnstile.Gateway
