import Mathlib.Data.List.TakeWhile
import Turnstile.Text.Blank
import Turnstile.Text.Letters
import Turnstile.Text.Split
/-!
# Trimming

What is left of a text that has been trimmed begins and ends with characters that are no blanks, so trimming it
again changes nothing (`trimChars_trimChars`); nothing is left just of a blank text (`trimChars_eq_nil_iff`). A
blank is its own capital form, so a text that has no blank in capitals has none to trim (`trim_of_upper`).
-/

namespace Turnstile.Text

variable {s : List Char}

theorem head?_dropWhile_isBlank (s : List Char) : ∀ c ∈ (s.dropWhile isBlank).head?, isBlank c = false := by
  intro c hc
  have h := List.head?_dropWhile_not isBlank s
  rw [Option.mem_def.1 hc] at h
  simpa using h

theorem trimRight_prefix (s : List Char) : trimRight s <+: s := by
  have h := List.reverse_prefix.2 (List.dropWhile_suffix isBlank (l := s.reverse))
  rwa [List.reverse_reverse] at h

theorem head?_trimChars (s : List Char) : ∀ c ∈ (trimChars s).head?, isBlank c = false := by
  intro c hc
  -- What is left begins as it did before its end was trimmed.
  obtain ⟨rest, hrest⟩ := trimRight_prefix (trimLeft s)
  have hhead : (trimLeft s).head? = some c := by
    rw [← hrest, List.head?_append, show (trimRight (trimLeft s)).head? = some c from hc, Option.some_or]
  exact head?_dropWhile_isBlank s c hhead

theorem getLast?_trimChars (s : List Char) : ∀ c ∈ (trimChars s).getLast?, isBlank c = false := by
  intro c hc
  rw [trimChars, trimRight, List.getLast?_reverse] at hc
  exact head?_dropWhile_isBlank _ c hc

theorem trimChars_trimChars (s : List Char) : trimChars (trimChars s) = trimChars s :=
  trimChars_of_ends (head?_trimChars s) (getLast?_trimChars s)

theorem trimChars_eq_nil_iff : trimChars s = [] ↔ ∀ c ∈ s, isBlank c = true := by
  rw [trimChars, trimRight, List.reverse_eq_nil_iff, List.dropWhile_eq_nil_iff]
  simp only [List.mem_reverse]
  constructor
  · intro h c hc
    rw [← List.takeWhile_append_dropWhile (p := isBlank) (l := s), List.mem_append] at hc
    rcases hc with hc | hc
    · exact List.mem_takeWhile_imp hc
    · exact h c hc
  · intro h c hc
    exact h c ((List.dropWhile_sublist _).subset hc)

theorem trimChars_of_free (h : ∀ c ∈ s, isBlank c = false) : trimChars s = s :=
  trimChars_of_ends (fun c hc => h c (List.mem_of_mem_head? hc)) fun c hc => h c (List.mem_of_getLast? hc)

theorem trimChars_blanks_append {before : List Char} (h : ∀ c ∈ before, isBlank c = true) (s : List Char) :
    trimChars (before ++ s) = trimChars s := by
  rw [trimChars, trimLeft, List.dropWhile_append_of_pos h]
  rfl

theorem trimChars_append_blanks {after : List Char} (h : ∀ c ∈ after, isBlank c = true) (s : List Char) :
    trimChars (s ++ after) = trimChars s := by
  have hafter : after.dropWhile isBlank = [] := List.dropWhile_eq_nil_iff.2 h
  rw [trimChars, trimLeft, List.dropWhile_append]
  split
  · next hempty =>
    rw [hafter, trimChars, trimLeft, List.isEmpty_iff.1 hempty]
  · rw [trimRight, List.reverse_append, List.dropWhile_append_of_pos fun c hc => h c (List.mem_reverse.1 hc)]
    rfl

/-- A text is what is left of it between blanks. -/
theorem trimChars_eq_iff {t : List Char} : trimChars s = t ↔ ∃ before after, s = before ++ (t ++ after) ∧
    (∀ c ∈ before, isBlank c = true) ∧ (∀ c ∈ after, isBlank c = true) ∧
    (∀ c ∈ t.head?, isBlank c = false) ∧ ∀ c ∈ t.getLast?, isBlank c = false := by
  constructor
  · rintro rfl
    refine ⟨s.takeWhile isBlank, ((trimLeft s).reverse.takeWhile isBlank).reverse, ?_,
      fun c hc => List.mem_takeWhile_imp hc, fun c hc => List.mem_takeWhile_imp (List.mem_reverse.1 hc),
      head?_trimChars s, getLast?_trimChars s⟩
    rw [trimChars, trimRight, ← List.reverse_append, List.takeWhile_append_dropWhile, List.reverse_reverse,
      trimLeft, List.takeWhile_append_dropWhile]
  · rintro ⟨before, after, rfl, hbefore, hafter, hfirst, hlast⟩
    rw [trimChars_blanks_append hbefore, trimChars_append_blanks hafter, trimChars_of_ends hfirst hlast]

theorem trim_eq_empty_iff {s : String} : trim s = "" ↔ isBlankText s = true := by
  rw [trim, isBlankText, List.all_eq_true, ← trimChars_eq_nil_iff, ← String.toList_inj, String.toList_ofList]
  rfl

/-! ### Words -/

/-- The stretches of a text between blanks. -/
def words (s : List Char) : List (List Char) := (cut isBlank s).filter fun part => !part.isEmpty

theorem words_cons_of_isBlank {c : Char} (hc : isBlank c = true) (s : List Char) : words (c :: s) = words s := by
  simp [words, cut, hc]

theorem words_blanks_append {before : List Char} (h : ∀ c ∈ before, isBlank c = true) (s : List Char) :
    words (before ++ s) = words s := by
  induction before with
  | nil => rfl
  | cons c before ih =>
    rw [List.cons_append, words_cons_of_isBlank (h c (by simp)), ih fun x hx => h x (List.mem_cons_of_mem c hx)]

theorem words_free_append {word rest : List Char} (hne : word ≠ []) (hfree : ∀ c ∈ word, isBlank c = false)
    (hrest : ∀ c ∈ rest.head?, isBlank c = true) : words (word ++ rest) = word :: words rest := by
  cases rest with
  | nil => simp [words, cut, cut_of_free hfree, hne]
  | cons c rest =>
    have hc : isBlank c = true := hrest c rfl
    rw [words_cons_of_isBlank hc, words, cut_append_cons hfree hc]
    simp [words, hne]

/-- The first word, and what the others are words of. -/
theorem words_eq_cons_iff {word : List Char} {others : List (List Char)} : words s = word :: others ↔
    ∃ before rest, s = before ++ (word ++ rest) ∧ (∀ c ∈ before, isBlank c = true) ∧ word ≠ [] ∧
      (∀ c ∈ word, isBlank c = false) ∧ (∀ c ∈ rest.head?, isBlank c = true) ∧ words rest = others := by
  constructor
  · intro h
    have hs : s = s.takeWhile isBlank ++ s.dropWhile isBlank := List.takeWhile_append_dropWhile.symm
    have hbefore : ∀ c ∈ s.takeWhile isBlank, isBlank c = true := fun c hc => List.mem_takeWhile_imp hc
    rw [hs, words_blanks_append hbefore] at h
    obtain ⟨first, others', hcut, hfirst, htail⟩ := cut_eq_cons isBlank (s.dropWhile isBlank)
    have hhead := head?_dropWhile_isBlank s
    have hne : first ≠ [] := by
      rintro rfl
      rcases htail with ⟨-, hnil⟩ | ⟨c, rest, hc, hcons, -⟩
      · rw [hnil] at h
        cases h
      · rw [hcons] at hhead
        cases hc.symm.trans (hhead c rfl)
    have hsplit : ∃ rest, s.dropWhile isBlank = first ++ rest ∧ ∀ c ∈ rest.head?, isBlank c = true := by
      rcases htail with ⟨-, heq⟩ | ⟨c, rest, hc, heq, -⟩
      · exact ⟨[], by rw [heq, List.append_nil], by simp⟩
      · exact ⟨c :: rest, heq, by simpa using hc⟩
    obtain ⟨rest, heq, hrest⟩ := hsplit
    rw [heq, words_free_append hne hfirst hrest] at h
    cases h
    exact ⟨s.takeWhile isBlank, rest, by rw [← heq, ← hs], hbefore, hne, hfirst, hrest, rfl⟩
  · rintro ⟨before, rest, rfl, hbefore, hne, hfree, hrest, rfl⟩
    rw [words_blanks_append hbefore, words_free_append hne hfree hrest]

theorem words_eq_nil_iff : words s = [] ↔ ∀ c ∈ s, isBlank c = true := by
  constructor
  · intro h c hc
    by_contra hblank
    obtain ⟨part, hpart, hmem⟩ := exists_mem_cut hc (Bool.not_eq_true _ ▸ hblank)
    have hnil := List.filter_eq_nil_iff.1 h part hpart
    rw [Bool.not_eq_true', Bool.not_eq_false, List.isEmpty_iff] at hnil
    rw [hnil] at hmem
    cases hmem
  · intro h
    rw [← List.append_nil s, words_blanks_append h]
    rfl

/-- What is left of a text of one word is the word. -/
theorem trimChars_of_words_eq_singleton {word : List Char} (h : words s = [word]) : trimChars s = word := by
  obtain ⟨before, rest, rfl, hbefore, -, hfree, -, hrest⟩ := words_eq_cons_iff.1 h
  rw [trimChars_blanks_append hbefore, trimChars_append_blanks (words_eq_nil_iff.1 hrest), trimChars_of_free hfree]

/-! ### Capitals -/

theorem upperChar_of_isBlank {c : Char} (h : isBlank c = true) : upperChar c = [c] := by
  have hsmall : ¬ ('a' ≤ c ∧ c ≤ 'z') := by
    rintro ⟨hlow, hhigh⟩
    have hlow' : 97 ≤ c.toNat := hlow
    have hhigh' : c.toNat ≤ 122 := hhigh
    simp only [isBlank, Bool.or_eq_true, Bool.and_eq_true, decide_eq_true_eq, beq_iff_eq] at h
    omega
  unfold upperChar
  split
  -- None of the characters that have a capital form of their own is a blank.
  case h_11 => rw [asciiUpperChar, if_neg hsmall]
  all_goals
    next hc => simp [isBlank, hc] at h

theorem trim_of_upper {s : String} (h : ∀ c ∈ (upper s).toList, isBlank c = false) : trim s = s := by
  have hfree : ∀ c ∈ s.toList, isBlank c = false := by
    intro c hc
    rw [← Bool.not_eq_true]
    intro hblank
    have hkept : c ∈ (upper s).toList := by
      rw [upper, String.toList_ofList, List.mem_flatMap]
      exact ⟨c, hc, by rw [upperChar_of_isBlank hblank]; exact List.mem_singleton_self c⟩
    rw [h c hkept] at hblank
    cases hblank
  rw [trim, trimChars_of_free hfree, String.ofList_toList]

end Turnstile.Text
