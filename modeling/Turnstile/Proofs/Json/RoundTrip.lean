import Turnstile.Json.Decode
import Turnstile.Json.Writer
import Turnstile.Proofs.Text.Utf8
/-!
# Reading what was written

The text of a value is read as this value (`parse_render`), also when it goes through its bytes
(`parseBytes_encode`). This holds for the values that a text can spell (`Spellable`): every string is a text
and every number is written as the grammar wants it, so for all that is built from texts and integers.

A value is read by looking at what stands in front, so each reader is shown to take just what its writer has
put there, whatever follows. Only after a number it matters what follows: nothing that would go on with the
number (`Stops`).
-/

namespace Turnstile.Json

open Text

/-! ### What can be spelt -/

/-- A run of decimal digits. -/
def AreDigits (ds : List Nat) : Prop := ds ≠ [] ∧ ∀ d ∈ ds, d < 10

/-- Digits where they have to stand, and a leading zero only alone. -/
structure Number.Spellable (n : Number) : Prop where
  whole : AreDigits n.whole
  leading : ∀ rest, n.whole = 0 :: rest → rest = []
  fraction : ∀ ds ∈ n.fraction, AreDigits ds
  exponent : ∀ e ∈ n.exponent, AreDigits e.2

/-- Every string is a text and every number is one of the grammar. -/
inductive Spellable : Value → Prop
  | null : Spellable .null
  | bool (b : Bool) : Spellable (.bool b)
  | number {n : Number} (h : n.Spellable) : Spellable (.number n)
  | text (s : String) : Spellable (.text s)
  | array {items : List Value} (h : ∀ v ∈ items, Spellable v) : Spellable (.array items)
  | record {members : List (String × Value)} (h : ∀ m ∈ members, Spellable m.2) : Spellable (.record members)

/-- The members of a record, as a value holds them. -/
def named (members : List (String × Value)) : List (Option String × Value) :=
  members.map fun m => (some m.1, m.2)

namespace Reader

/-- What follows does not go on with a number. -/
def Stops (rest : Gapped) : Prop :=
  ∀ c, rest.head? = some (some c) → digit? c = none ∧ c ≠ '.' ∧ c ≠ 'e' ∧ c ≠ 'E'

theorem stops_nil : Stops [] := by
  intro c h
  cases h

theorem stops_cons {c : Char} (hdigit : digit? c = none) (hpoint : c ≠ '.') (he : c ≠ 'e') (hE : c ≠ 'E')
    (rest : Gapped) : Stops (some c :: rest) := by
  intro d hd
  cases hd
  exact ⟨hdigit, hpoint, he, hE⟩

/-! ### Strings -/

theorem hexDigit?_hexDigit : ∀ n < 16, hexDigit? (hexDigit n) = some n := by
  decide

theorem hex4?_of_small {n : Nat} (h : n < 256) (rest : Gapped) :
    hex4? (some '0' :: some '0' :: some (hexDigit (n / 16)) :: some (hexDigit (n % 16)) :: rest)
      = some (n, rest) := by
  have hzero : hexDigit? '0' = some 0 := by decide
  simp only [hex4?, hzero, hexDigit?_hexDigit (n / 16) (by omega), hexDigit?_hexDigit (n % 16) (by omega),
    Option.bind_eq_bind, Option.bind_some, Option.pure_def]
  rw [show ((0 * 16 + 0) * 16 + n / 16) * 16 + n % 16 = n by omega]

theorem piece?_of_plain {c : Char} (hquote : c ≠ '"') (hslash : c ≠ '\\') (hcontrol : ¬ c.toNat < 0x20)
    (rest : Gapped) : piece? (some c :: rest) = some (.char c rest) := by
  unfold piece?
  split
  · next h => cases h
  · next h => cases h
  · next h =>
    cases h
    exact absurd rfl hquote
  · next h =>
    cases h
    exact absurd rfl hslash
  · next h =>
    cases h
    exact absurd rfl hslash
  · next h =>
    cases h
    exact absurd rfl hslash
  · next h =>
    cases h
    rw [if_neg hcontrol]

/-- An escaped character is read in one step. -/
theorem piece?_escapeChar (c : Char) (rest : Gapped) :
    piece? ((escapeChar c).map some ++ rest) = some (.char c rest) := by
  unfold escapeChar
  split
  · next h => subst h; rfl
  split
  · next h => subst h; rfl
  split
  · next h => subst h; rfl
  split
  · next h => subst h; rfl
  split
  · next h => subst h; rfl
  split
  · next h => subst h; rfl
  split
  · next h => subst h; rfl
  split
  · next hcontrol =>
    have hhex := hex4?_of_small (show c.toNat < 256 by omega) rest
    have hescape : unicodeEscape c.toNat rest = some (.char c rest) := by
      unfold unicodeEscape
      rw [if_neg (by omega), if_neg (by omega), Char.ofNat_toNat]
    simp only [List.map_cons, List.map_nil, List.cons_append, List.nil_append, piece?, hhex,
      Option.bind_eq_bind, Option.bind_some, hescape]
  · next hquote hslash _ _ _ _ _ hcontrol => exact piece?_of_plain hquote hslash hcontrol rest

theorem string?_escaped (s acc : List Char) (rest : Gapped) {fuel : Nat} (h : s.length < fuel) :
    string? fuel acc none ((s.flatMap escapeChar).map some ++ some '"' :: rest)
      = some (.ok (String.ofList (acc.reverse ++ s)), rest) := by
  induction s generalizing acc fuel with
  | nil =>
    rcases fuel with _ | fuel
    · cases h
    · simp [string?, piece?]
  | cons c s ih =>
    rcases fuel with _ | fuel
    · cases h
    · rw [List.flatMap_cons, List.map_append, List.append_assoc, string?, piece?_escapeChar]
      have hrest := ih (c :: acc) (Nat.lt_of_succ_lt_succ h)
      simpa using hrest

theorem length_le_flatMap_escapeChar (s : List Char) : s.length ≤ (s.flatMap escapeChar).length := by
  induction s with
  | nil => exact Nat.le_refl 0
  | cons c s ih =>
    have hpos : 0 < (escapeChar c).length := by
      unfold escapeChar
      repeat' split
      all_goals exact Nat.succ_pos _
    rw [List.flatMap_cons, List.length_append, List.length_cons]
    omega

/-- What follows the opening quote of a written text. -/
theorem string?_text (s : String) (rest : Gapped) :
    string? (((s.toList.flatMap escapeChar).map some ++ some '"' :: rest).length + 1) [] none
        ((s.toList.flatMap escapeChar).map some ++ some '"' :: rest)
      = some (.ok s, rest) := by
  have hlength := length_le_flatMap_escapeChar s.toList
  have hfuel : s.toList.length
      < ((s.toList.flatMap escapeChar).map some ++ some '"' :: rest).length + 1 := by
    rw [List.length_append, List.length_map]
    omega
  rw [string?_escaped s.toList [] rest hfuel]
  simp

/-! ### Numbers -/

theorem digit?_hexDigit : ∀ d < 10, digit? (hexDigit d) = some d := by
  decide

/-- Characters that mark something else than a digit. -/
def marks : List Char :=
  ['+', '-', '"', '[', ']', '\x7b', 'n', 't', 'f']

theorem hexDigit_notMem_marks : ∀ d < 10, hexDigit d ∉ marks := by
  decide

theorem hexDigit_ne {d : Nat} (hd : d < 10) {c : Char} (hc : c ∈ marks) : hexDigit d ≠ c := by
  rintro rfl
  exact hexDigit_notMem_marks d hd hc

theorem isSpace_hexDigit : ∀ d < 10, isSpace (some (hexDigit d)) = false := by
  decide

theorem go_digitChars {ds : List Nat} (hds : ∀ d ∈ ds, d < 10) (acc : List Nat) {rest : Gapped}
    (hrest : ∀ c, rest.head? = some (some c) → digit? c = none) :
    digits.go acc ((digitChars ds).map some ++ rest) = (acc.reverse ++ ds, rest) := by
  induction ds generalizing acc with
  | nil =>
    rw [List.append_nil]
    show digits.go acc rest = _
    rcases rest with _ | ⟨_ | c, rest⟩
    · rfl
    · rfl
    · simp only [digits.go, hrest c rfl]
  | cons d ds ih =>
    have hd := digit?_hexDigit d (hds d (by simp))
    have hrest := ih (fun x hx => hds x (by simp [hx])) (d :: acc)
    simp only [digitChars, List.map_cons, List.cons_append, digits.go, hd] at hrest ⊢
    rw [hrest]
    simp

theorem digits_digitChars {ds : List Nat} (hds : ∀ d ∈ ds, d < 10) {rest : Gapped}
    (hrest : ∀ c, rest.head? = some (some c) → digit? c = none) :
    digits ((digitChars ds).map some ++ rest) = (ds, rest) :=
  go_digitChars hds [] hrest

theorem exponentDigits?_digitChars {ds : List Nat} (hds : AreDigits ds) (down : Bool) {rest : Gapped}
    (hrest : Stops rest) :
    exponentDigits? down ((digitChars ds).map some ++ rest) = some (some (down, ds), rest) := by
  rw [exponentDigits?, digits_digitChars hds.2 fun c hc => (hrest c hc).1]
  obtain ⟨d, ds, rfl⟩ := List.exists_cons_of_ne_nil hds.1
  rfl

/-- What a number has behind its digits before and after the point. -/
def exponentChars : Option (Bool × List Nat) → List Char
  | none => []
  | some (down, ds) => 'e' :: (if down then ['-'] else []) ++ digitChars ds

def fractionChars : Option (List Nat) → List Char
  | none => []
  | some ds => '.' :: digitChars ds

theorem chars_eq (n : Number) :
    n.chars = (if n.negative then ['-'] else []) ++ (digitChars n.whole ++ (fractionChars n.fraction
      ++ exponentChars n.exponent)) := by
  rw [Number.chars, List.append_assoc, List.append_assoc]
  rcases n with ⟨negative, whole, _ | fraction, _ | ⟨down, exponent⟩⟩ <;> rfl

theorem exponent?_of_unsigned {c : Char} (hplus : c ≠ '+') (hminus : c ≠ '-') (rest : Gapped) :
    exponent? (some 'e' :: some c :: rest) = exponentDigits? false (some c :: rest) := by
  unfold exponent?
  split
  · next h =>
    cases h
    exact absurd rfl hplus
  · next h => cases h
  · next h =>
    cases h
    exact absurd rfl hminus
  · next h => cases h
  · next h =>
    cases h
    rfl
  · next h => cases h
  · next hnone _ => exact absurd rfl (hnone _)

theorem exponent?_exponentChars {e : Option (Bool × List Nat)} (he : ∀ x ∈ e, AreDigits x.2) {rest : Gapped}
    (hrest : Stops rest) : exponent? ((exponentChars e).map some ++ rest) = some (e, rest) := by
  rcases e with _ | ⟨down, ds⟩
  · show exponent? rest = _
    unfold exponent?
    split
    all_goals first
      | rfl
      | exact absurd rfl (hrest _ rfl).2.2.1
      | exact absurd rfl (hrest _ rfl).2.2.2
  · have hds := exponentDigits?_digitChars (he _ rfl) down hrest
    cases down with
    | true => exact hds
    | false =>
      obtain ⟨d, ds, rfl⟩ := List.exists_cons_of_ne_nil (he _ rfl).1
      have hd : d < 10 := (he _ rfl).2 d (by simp)
      exact (exponent?_of_unsigned (hexDigit_ne hd (by decide)) (hexDigit_ne hd (by decide)) _).trans hds

/-- What follows the digits after a point. -/
theorem head_exponentChars {e : Option (Bool × List Nat)} {rest : Gapped} (hrest : Stops rest) {c : Char}
    (hc : ((exponentChars e).map some ++ rest).head? = some (some c)) : digit? c = none ∧ c ≠ '.' := by
  rcases e with _ | ⟨down, ds⟩
  · exact ⟨(hrest c hc).1, (hrest c hc).2.1⟩
  · cases hc
    decide

theorem fraction?_fractionChars {f : Option (List Nat)} (hf : ∀ ds ∈ f, AreDigits ds) {after : Gapped}
    (hafter : ∀ c, after.head? = some (some c) → digit? c = none ∧ c ≠ '.') :
    fraction? ((fractionChars f).map some ++ after) = some (f, after) := by
  rcases f with _ | ds
  · show fraction? after = _
    unfold fraction?
    split
    · exact absurd rfl (hafter _ rfl).2
    · rfl
  · show fraction? (some '.' :: ((digitChars ds).map some ++ after)) = _
    rw [fraction?, digits_digitChars (hf _ rfl).2 fun c hc => (hafter c hc).1]
    obtain ⟨d, ds, rfl⟩ := List.exists_cons_of_ne_nil (hf _ rfl).1
    rfl

theorem number?_chars {n : Number} (hn : n.Spellable) {rest : Gapped} (hrest : Stops rest) (negative : Bool) :
    number? negative ((digitChars n.whole ++ (fractionChars n.fraction ++ exponentChars n.exponent)).map some
        ++ rest)
      = some ({ n with negative }, rest) := by
  have hafter : ∀ c, ((exponentChars n.exponent).map some ++ rest).head? = some (some c) →
      digit? c = none ∧ c ≠ '.' := fun c hc => head_exponentChars hrest hc
  have hfraction := fraction?_fractionChars hn.fraction hafter
  have hexponent := exponent?_exponentChars hn.exponent hrest
  have hdigits : digits ((digitChars n.whole).map some ++ ((fractionChars n.fraction).map some
      ++ ((exponentChars n.exponent).map some ++ rest)))
      = (n.whole, (fractionChars n.fraction).map some ++ ((exponentChars n.exponent).map some ++ rest)) := by
    refine digits_digitChars hn.whole.2 fun c hc => ?_
    rcases hf : n.fraction with _ | ds
    · rw [hf] at hc
      exact (hafter c hc).1
    · rw [hf] at hc
      cases hc
      decide
  rw [List.map_append, List.map_append, List.append_assoc, List.append_assoc, number?, hdigits]
  split
  · next h =>
    exact absurd (congrArg Prod.fst h) hn.whole.1
  · next h =>
    cases hn.leading _ (congrArg Prod.fst h)
  · next h =>
    cases h
    rw [hfraction]
    simp only [Option.bind_eq_bind, Option.bind_some, hexponent, Option.pure_def]

/-! ### Values -/

theorem skip_of_not_space {c : Option Char} (h : isSpace c = false) (rest : Gapped) :
    skip (c :: rest) = c :: rest := by
  simp [skip, h]

/-- The value is read off the front of its text, whatever follows. -/
def ReadsBack (v : Value) : Prop :=
  ∀ (fuel : Nat) (rest : Gapped), v.chars.length < fuel → Stops rest →
    value? fuel (v.chars.map some ++ rest) = some (v, rest)

theorem value?_of_digit {d : Nat} (hd : d < 10) (fuel : Nat) (rest : Gapped) :
    value? (fuel + 1) (some (hexDigit d) :: rest)
      = (number? false (some (hexDigit d) :: rest)).map fun (n, rest) => (.number n, rest) := by
  have hmarks {c : Char} (hc : c ∈ marks) : hexDigit d ≠ c := hexDigit_ne hd hc
  have hspace := isSpace_hexDigit d hd
  generalize hexDigit d = c at hmarks hspace
  unfold value?
  rw [skip_of_not_space hspace]
  split
  all_goals first
    | rfl
    | next h =>
      cases h
      exact absurd rfl (hmarks (by decide))

theorem readsBack_number {n : Number} (hn : n.Spellable) : ReadsBack (.number n) := by
  intro fuel rest hfuel hrest
  rcases fuel with _ | fuel
  · cases hfuel
  have hread := number?_chars hn hrest n.negative
  rw [Value.chars, chars_eq]
  rcases n with ⟨_ | _, whole, fraction, exponent⟩
  · obtain ⟨d, ds, rfl⟩ := List.exists_cons_of_ne_nil hn.whole.1
    have hvalue := value?_of_digit (hn.whole.2 d (by simp)) fuel
      ((digitChars ds ++ (fractionChars fraction ++ exponentChars exponent)).map some ++ rest)
    exact hvalue.trans (congrArg (Option.map fun (n, rest) => (Value.number n, rest)) hread)
  · have hskip := skip_of_not_space (c := some '-') (by decide)
      ((digitChars whole ++ (fractionChars fraction ++ exponentChars exponent)).map some ++ rest)
    unfold value?
    simp only [if_true, List.cons_append, List.nil_append, List.map_cons, hskip, hread, Option.map_some]

theorem readsBack_text (s : String) : ReadsBack (.text s) := by
  intro fuel rest hfuel hrest
  rcases fuel with _ | fuel
  · cases hfuel
  have hskip := skip_of_not_space (c := some '"') (by decide)
    ((s.toList.flatMap escapeChar).map some ++ some '"' :: rest)
  have hread := string?_text s rest
  simp only [Value.text, Value.chars, stringChars, Option.getD_some, List.cons_append, List.map_cons,
    List.map_append, List.map_nil, List.append_assoc, List.nil_append, value?, hskip, hread, Option.map_some,
    Value.ofSpelling]

/-- No value begins with a blank or with the end of a list. -/
theorem exists_chars_eq_cons {v : Value} (hv : Spellable v) :
    ∃ c cs, v.chars = c :: cs ∧ isSpace (some c) = false ∧ c ≠ ']' := by
  cases hv with
  | null => exact ⟨'n', _, rfl, by decide, by decide⟩
  | bool b =>
    cases b with
    | true => exact ⟨'t', _, rfl, by decide, by decide⟩
    | false => exact ⟨'f', _, rfl, by decide, by decide⟩
  | @number n hn =>
    rcases n with ⟨_ | _, whole, fraction, exponent⟩
    · obtain ⟨d, ds, rfl⟩ := List.exists_cons_of_ne_nil hn.whole.1
      have hd : d < 10 := hn.whole.2 d (by simp)
      exact ⟨hexDigit d, _, rfl, isSpace_hexDigit d hd, hexDigit_ne hd (by decide)⟩
    · exact ⟨'-', _, rfl, by decide, by decide⟩
  | text s => exact ⟨'"', _, rfl, by decide, by decide⟩
  | array h => exact ⟨'[', _, rfl, by decide, by decide⟩
  | record h => exact ⟨'\x7b', _, rfl, by decide, by decide⟩

theorem stops_mark {c : Char} (h : c ∈ [',', ']', '\x7d']) (rest : Gapped) : Stops (some c :: rest) := by
  simp only [List.mem_cons, List.not_mem_nil, or_false] at h
  rcases h with rfl | rfl | rfl
  · exact stops_cons rfl (by decide) (by decide) (by decide) rest
  · exact stops_cons rfl (by decide) (by decide) (by decide) rest
  · exact stops_cons rfl (by decide) (by decide) (by decide) rest

theorem items?_itemChars {items : List Value} (hne : items ≠ []) (h : ∀ v ∈ items, ReadsBack v)
    (acc : List Value) (fuel : Nat) (hfuel : (itemChars items).length + 1 < fuel) (rest : Gapped) :
    items? fuel acc ((itemChars items).map some ++ some ']' :: rest) = some (acc.reverse ++ items, rest) := by
  induction items generalizing acc fuel with
  | nil => exact absurd rfl hne
  | cons v items ih =>
    rcases fuel with _ | fuel
    · cases hfuel
    have hv := h v (by simp) fuel
    rcases items with _ | ⟨w, items⟩
    · rw [itemChars] at hfuel ⊢
      have hskip := skip_of_not_space (c := some ']') (by decide) rest
      rw [items?, hv _ (by omega) (stops_mark (by decide) _)]
      simp [hskip]
    · rw [itemChars, List.length_append, List.length_cons] at hfuel
      have hitems := ih (by simp) (fun x hx => h x (by simp [hx])) (v :: acc) fuel (by omega)
      have hskip := skip_of_not_space (c := some ',') (by decide)
        ((itemChars (w :: items)).map some ++ some ']' :: rest)
      rw [itemChars, List.map_append, List.append_assoc, List.map_cons, List.cons_append, items?,
        hv _ (by omega) (stops_mark (by decide) _)]
      simp [hskip, hitems]

theorem stringChars_append (s : String) (after : Gapped) :
    (stringChars s.toList).map some ++ after
      = some '"' :: ((s.toList.flatMap escapeChar).map some ++ some '"' :: after) := by
  simp [stringChars]

/-- A name and its value are read, and the value with the comma behind it. -/
theorem members?_of_comma (k : String) {v : Value} {fuel : Nat} {rest : Gapped}
    (hv : value? fuel (v.chars.map some ++ some ',' :: rest) = some (v, some ',' :: rest))
    (acc : List (Option String × Value)) :
    members? (fuel + 1) acc
        ((stringChars k.toList).map some ++ some ':' :: (v.chars.map some ++ some ',' :: rest))
      = members? fuel ((some k, v) :: acc) rest := by
  rw [stringChars_append, members?]
  simp only [skip_of_not_space (c := some '"') (by decide), skip_of_not_space (c := some ':') (by decide),
    skip_of_not_space (c := some ',') (by decide), string?_text, Except.toOption, hv]

theorem members?_of_end (k : String) {v : Value} {fuel : Nat} {rest : Gapped}
    (hv : value? fuel (v.chars.map some ++ some '\x7d' :: rest) = some (v, some '\x7d' :: rest))
    (acc : List (Option String × Value)) :
    members? (fuel + 1) acc
        ((stringChars k.toList).map some ++ some ':' :: (v.chars.map some ++ some '\x7d' :: rest))
      = some (((some k, v) :: acc).reverse, rest) := by
  rw [stringChars_append, members?]
  simp only [skip_of_not_space (c := some '"') (by decide), skip_of_not_space (c := some ':') (by decide),
    skip_of_not_space (c := some '\x7d') (by decide), string?_text, Except.toOption, hv]

theorem members?_memberChars {members : List (String × Value)} (hne : members ≠ [])
    (h : ∀ m ∈ members, ReadsBack m.2) (acc : List (Option String × Value)) (fuel : Nat)
    (hfuel : (memberChars (named members)).length + 1 < fuel) (rest : Gapped) :
    members? fuel acc ((memberChars (named members)).map some ++ some '\x7d' :: rest)
      = some (acc.reverse ++ named members, rest) := by
  induction members generalizing acc fuel with
  | nil => exact absurd rfl hne
  | cons m members ih =>
    obtain ⟨k, v⟩ := m
    rcases fuel with _ | fuel
    · cases hfuel
    have hv : ReadsBack v := h (k, v) (by simp)
    rcases members with _ | ⟨m, members⟩
    · have hchars : memberChars (named [(k, v)]) = stringChars k.toList ++ ':' :: v.chars := rfl
      rw [hchars, List.length_append, List.length_cons] at hfuel
      have hend := members?_of_end k (hv fuel _ (by omega) (stops_mark (by decide) rest)) acc
      rw [hchars]
      simpa [named] using hend
    · have hchars : memberChars (named ((k, v) :: m :: members))
          = stringChars k.toList ++ ':' :: v.chars ++ ',' :: memberChars (named (m :: members)) := rfl
      rw [hchars, List.length_append, List.length_append, List.length_cons, List.length_cons] at hfuel
      have hmembers := ih (by simp) (fun x hx => h x (by simp [hx])) ((some k, v) :: acc) fuel (by omega)
      have hcomma := members?_of_comma k (hv fuel _ (by omega) (stops_mark (by decide)
        ((memberChars (named (m :: members))).map some ++ some '\x7d' :: rest))) acc
      rw [hmembers] at hcomma
      rw [hchars]
      simpa [named] using hcomma

theorem readsBack_array {items : List Value} (hitems : ∀ v ∈ items, Spellable v)
    (h : ∀ v ∈ items, ReadsBack v) : ReadsBack (.array items) := by
  intro fuel rest hfuel _
  rcases fuel with _ | fuel
  · cases hfuel
  have hopen (after : Gapped) := skip_of_not_space (c := some '[') (by decide) after
  rcases items with _ | ⟨v, items⟩
  · have hclose := skip_of_not_space (c := some ']') (by decide) rest
    simp [Value.chars, itemChars, value?, hopen, hclose]
  · have hchars : (Value.array (v :: items)).chars = '[' :: itemChars (v :: items) ++ [']'] := rfl
    rw [hchars, List.length_append, List.length_cons] at hfuel
    have hread := items?_itemChars (List.cons_ne_nil v items) h [] fuel (by simpa using hfuel) rest
    obtain ⟨c, cs, hc, hspace, hend⟩ : ∃ c cs, itemChars (v :: items) = c :: cs ∧ isSpace (some c) = false ∧
        c ≠ ']' := by
      obtain ⟨c, cs, hv, hspace, hend⟩ := exists_chars_eq_cons (hitems v (by simp))
      rcases items with _ | ⟨w, items⟩
      · exact ⟨c, cs, hv, hspace, hend⟩
      · exact ⟨c, cs ++ ',' :: itemChars (w :: items), by rw [itemChars, hv, List.cons_append], hspace, hend⟩
    rw [hchars, List.map_append, List.map_cons, List.append_assoc, List.cons_append, value?, hopen]
    simp only [List.map_cons, List.map_nil, List.cons_append, List.nil_append]
    rw [hc] at hread ⊢
    rw [List.map_cons, List.cons_append, skip_of_not_space hspace]
    rw [List.map_cons, List.cons_append] at hread
    split
    · next h =>
      cases h
      exact absurd rfl hend
    · rw [hread]
      rfl

theorem readsBack_record {members : List (String × Value)} (h : ∀ m ∈ members, ReadsBack m.2) :
    ReadsBack (.record members) := by
  intro fuel rest hfuel _
  rcases fuel with _ | fuel
  · cases hfuel
  have hopen (after : Gapped) := skip_of_not_space (c := some '\x7b') (by decide) after
  rcases members with _ | ⟨m, members⟩
  · have hclose := skip_of_not_space (c := some '\x7d') (by decide) rest
    simp [Value.record, Value.chars, memberChars, value?, hopen, hclose]
  · have hchars : (Value.record (m :: members)).chars
        = '\x7b' :: memberChars (named (m :: members)) ++ ['\x7d'] := rfl
    rw [hchars, List.length_append, List.length_cons] at hfuel
    have hread := members?_memberChars (List.cons_ne_nil m members) h [] fuel (by simpa using hfuel) rest
    obtain ⟨cs, hcs⟩ : ∃ cs, memberChars (named (m :: members)) = '"' :: cs := by
      rcases members with _ | ⟨n, members⟩ <;> exact ⟨_, rfl⟩
    rw [hchars, List.map_append, List.map_cons, List.append_assoc, List.cons_append, value?, hopen]
    simp only [List.map_cons, List.map_nil, List.cons_append, List.nil_append]
    rw [hcs] at hread ⊢
    rw [List.map_cons, List.cons_append, skip_of_not_space (by decide)]
    rw [List.map_cons, List.cons_append] at hread
    exact congrArg (Option.map fun x => (Value.object x.1, x.2)) hread

/-- The three words. -/
theorem readsBack_null : ReadsBack .null := by
  intro fuel rest hfuel _
  rcases fuel with _ | fuel
  · cases hfuel
  · simp [Value.chars, value?, skip, isSpace, word?]

theorem readsBack_bool (b : Bool) : ReadsBack (.bool b) := by
  intro fuel rest hfuel _
  rcases fuel with _ | fuel
  · cases hfuel
  · cases b <;> simp [Value.chars, value?, skip, isSpace, word?]

theorem readsBack_of_spellable {v : Value} (hv : Spellable v) : ReadsBack v := by
  induction hv with
  | null => exact readsBack_null
  | bool b => exact readsBack_bool b
  | number h => exact readsBack_number h
  | text s => exact readsBack_text s
  | array h ih => exact readsBack_array h ih
  | record h ih => exact readsBack_record ih

end Reader

/-! ### Whole texts -/

theorem parseGapped_chars {v : Value} (hv : Spellable v) : parseGapped (v.chars.map some) = some v := by
  have hread := Reader.readsBack_of_spellable hv (v.chars.length + 1) [] (Nat.lt_succ_self _) Reader.stops_nil
  rw [List.append_nil] at hread
  rw [parseGapped, List.length_map, hread]
  rfl

/-- **A written value is read as it was.** -/
theorem parse_render {v : Value} (hv : Spellable v) : parse v.render = some v := by
  rw [parse, Value.render, String.toList_ofList]
  exact parseGapped_chars hv

theorem parseBytes_encode {v : Value} (hv : Spellable v) : parseBytes (Utf8.encode v.chars) = some v := by
  rw [parseBytes, Utf8.decode_encode]
  exact parseGapped_chars hv

end Turnstile.Json
