import Turnstile.Proofs.Json.RoundTrip
import Turnstile.Proofs.Text.Decimal
/-!
# Integers and texts as values

An integer is written by its decimal digits, which the grammar of numbers allows (`spellable_ofInt`) and which
give it back (`int?_ofInt`). Signed integers of 64 bits, texts and lists of texts are read from the values that
they are written as.
-/

namespace Turnstile.Json

open Text

/-! ### Decimal digits -/

/-- The digits of a number, most significant first. -/
def digitsOf (n : Nat) : List Nat := (natDigits n).filterMap digit?

theorem digitsOf_of_lt {n : Nat} (h : n < 10) : digitsOf n = [n] := by
  rw [digitsOf, natDigits, if_pos h]
  simp [digit?_ofNat n h]

theorem digitsOf_of_ge {n : Nat} (h : ¬ n < 10) : digitsOf n = digitsOf (n / 10) ++ [n % 10] := by
  rw [digitsOf, natDigits, if_neg h, List.filterMap_append]
  simp [digitsOf, digit?_ofNat (n % 10) (Nat.mod_lt n (by decide))]

theorem areDigits_digitsOf (n : Nat) : AreDigits (digitsOf n) := by
  induction n using Nat.strongRecOn with
  | _ n ih =>
    by_cases h : n < 10
    · rw [digitsOf_of_lt h]
      exact ⟨by simp, by simpa using h⟩
    · obtain ⟨-, hdigits⟩ := ih (n / 10) (by omega)
      rw [digitsOf_of_ge h]
      refine ⟨by simp, fun d hd => ?_⟩
      rcases List.mem_append.1 hd with hd | hd
      · exact hdigits d hd
      · rw [List.mem_singleton.1 hd]
        exact Nat.mod_lt n (by decide)

theorem head?_digitsOf {n : Nat} (h : 0 < n) : (digitsOf n).head? ≠ some 0 := by
  induction n using Nat.strongRecOn with
  | _ n ih =>
    by_cases hn : n < 10
    · rw [digitsOf_of_lt hn]
      simpa using Nat.ne_of_gt h
    · have hhead := ih (n / 10) (by omega) (by omega)
      obtain ⟨d, ds, hds⟩ := List.exists_cons_of_ne_nil (areDigits_digitsOf (n / 10)).1
      rw [hds] at hhead
      rw [digitsOf_of_ge hn, hds]
      exact hhead

theorem ofDigits_digitsOf (n : Nat) : Number.ofDigits (digitsOf n) = n := by
  induction n using Nat.strongRecOn with
  | _ n ih =>
    by_cases h : n < 10
    · rw [digitsOf_of_lt h]
      simp [Number.ofDigits]
    · have hfront := ih (n / 10) (by omega)
      rw [Number.ofDigits] at hfront
      rw [digitsOf_of_ge h, Number.ofDigits, List.foldl_append, hfront]
      simp only [List.foldl_cons, List.foldl_nil]
      omega

/-! ### Integers -/

theorem whole_ofInt (v : Int) : (Number.ofInt v).whole = digitsOf v.natAbs := rfl

theorem spellable_ofInt (v : Int) : (Number.ofInt v).Spellable where
  whole := areDigits_digitsOf v.natAbs
  leading rest h := by
    rw [whole_ofInt] at h
    by_cases hv : v.natAbs < 10
    · rw [digitsOf_of_lt hv] at h
      exact (List.cons.inj h).2.symm
    · have hhead := head?_digitsOf (n := v.natAbs) (by omega)
      rw [h] at hhead
      exact absurd rfl hhead
  fraction ds h := by cases h
  exponent e h := by cases h

theorem int?_ofInt {v : Int} (h : IsInt64 v) : (Number.ofInt v).int? = some v := by
  obtain ⟨hlow, hhigh⟩ := h
  have hnegative : (Number.ofInt v).negative = decide (v < 0) := rfl
  have hfraction : (Number.ofInt v).fraction = none := rfl
  have hexponent : (Number.ofInt v).exponent = none := rfl
  have hvalue : Number.ofDigits (Number.ofInt v).whole = v.natAbs := ofDigits_digitsOf v.natAbs
  unfold maxInt64 at hlow hhigh
  simp only [Number.int?, hfraction, hexponent, hnegative, hvalue, decide_eq_true_eq, maxInt64, maxNat64]
  split
  · rw [if_neg (by omega)]
    congr 1
    omega
  · rw [if_pos (by omega)]
    congr 1
    omega

theorem int64?_int {v : Int} (h : IsInt64 v) : (Value.int v).int64? = some v := by
  show (Number.ofInt v).int?.filter _ = _
  rw [int?_ofInt h]
  simp [Option.filter_some, h.2]

theorem spellable_int (v : Int) : Spellable (.int v) := .number (spellable_ofInt v)

/-! ### Texts -/

theorem text?_text (s : String) : (Value.text s).text? = some s := rfl

theorem texts?_texts (l : List String) : (Value.texts l).texts? = some l := by
  show (l.map Value.text).mapM Value.text? = _
  induction l with
  | nil => rfl
  | cons s l ih => simp [text?_text, ih]

theorem spellable_texts (l : List String) : Spellable (.texts l) := by
  refine .array fun v hv => ?_
  obtain ⟨s, -, rfl⟩ := List.mem_map.1 hv
  exact .text s

end Turnstile.Json
