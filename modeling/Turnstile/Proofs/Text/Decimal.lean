import Turnstile.Text.Blank
import Turnstile.Text.Decimal
/-!
# Decimal texts are unambiguous

The digits of a number give it back (`valueOf_natDigits`), so different integers have different texts, and
no text of an integer holds anything but digits and a sign. The readers find the number again: an integer of 64
bits in its text (`readInt64_intText`), a natural number in its digits filled with zeros
(`digitsValue?_paddedDigits`).
-/

namespace Turnstile.Text

/-! ### Natural numbers -/

def valueOf (digits : List Char) : Nat := digits.foldl (fun v c => 10 * v + (c.toNat - 48)) 0

theorem toNat_digit {d : Nat} (hd : d < 10) : (Char.ofNat (48 + d)).toNat = 48 + d := by
  revert d
  decide

theorem valueOf_natDigits (n : Nat) : valueOf (natDigits n) = n := by
  fun_induction natDigits n with
  | case1 n hn =>
    simp only [valueOf, List.foldl_cons, List.foldl_nil, toNat_digit hn]
    omega
  | case2 n hn ih =>
    rw [valueOf] at ih
    simp only [valueOf, List.foldl_append, ih, List.foldl_cons, List.foldl_nil,
      toNat_digit (Nat.mod_lt n (by decide : 0 < 10))]
    omega

theorem natDigits_injective {m n : Nat} (h : natDigits m = natDigits n) : m = n := by
  rw [← valueOf_natDigits m, h, valueOf_natDigits]

theorem mem_natDigits {n : Nat} {c : Char} (h : c ∈ natDigits n) : 48 ≤ c.toNat ∧ c.toNat ≤ 57 := by
  have hdigit {d : Nat} (hd : d < 10) (hc : c = Char.ofNat (48 + d)) : 48 ≤ c.toNat ∧ c.toNat ≤ 57 := by
    rw [hc, toNat_digit hd]
    omega
  fun_induction natDigits n with
  | case1 n hn => exact hdigit hn (List.mem_singleton.1 h)
  | case2 n hn ih =>
    rcases List.mem_append.1 h with h | h
    · exact ih h
    · exact hdigit (Nat.mod_lt n (by decide)) (List.mem_singleton.1 h)

/-! ### Integers -/

theorem toList_intText (n : Int) :
    (intText n).toList = if n < 0 then '-' :: natDigits n.natAbs else natDigits n.natAbs := by
  unfold intText
  split <;> rw [String.toList_ofList]

/-- The text of an integer holds digits and at most a minus sign. -/
theorem mem_intText {n : Int} {c : Char} (h : c ∈ (intText n).toList) :
    c = '-' ∨ 48 ≤ c.toNat ∧ c.toNat ≤ 57 := by
  rw [toList_intText] at h
  split at h
  · rcases List.mem_cons.1 h with h | h
    · exact Or.inl h
    · exact Or.inr (mem_natDigits h)
  · exact Or.inr (mem_natDigits h)

theorem colon_notMem_intText (n : Int) : ':' ∉ (intText n).toList := by
  intro h
  exact absurd (mem_intText h) (by decide)

theorem intText_injective {m n : Int} (h : intText m = intText n) : m = n := by
  have hsign (k : Nat) : '-' ∉ natDigits k := by
    intro hmem
    exact absurd (mem_natDigits hmem) (by decide)
  have hlist : (intText m).toList = (intText n).toList := by rw [h]
  rw [toList_intText, toList_intText] at hlist
  by_cases hm : m < 0 <;> by_cases hn : n < 0
  · rw [if_pos hm, if_pos hn, List.cons.injEq] at hlist
    have := natDigits_injective hlist.2
    omega
  · rw [if_pos hm, if_neg hn] at hlist
    exact absurd (hlist ▸ List.mem_cons_self) (hsign n.natAbs)
  · rw [if_neg hm, if_pos hn] at hlist
    exact absurd (hlist ▸ List.mem_cons_self) (hsign m.natAbs)
  · rw [if_neg hm, if_neg hn] at hlist
    have := natDigits_injective hlist
    omega

/-! ### Reading digits -/

theorem digit?_of_bounds {c : Char} (h : 48 ≤ c.toNat ∧ c.toNat ≤ 57) : digit? c = some (c.toNat - 48) := by
  have hbounds : '0' ≤ c ∧ c ≤ '9' := h
  rw [digit?, if_pos hbounds]

theorem digit?_ofNat : ∀ d < 10, digit? (Char.ofNat (48 + d)) = some d := by
  decide

theorem natDigits_ne_nil (n : Nat) : natDigits n ≠ [] := by
  unfold natDigits
  split <;> simp

/-- The value of digits that follow others. -/
def valueFrom (v : Nat) (digits : List Char) : Nat :=
  digits.foldl (fun v c => 10 * v + (c.toNat - 48)) v

theorem le_valueFrom (v : Nat) (digits : List Char) : v ≤ valueFrom v digits := by
  induction digits generalizing v with
  | nil => exact Nat.le_refl v
  | cons c digits ih =>
    have hrest := ih (10 * v + (c.toNat - 48))
    simp only [valueFrom, List.foldl_cons] at hrest ⊢
    omega

theorem readDigits_eq {bound v : Nat} {fault : IntFault} {digits : List Char}
    (hdigits : ∀ c ∈ digits, 48 ≤ c.toNat ∧ c.toNat ≤ 57) (hbound : valueFrom v digits ≤ bound) :
    readDigits bound fault v digits = .ok (valueFrom v digits) := by
  induction digits generalizing v with
  | nil => rfl
  | cons c digits ih =>
    have hstep : 10 * v + (c.toNat - 48) ≤ bound :=
      Nat.le_trans (le_valueFrom _ digits) hbound
    rw [readDigits, digit?_of_bounds (hdigits c List.mem_cons_self)]
    simp only [hstep, if_true]
    exact ih (fun x hx => hdigits x (List.mem_cons_of_mem c hx)) hbound

theorem readDigits_natDigits {bound n : Nat} (fault : IntFault) (h : n ≤ bound) :
    readDigits bound fault 0 (natDigits n) = .ok n := by
  have hvalue : valueFrom 0 (natDigits n) = n := valueOf_natDigits n
  rw [readDigits_eq (fun c hc => mem_natDigits hc) (by rwa [hvalue]), hvalue]

theorem readInt_of_no_sign {low high : Nat} {c : Char} {rest : List Char} (hplus : c ≠ '+') (hminus : c ≠ '-') :
    readInt low high (c :: rest) = Int.ofNat <$> readDigits high .tooLarge 0 (c :: rest) := by
  unfold readInt
  split <;> simp_all

/-- The bounds of signed integers of 64 bits. -/
def IsInt64 (v : Int) : Prop := -(maxInt64 + 1 : Int) ≤ v ∧ v ≤ maxInt64

instance (v : Int) : Decidable (IsInt64 v) := inferInstanceAs (Decidable (_ ∧ _))

/-- **Integers in decimal**: an integer of 64 bits is read from its text. -/
theorem readInt64_intText {n : Int} (h : IsInt64 n) : readInt64 (intText n) = .ok n := by
  obtain ⟨hlow, hhigh⟩ := h
  have hmax : maxInt64 = 9223372036854775807 := rfl
  obtain ⟨c, rest, hdigits⟩ := List.exists_cons_of_ne_nil (natDigits_ne_nil n.natAbs)
  have hc : 48 ≤ c.toNat ∧ c.toNat ≤ 57 := mem_natDigits (n := n.natAbs) (by simp [hdigits])
  have hplus : c ≠ '+' := by
    rintro rfl
    exact absurd hc (by decide)
  have hminus : c ≠ '-' := by
    rintro rfl
    exact absurd hc (by decide)
  rw [readInt64, toList_intText]
  split
  · have hread : readDigits (maxInt64 + 1) .tooSmall 0 (natDigits n.natAbs) = .ok n.natAbs :=
      readDigits_natDigits _ (by omega)
    rw [hdigits] at hread ⊢
    simp only [readInt, hread]
    show Except.ok (-Int.ofNat n.natAbs) = _
    congr 1
    simp only [Int.ofNat_eq_natCast]
    omega
  · have hread : readDigits maxInt64 .tooLarge 0 (natDigits n.natAbs) = .ok n.natAbs :=
      readDigits_natDigits _ (by omega)
    rw [hdigits] at hread ⊢
    rw [readInt_of_no_sign hplus hminus, hread]
    show Except.ok (Int.ofNat n.natAbs) = _
    congr 1
    simp only [Int.ofNat_eq_natCast]
    omega

theorem le_of_readDigits {bound v m : Nat} {fault : IntFault} {digits : List Char} (hv : v ≤ bound)
    (h : readDigits bound fault v digits = .ok m) : m ≤ bound := by
  induction digits generalizing v with
  | nil =>
    cases h
    exact hv
  | cons c digits ih =>
    rw [readDigits] at h
    split at h
    · cases h
    · split at h
      · next hstep => exact ih hstep h
      · cases h

theorem exists_of_map_readDigits {bound : Nat} {fault : IntFault} {digits : List Char} {f : Nat → Int} {n : Int}
    (h : f <$> readDigits bound fault 0 digits = .ok n) : ∃ m ≤ bound, n = f m := by
  cases hread : readDigits bound fault 0 digits with
  | error e =>
    rw [hread] at h
    cases h
  | ok m =>
    rw [hread] at h
    cases h
    exact ⟨m, le_of_readDigits (Nat.zero_le _) hread, rfl⟩

/-- What is read as an integer of 64 bits is one. -/
theorem isInt64_of_readInt64 {s : String} {n : Int} (h : readInt64 s = .ok n) : IsInt64 n := by
  have hmax : maxInt64 = 9223372036854775807 := rfl
  unfold readInt64 readInt at h
  split at h
  · cases h
  · cases h
  · cases h
  all_goals
    obtain ⟨m, hm, rfl⟩ := exists_of_map_readDigits h
    simp only [IsInt64, Int.ofNat_eq_natCast]
    omega

/-! ### No blanks -/

theorem isBlank_of_digit {c : Char} (h : 48 ≤ c.toNat ∧ c.toNat ≤ 57) : isBlank c = false := by
  simp [isBlank]
  omega

theorem trim_intText (n : Int) : trim (intText n) = intText n := by
  have hblank : ∀ c ∈ (intText n).toList, isBlank c = false := by
    intro c hc
    rcases mem_intText hc with rfl | h
    · rfl
    · exact isBlank_of_digit h
  rw [trim, trimChars_of_ends (fun c hc => hblank c (List.mem_of_mem_head? hc))
    (fun c hc => hblank c (List.mem_of_mem_getLast? hc)), String.ofList_toList]

/-! ### Digits filled with zeros -/

theorem length_natDigits_le {w n : Nat} (hw : 0 < w) (h : n < Nat.pow 10 w) : (natDigits n).length ≤ w := by
  induction w generalizing n with
  | zero => omega
  | succ w ih =>
    unfold natDigits
    split
    · simp
    · next hn =>
      have hw : 0 < w := by
        rcases Nat.eq_zero_or_pos w with rfl | hw
        · have hten : Nat.pow 10 (0 + 1) = 10 := rfl
          omega
        · exact hw
      have hquotient : n / 10 < Nat.pow 10 w := by
        have hsucc : Nat.pow 10 (w + 1) = Nat.pow 10 w * 10 := rfl
        omega
      have hlength := ih hw hquotient
      simp only [List.length_append, List.length_singleton]
      omega

theorem length_paddedDigits {w n : Nat} (hw : 0 < w) (h : n < Nat.pow 10 w) : (paddedDigits w n).length = w := by
  have hlength := length_natDigits_le hw h
  simp only [paddedDigits, List.length_append, List.length_replicate]
  omega

theorem mem_paddedDigits {w n : Nat} {c : Char} (h : c ∈ paddedDigits w n) : 48 ≤ c.toNat ∧ c.toNat ≤ 57 := by
  rcases List.mem_append.1 h with h | h
  · rw [List.eq_of_mem_replicate h]
    decide
  · exact mem_natDigits h

theorem valueOf_paddedDigits (w n : Nat) : valueOf (paddedDigits w n) = n := by
  have hzeros (k : Nat) : valueOf (List.replicate k '0' ++ natDigits n) = n := by
    induction k with
    | zero => exact valueOf_natDigits n
    | succ k ih => exact ih
  exact hzeros _

theorem foldl_digit? {digits : List Char} (hdigits : ∀ c ∈ digits, 48 ≤ c.toNat ∧ c.toNat ≤ 57) (v : Nat) :
    digits.foldl (fun acc c => do return 10 * (← acc) + (← digit? c)) (some v) = some (valueFrom v digits) := by
  induction digits generalizing v with
  | nil => rfl
  | cons c digits ih =>
    rw [List.foldl_cons, digit?_of_bounds (hdigits c List.mem_cons_self)]
    exact ih (fun x hx => hdigits x (List.mem_cons_of_mem c hx)) _

theorem digitsValue?_eq {digits : List Char} (hne : digits ≠ [])
    (hdigits : ∀ c ∈ digits, 48 ≤ c.toNat ∧ c.toNat ≤ 57) : digitsValue? digits = some (valueOf digits) := by
  cases digits with
  | nil => exact absurd rfl hne
  | cons c rest => exact foldl_digit? hdigits 0

theorem digitsValue?_of_first {c : Char} (hc : digit? c = none) (rest : List Char) :
    digitsValue? (c :: rest) = none := by
  have hnone : rest.foldl (fun acc c => do return 10 * (← acc) + (← digit? c)) none = none := by
    induction rest with
    | nil => rfl
    | cons _ rest ih => exact ih
  rw [digitsValue?, List.foldl_cons, hc]
  · exact hnone
  · exact List.cons_ne_nil c rest

theorem paddedDigits_ne_nil (w n : Nat) : paddedDigits w n ≠ [] := by
  simp [paddedDigits, natDigits_ne_nil]

theorem digitsValue?_paddedDigits (w n : Nat) : digitsValue? (paddedDigits w n) = some n := by
  rw [digitsValue?_eq (paddedDigits_ne_nil w n) fun c hc => mem_paddedDigits hc, valueOf_paddedDigits]

end Turnstile.Text
