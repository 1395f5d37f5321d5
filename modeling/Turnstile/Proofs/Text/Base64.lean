import Turnstile.Text.Base64
/-!
# Strict reading of Base64

Reading and spelling are inverse to each other: the spelling of bytes is read as these bytes, and a text
that is read at all is the spelling of what is read. So no bytes have two spellings.
-/

namespace Turnstile.Text.Base64

variable {a : Alphabet}

/-! ### Characters -/

theorem value?_char (a : Alphabet) : ∀ n < 64, a.value? (a.char n) = some n := by
  cases a <;> decide

theorem char_of_value? {c : Char} {n : Nat} (h : a.value? c = some n) : n < 64 ∧ a.char n = c := by
  unfold Alphabet.value? at h
  split at h
  · next hc =>
    have hlow : 65 ≤ c.toNat := hc.1
    have hhigh : c.toNat ≤ 90 := hc.2
    cases h
    refine ⟨by omega, ?_⟩
    rw [Alphabet.char.eq_def, if_pos (by omega), show 65 + (c.toNat - 65) = c.toNat by omega, Char.ofNat_toNat]
  split at h
  · next hc =>
    have hlow : 97 ≤ c.toNat := hc.1
    have hhigh : c.toNat ≤ 122 := hc.2
    cases h
    refine ⟨by omega, ?_⟩
    rw [Alphabet.char.eq_def, if_neg (by omega), if_pos (by omega), show 71 + (c.toNat - 71) = c.toNat by omega,
      Char.ofNat_toNat]
  split at h
  · next hc =>
    have hlow : 48 ≤ c.toNat := hc.1
    have hhigh : c.toNat ≤ 57 := hc.2
    cases h
    refine ⟨by omega, ?_⟩
    rw [Alphabet.char.eq_def, if_neg (by omega), if_neg (by omega), if_pos (by omega),
      show c.toNat + 4 - 4 = c.toNat by omega, Char.ofNat_toNat]
  · split at h
    all_goals cases h
    all_goals exact ⟨by decide, rfl⟩

/-! ### Groups of bytes -/

theorem ofNat_eq {x : UInt8} {n : Nat} (h : n = x.toNat) : UInt8.ofNat n = x := by
  rw [h, UInt8.ofNat_toNat]

theorem toNat_ofNat {n : Nat} (h : n < 256) : (UInt8.ofNat n).toNat = n :=
  UInt8.toNat_ofNat_of_lt' h

/-- A spelling is made of the characters of its alphabet. -/
theorem exists_char_of_mem_encode {a : Alphabet} {bytes : List UInt8} {c : Char} (h : c ∈ encode a bytes) :
    ∃ n < 64, c = a.char n := by
  fun_induction encode a bytes with
  | case1 => cases h
  | case2 x =>
    have hx := x.toNat_lt
    simp only [List.mem_cons, List.not_mem_nil, or_false] at h
    rcases h with rfl | rfl <;> exact ⟨_, by omega, rfl⟩
  | case3 x y =>
    have hx := x.toNat_lt
    have hy := y.toNat_lt
    simp only [List.mem_cons, List.not_mem_nil, or_false] at h
    rcases h with rfl | rfl | rfl <;> exact ⟨_, by omega, rfl⟩
  | case4 x y z rest ih =>
    have hx := x.toNat_lt
    have hy := y.toNat_lt
    have hz := z.toNat_lt
    simp only [List.mem_cons] at h
    rcases h with rfl | rfl | rfl | rfl | h
    · exact ⟨_, by omega, rfl⟩
    · exact ⟨_, by omega, rfl⟩
    · exact ⟨_, by omega, rfl⟩
    · exact ⟨_, by omega, rfl⟩
    · exact ih h

theorem decode?_encode (a : Alphabet) (bytes : List UInt8) : decode? a (encode a bytes) = some bytes := by
  fun_induction encode a bytes with
  | case1 => rfl
  | case2 x =>
    have hx := x.toNat_lt
    have hp := value?_char a (x.toNat / 4) (by omega)
    have hq := value?_char a (x.toNat % 4 * 16) (by omega)
    simp only [decode?, hp, hq, Option.bind_eq_bind, Option.bind_some]
    rw [if_pos (by omega), ofNat_eq (x := x) (by omega)]
  | case3 x y =>
    have hx := x.toNat_lt
    have hy := y.toNat_lt
    have hp := value?_char a (x.toNat / 4) (by omega)
    have hq := value?_char a (x.toNat % 4 * 16 + y.toNat / 16) (by omega)
    have hr := value?_char a (y.toNat % 16 * 4) (by omega)
    simp only [decode?, hp, hq, hr, Option.bind_eq_bind, Option.bind_some]
    rw [if_pos (by omega), ofNat_eq (x := x) (by omega), ofNat_eq (x := y) (by omega)]
  | case4 x y z rest ih =>
    have hx := x.toNat_lt
    have hy := y.toNat_lt
    have hz := z.toNat_lt
    have hp := value?_char a (x.toNat / 4) (by omega)
    have hq := value?_char a (x.toNat % 4 * 16 + y.toNat / 16) (by omega)
    have hr := value?_char a (y.toNat % 16 * 4 + z.toNat / 64) (by omega)
    have hs := value?_char a (z.toNat % 64) (by omega)
    simp only [decode?, ih, hp, hq, hr, hs, Option.bind_eq_bind, Option.bind_some]
    rw [ofNat_eq (x := x) (by omega), ofNat_eq (x := y) (by omega), ofNat_eq (x := z) (by omega)]

theorem encode_of_decode? {s : List Char} {bytes : List UInt8} (h : decode? a s = some bytes) :
    encode a bytes = s := by
  fun_induction decode? a s generalizing bytes with
  | case1 =>
    cases h
    rfl
  | case2 => cases h
  | case3 c d =>
    simp only [Option.bind_eq_bind, Option.bind_eq_some_iff] at h
    obtain ⟨p, hp, q, hq, h⟩ := h
    obtain ⟨hp64, rfl⟩ := char_of_value? hp
    obtain ⟨hq64, rfl⟩ := char_of_value? hq
    split at h
    · cases h
      simp (disch := omega) only [encode, toNat_ofNat]
      rw [show (p * 4 + q / 16) / 4 = p by omega, show (p * 4 + q / 16) % 4 * 16 = q by omega]
    · cases h
  | case4 c d e =>
    simp only [Option.bind_eq_bind, Option.bind_eq_some_iff] at h
    obtain ⟨p, hp, q, hq, r, hr, h⟩ := h
    obtain ⟨hp64, rfl⟩ := char_of_value? hp
    obtain ⟨hq64, rfl⟩ := char_of_value? hq
    obtain ⟨hr64, rfl⟩ := char_of_value? hr
    split at h
    · cases h
      simp (disch := omega) only [encode, toNat_ofNat]
      rw [show (p * 4 + q / 16) / 4 = p by omega,
        show (p * 4 + q / 16) % 4 * 16 + (q % 16 * 16 + r / 4) / 16 = q by omega,
        show (q % 16 * 16 + r / 4) % 16 * 4 = r by omega]
    · cases h
  | case5 c d e f rest ih =>
    simp only [Option.bind_eq_bind, Option.bind_eq_some_iff] at h
    obtain ⟨p, hp, q, hq, r, hr, v, hv, tail, htail, h⟩ := h
    obtain ⟨hp64, rfl⟩ := char_of_value? hp
    obtain ⟨hq64, rfl⟩ := char_of_value? hq
    obtain ⟨hr64, rfl⟩ := char_of_value? hr
    obtain ⟨hv64, rfl⟩ := char_of_value? hv
    cases h
    simp (disch := omega) only [encode, toNat_ofNat, ih htail]
    rw [show (p * 4 + q / 16) / 4 = p by omega,
      show (p * 4 + q / 16) % 4 * 16 + (q % 16 * 16 + r / 4) / 16 = q by omega,
      show (q % 16 * 16 + r / 4) % 16 * 4 + (r % 4 * 64 + v) / 64 = r by omega,
      show (r % 4 * 64 + v) % 64 = v by omega]

theorem decode?_eq_some_iff {s : List Char} {bytes : List UInt8} :
    decode? a s = some bytes ↔ s = encode a bytes := by
  constructor
  · intro h
    exact (encode_of_decode? h).symm
  · rintro rfl
    exact decode?_encode a bytes

end Turnstile.Text.Base64
