import Turnstile.Text.Utf8
/-!
# Decoding what was encoded

The bytes of a text are read as its characters, without a gap (`decode_encode`). Reading goes character by
character, so it is enough that the bytes of one character are read as this character whatever follows.
-/

namespace Turnstile.Text.Utf8

/-! ### Bytes given by numbers -/

theorem ofNat_lt_iff {n : Nat} {b : UInt8} (h : n < 256) : UInt8.ofNat n < b ↔ n < b.toNat := by
  rw [UInt8.lt_iff_toNat_lt, UInt8.toNat_ofNat_of_lt' h]

theorem between_ofNat_iff {n : Nat} {low high : UInt8} (h : n < 256) :
    (low ≤ UInt8.ofNat n && UInt8.ofNat n ≤ high) = true ↔ low.toNat ≤ n ∧ n ≤ high.toNat := by
  rw [Bool.and_eq_true, decide_eq_true_eq, decide_eq_true_eq, UInt8.le_iff_toNat_le, UInt8.le_iff_toNat_le,
    UInt8.toNat_ofNat_of_lt' h]

theorem ofNat_beq_iff {n : Nat} {b : UInt8} (h : n < 256) : (UInt8.ofNat n == b) = true ↔ n = b.toNat := by
  rw [beq_iff_eq, ← UInt8.toNat_inj, UInt8.toNat_ofNat_of_lt' h]

theorem isTail_ofNat {n : Nat} (h : n < 64) : isTail (UInt8.ofNat (n + 128)) = true := by
  rw [isTail, between_ofNat_iff (by omega)]
  exact ⟨Nat.le_add_left 128 n, show n + 128 ≤ 191 by omega⟩

/-- The second byte has its own bounds behind two of the first bytes. -/
theorem second_ofNat {f m : Nat} (e e' low high : UInt8) (hf : f < 256) (hm : m < 64)
    (hlow : f = e.toNat → low.toNat ≤ m + 128) (hhigh : f = e'.toNat → m + 128 ≤ high.toNat) :
    ((if UInt8.ofNat f == e then low else 0x80) ≤ UInt8.ofNat (m + 128)
      && UInt8.ofNat (m + 128) ≤ (if UInt8.ofNat f == e' then high else 0xBF)) = true := by
  rw [between_ofNat_iff (by omega)]
  constructor
  · split
    · next h => exact hlow ((ofNat_beq_iff hf).1 h)
    · exact Nat.le_add_left 128 m
  · split
    · next h => exact hhigh ((ofNat_beq_iff hf).1 h)
    · exact show m + 128 ≤ 191 by omega

theorem not_ascii_ofNat {n : Nat} (h : n < 256) (hn : 128 ≤ n) : ¬ UInt8.ofNat n < 0x80 := by
  rw [ofNat_lt_iff h]
  exact Nat.not_lt.2 hn

/-! ### One character -/

section Character

variable {n m k l : Nat} (rest : List UInt8)

theorem next?_one (h : n < 128) : next? (UInt8.ofNat n :: rest) = some (Char.ofNat n, rest) := by
  unfold next?
  dsimp only
  rw [if_pos ((ofNat_lt_iff (by omega)).2 h), UInt8.toNat_ofNat_of_lt' (show n < 256 by omega)]

theorem next?_two (hn : 2 ≤ n) (hn' : n < 32) (hm : m < 64) :
    next? (UInt8.ofNat (n + 192) :: UInt8.ofNat (m + 128) :: rest) = some (Char.ofNat (n * 64 + m), rest) := by
  have hfirst : (0xC2 ≤ UInt8.ofNat (n + 192) && UInt8.ofNat (n + 192) ≤ 0xDF) = true :=
    (between_ofNat_iff (by omega)).2 ⟨show 194 ≤ n + 192 by omega, show n + 192 ≤ 223 by omega⟩
  unfold next?
  dsimp only
  rw [if_neg (not_ascii_ofNat (by omega) (by omega)), if_pos hfirst, if_pos (isTail_ofNat hm),
    UInt8.toNat_ofNat_of_lt' (show n + 192 < 256 by omega),
    UInt8.toNat_ofNat_of_lt' (show m + 128 < 256 by omega), Nat.add_sub_cancel, Nat.add_sub_cancel]

theorem next?_three (hn : n < 16) (hm : m < 64) (hk : k < 64) (hlow : n = 0 → 32 ≤ m)
    (hhigh : n = 13 → m < 32) :
    next? (UInt8.ofNat (n + 224) :: UInt8.ofNat (m + 128) :: UInt8.ofNat (k + 128) :: rest)
      = some (Char.ofNat (n * 4096 + m * 64 + k), rest) := by
  have hshort : ¬ (0xC2 ≤ UInt8.ofNat (n + 224) && UInt8.ofNat (n + 224) ≤ 0xDF) = true := by
    rw [between_ofNat_iff (by omega)]
    exact fun h => absurd h.2 (show ¬ n + 224 ≤ 223 by omega)
  have hfirst : (0xE0 ≤ UInt8.ofNat (n + 224) && UInt8.ofNat (n + 224) ≤ 0xEF) = true :=
    (between_ofNat_iff (by omega)).2 ⟨show 224 ≤ n + 224 by omega, show n + 224 ≤ 239 by omega⟩
  have hsecond := second_ofNat (f := n + 224) 0xE0 0xED 0xA0 0x9F (by omega) hm
    (fun h => show 160 ≤ m + 128 by have : n + 224 = 224 := h; omega)
    (fun h => show m + 128 ≤ 159 by have : n + 224 = 237 := h; omega)
  unfold next?
  dsimp only
  rw [if_neg (not_ascii_ofNat (by omega) (by omega)), if_neg hshort, if_pos hfirst, hsecond, isTail_ofNat hk,
    UInt8.toNat_ofNat_of_lt' (show n + 224 < 256 by omega),
    UInt8.toNat_ofNat_of_lt' (show m + 128 < 256 by omega),
    UInt8.toNat_ofNat_of_lt' (show k + 128 < 256 by omega), Nat.add_sub_cancel, Nat.add_sub_cancel,
    Nat.add_sub_cancel]
  rfl

theorem next?_four (hn : n < 5) (hm : m < 64) (hk : k < 64) (hl : l < 64) (hlow : n = 0 → 16 ≤ m)
    (hhigh : n = 4 → m < 16) :
    next? (UInt8.ofNat (n + 240) :: UInt8.ofNat (m + 128) :: UInt8.ofNat (k + 128) :: UInt8.ofNat (l + 128)
        :: rest)
      = some (Char.ofNat (n * 262144 + m * 4096 + k * 64 + l), rest) := by
  have hshort : ¬ (0xC2 ≤ UInt8.ofNat (n + 240) && UInt8.ofNat (n + 240) ≤ 0xDF) = true := by
    rw [between_ofNat_iff (by omega)]
    exact fun h => absurd h.2 (show ¬ n + 240 ≤ 223 by omega)
  have hmiddle : ¬ (0xE0 ≤ UInt8.ofNat (n + 240) && UInt8.ofNat (n + 240) ≤ 0xEF) = true := by
    rw [between_ofNat_iff (by omega)]
    exact fun h => absurd h.2 (show ¬ n + 240 ≤ 239 by omega)
  have hfirst : (0xF0 ≤ UInt8.ofNat (n + 240) && UInt8.ofNat (n + 240) ≤ 0xF4) = true :=
    (between_ofNat_iff (by omega)).2 ⟨show 240 ≤ n + 240 by omega, show n + 240 ≤ 244 by omega⟩
  have hsecond := second_ofNat (f := n + 240) 0xF0 0xF4 0x90 0x8F (by omega) hm
    (fun h => show 144 ≤ m + 128 by have : n + 240 = 240 := h; omega)
    (fun h => show m + 128 ≤ 143 by have : n + 240 = 244 := h; omega)
  unfold next?
  dsimp only
  rw [if_neg (not_ascii_ofNat (by omega) (by omega)), if_neg hshort, if_neg hmiddle, if_pos hfirst, hsecond,
    isTail_ofNat hk, isTail_ofNat hl, UInt8.toNat_ofNat_of_lt' (show n + 240 < 256 by omega),
    UInt8.toNat_ofNat_of_lt' (show m + 128 < 256 by omega),
    UInt8.toNat_ofNat_of_lt' (show k + 128 < 256 by omega),
    UInt8.toNat_ofNat_of_lt' (show l + 128 < 256 by omega), Nat.add_sub_cancel, Nat.add_sub_cancel,
    Nat.add_sub_cancel, Nat.add_sub_cancel]
  rfl

/-- The scalar values: all up to the greatest one but for the surrogates. -/
theorem toNat_range (c : Char) : c.toNat < 0xD800 ∨ (0xDFFF < c.toNat ∧ c.toNat < 0x110000) :=
  c.valid

theorem next?_utf8EncodeChar (c : Char) : next? (String.utf8EncodeChar c ++ rest) = some (c, rest) := by
  have hrange := toNat_range c
  have hself {n : Nat} (h : n = c.toNat) : some (Char.ofNat n, rest) = some (c, rest) := by
    rw [h, Char.ofNat_toNat]
  unfold String.utf8EncodeChar
  simp only [show c.val.toNat = c.toNat from rfl]
  split
  · exact (next?_one rest (by omega)).trans (hself rfl)
  split
  · exact (next?_two rest (by omega) (by omega) (by omega)).trans (hself (by omega))
  split
  · exact (next?_three rest (by omega) (by omega) (by omega) (by omega) (by omega)).trans (hself (by omega))
  · exact (next?_four rest (by omega) (by omega) (by omega) (by omega) (by omega) (by omega)).trans
      (hself (by omega))

end Character

/-! ### Whole texts -/

theorem decodeWith_encode (s : List Char) {fuel : Nat} (h : (encode s).length ≤ fuel) :
    decodeWith fuel (encode s) = s.map some := by
  induction s generalizing fuel with
  | nil => cases fuel <;> rfl
  | cons c s ih =>
    have hsplit : encode (c :: s) = String.utf8EncodeChar c ++ encode s := List.flatMap_cons
    have hnext := next?_utf8EncodeChar (encode s) c
    rw [hsplit] at h ⊢
    have hlength : (String.utf8EncodeChar c ++ encode s).length = c.utf8Size + (encode s).length := by
      rw [List.length_append, String.length_utf8EncodeChar]
    have hpos := c.utf8Size_pos
    rcases hbytes : String.utf8EncodeChar c ++ encode s with _ | ⟨b, rest⟩
    · rw [hbytes] at hnext
      cases hnext
    · rw [hbytes] at h hnext hlength
      rcases fuel with _ | fuel
      · cases h
      · rw [List.length_cons] at h hlength
        rw [decodeWith, hnext, List.map_cons]
        exact congrArg (some c :: ·) (ih (by omega))

theorem decode_encode (s : List Char) : decode (encode s) = s.map some :=
  decodeWith_encode s (Nat.le_refl _)

end Turnstile.Text.Utf8
