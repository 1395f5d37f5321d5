/-!
# Letter case

Two case rules are in use. Names on the wire (schemes, header names) are compared without regard to
ASCII case only. Names of algorithms and settings are mapped to one case first, by the full mapping
of all letters; since such a name is then compared with ASCII texts, only letters whose image is
ASCII matter, and `upper` and `lower` leave every other letter as it is.
-/

namespace Turnstile.Text

/-- The lower-case form of an ASCII letter; every other character is kept. -/
def asciiLowerChar (c : Char) : Char :=
  if 'A' ≤ c ∧ c ≤ 'Z' then Char.ofNat (c.toNat + 32) else c

/-- The upper-case form of an ASCII letter; every other character is kept. -/
def asciiUpperChar (c : Char) : Char :=
  if 'a' ≤ c ∧ c ≤ 'z' then Char.ofNat (c.toNat - 32) else c

/-- The text with its ASCII letters in lower case. -/
def asciiLower (s : String) : String :=
  String.ofList (s.toList.map asciiLowerChar)

/-- Two texts that differ at most in the case of ASCII letters. -/
def eqIgnoreAsciiCase (s t : String) : Bool :=
  s.toList.map asciiLowerChar == t.toList.map asciiLowerChar

/-- The capital form of a character whose capital form is ASCII, ligatures written out; every other
character is kept. -/
def upperChar (c : Char) : List Char :=
  match c.toNat with
  | 0xDF => ['S', 'S']
  | 0x131 => ['I']
  | 0x17F => ['S']
  | 0xFB00 => ['F', 'F']
  | 0xFB01 => ['F', 'I']
  | 0xFB02 => ['F', 'L']
  | 0xFB03 => ['F', 'F', 'I']
  | 0xFB04 => ['F', 'F', 'L']
  | 0xFB05 => ['S', 'T']
  | 0xFB06 => ['S', 'T']
  | _ => [asciiUpperChar c]

/-- The text in capitals, as far as a comparison with an ASCII text can tell. -/
def upper (s : String) : String :=
  String.ofList (s.toList.flatMap upperChar)

/-- The small form of a character whose small form is ASCII (the Kelvin sign is the one such letter
outside ASCII); every other character is kept. -/
def lowerChar (c : Char) : Char :=
  if c.toNat = 0x212A then 'k' else asciiLowerChar c

/-- The text in small letters, as far as a comparison with an ASCII text can tell. -/
def lower (s : String) : String :=
  String.ofList (s.toList.map lowerChar)

/-! ### Small letters -/

/-- A small form is its own small form. -/
theorem lowerChar_lowerChar (c : Char) : lowerChar (lowerChar c) = lowerChar c := by
  by_cases hascii : c.toNat < 128
  · have h : ∀ n < 128, lowerChar (lowerChar (Char.ofNat n)) = lowerChar (Char.ofNat n) := by decide
    simpa only [Char.ofNat_toNat] using h c.toNat hascii
  · have hkept : lowerChar c = 'k' ∨ lowerChar c = c := by
      have hcapital : ¬ ('A' ≤ c ∧ c ≤ 'Z') := fun h => hascii (Nat.lt_of_le_of_lt h.2 (by decide))
      unfold lowerChar asciiLowerChar
      rw [if_neg hcapital]
      split
      · exact Or.inl rfl
      · exact Or.inr rfl
    rcases hkept with h | h
    · rw [h]
      decide
    · rw [h, h]

theorem lower_eq_self {s : String} (h : ∀ c ∈ s.toList, lowerChar c = c) : lower s = s := by
  rw [lower, List.map_congr_left h, List.map_id', String.ofList_toList]

theorem lowerChar_of_mem_lower {s : String} {c : Char} (h : c ∈ (lower s).toList) : lowerChar c = c := by
  rw [lower, String.toList_ofList] at h
  obtain ⟨d, -, rfl⟩ := List.mem_map.1 h
  exact lowerChar_lowerChar d

end Turnstile.Text
