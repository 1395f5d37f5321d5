/-!
# UTF-8

Bytes of a text, and texts of bytes. Decoding never fails: a byte that belongs to no well-formed
character becomes a gap, written `none`, and reading goes on with the next byte. A reader that meets
a gap where it needs a character can then refuse, and one that skips a string can skip it.
-/

namespace Turnstile.Text.Utf8

def encode (s : List Char) : List UInt8 :=
  s.flatMap String.utf8EncodeChar

def bytes (s : String) : List UInt8 :=
  encode s.toList

def isTail (b : UInt8) : Bool :=
  0x80 ≤ b && b ≤ 0xBF

/-- The character at the front of the bytes and what follows it. -/
def next? : List UInt8 → Option (Char × List UInt8)
  | [] => none
  | a :: rest =>
    if a < 0x80 then some (Char.ofNat a.toNat, rest)
    else if 0xC2 ≤ a && a ≤ 0xDF then
      match rest with
      | b :: rest =>
        if isTail b then some (Char.ofNat ((a.toNat - 0xC0) * 64 + (b.toNat - 0x80)), rest) else none
      | _ => none
    else if 0xE0 ≤ a && a ≤ 0xEF then
      match rest with
      | b :: c :: rest =>
        let low : UInt8 := if a == 0xE0 then 0xA0 else 0x80
        let high : UInt8 := if a == 0xED then 0x9F else 0xBF
        if low ≤ b && b ≤ high && isTail c then
          some (Char.ofNat ((a.toNat - 0xE0) * 4096 + (b.toNat - 0x80) * 64 + (c.toNat - 0x80)), rest)
        else none
      | _ => none
    else if 0xF0 ≤ a && a ≤ 0xF4 then
      match rest with
      | b :: c :: d :: rest =>
        let low : UInt8 := if a == 0xF0 then 0x90 else 0x80
        let high : UInt8 := if a == 0xF4 then 0x8F else 0xBF
        if low ≤ b && b ≤ high && isTail c && isTail d then
          some (Char.ofNat ((a.toNat - 0xF0) * 262144 + (b.toNat - 0x80) * 4096
            + (c.toNat - 0x80) * 64 + (d.toNat - 0x80)), rest)
        else none
      | _ => none
    else none

/-- The characters of the bytes, with a gap for each byte that is part of none. The fuel bounds the
number of bytes. -/
def decodeWith : Nat → List UInt8 → List (Option Char)
  | 0, _ => []
  | _, [] => []
  | fuel + 1, b :: rest =>
    match next? (b :: rest) with
    | some (c, rest) => some c :: decodeWith fuel rest
    | none => none :: decodeWith fuel rest

/-- The characters of the bytes, with a gap for each byte that is part of none. -/
def decode (bytes : List UInt8) : List (Option Char) :=
  decodeWith bytes.length bytes

def text? (bytes : List UInt8) : Option String :=
  String.ofList <$> (decode bytes).mapM id

end Turnstile.Text.Utf8
