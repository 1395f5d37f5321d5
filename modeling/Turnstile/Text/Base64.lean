/-!
# Base64

Two spellings of bytes in an alphabet of 64 characters. The parts of a token use the URL alphabet
without padding, and are read strictly: a length that no byte count gives, or bits left over that are
not zero, is no spelling of anything. Key files and passwords use the standard alphabet with padding.
-/

namespace Turnstile.Text.Base64

/-- The two alphabets differ in their last two characters. -/
inductive Alphabet where
  | standard
  | url
deriving DecidableEq, Repr

def Alphabet.char (a : Alphabet) (n : Nat) : Char :=
  if n < 26 then Char.ofNat (65 + n)
  else if n < 52 then Char.ofNat (71 + n)
  else if n < 62 then Char.ofNat (n - 4)
  else match a, n with
    | .standard, 62 => '+'
    | .standard, _ => '/'
    | .url, 62 => '-'
    | .url, _ => '_'

def Alphabet.value? (a : Alphabet) (c : Char) : Option Nat :=
  if 'A' ≤ c ∧ c ≤ 'Z' then some (c.toNat - 65)
  else if 'a' ≤ c ∧ c ≤ 'z' then some (c.toNat - 71)
  else if '0' ≤ c ∧ c ≤ '9' then some (c.toNat + 4)
  else match a, c with
    | .standard, '+' => some 62
    | .standard, '/' => some 63
    | .url, '-' => some 62
    | .url, '_' => some 63
    | _, _ => none

/-- Spells the bytes three at a time, without padding. -/
def encode (a : Alphabet) : List UInt8 → List Char
  | [] => []
  | [x] => [a.char (x.toNat / 4), a.char (x.toNat % 4 * 16)]
  | [x, y] =>
    [a.char (x.toNat / 4), a.char (x.toNat % 4 * 16 + y.toNat / 16), a.char (y.toNat % 16 * 4)]
  | x :: y :: z :: rest =>
    a.char (x.toNat / 4) :: a.char (x.toNat % 4 * 16 + y.toNat / 16)
      :: a.char (y.toNat % 16 * 4 + z.toNat / 64) :: a.char (z.toNat % 64) :: encode a rest

/-- Reads what `encode` writes; `none` for a text that is the spelling of no bytes. -/
def decode? (a : Alphabet) : List Char → Option (List UInt8)
  | [] => some []
  | [_] => none
  | [c, d] => do
    let p ← a.value? c
    let q ← a.value? d
    if q % 16 = 0 then some [UInt8.ofNat (p * 4 + q / 16)] else none
  | [c, d, e] => do
    let p ← a.value? c
    let q ← a.value? d
    let r ← a.value? e
    if r % 4 = 0 then some [UInt8.ofNat (p * 4 + q / 16), UInt8.ofNat (q % 16 * 16 + r / 4)] else none
  | c :: d :: e :: f :: rest => do
    let p ← a.value? c
    let q ← a.value? d
    let r ← a.value? e
    let s ← a.value? f
    let bytes ← decode? a rest
    some (UInt8.ofNat (p * 4 + q / 16) :: UInt8.ofNat (q % 16 * 16 + r / 4)
      :: UInt8.ofNat (r % 4 * 64 + s) :: bytes)

/-- Reads the padded spelling in the standard alphabet. The padding has to be there in full. -/
def decodePadded? (s : List Char) : Option (List UInt8) :=
  let padding := (s.reverse.takeWhile (· == '=')).length
  if padding ≤ 2 && s.length % 4 == 0 then decode? .standard (s.take (s.length - padding)) else none

def urlText (bytes : List UInt8) : String :=
  String.ofList (encode .url bytes)

end Turnstile.Text.Base64
