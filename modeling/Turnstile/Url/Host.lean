import Turnstile.Text.Decimal
import Turnstile.Text.Split
import Turnstile.Text.Unprintable
import Turnstile.Url.Percent
import Turnstile.Url.Punycode
/-!
# Hosts

The host of an address: a domain name, a number of version 4 in up to four parts of which the last one
fills what is left, a number of version 6 between brackets, or, for schemes without rules of their own,
any name. Domain names are compared in small letters and written in ASCII; a domain whose last part is a
number is read as a number or not at all.
-/

namespace Turnstile.Url

inductive Host where
  | domain (name : String)
  | ipv4 (address : Nat)
  | ipv6 (pieces : List Nat)
  /-- A name of a scheme without rules of its own. -/
  | other (text : String)
deriving DecidableEq, Repr

/-! ### Numbers of version 4 -/

/-- The value of digits in a base of at most sixteen. -/
def digitsIn? (base : Nat) (cs : List Char) : Option Nat :=
  cs.foldlM (fun n c => (Text.hexDigit? c).bind fun d => if d < base then some (base * n + d) else none) 0

/-- One part of a number: hexadecimal after `0x`, octal after `0`, else decimal. -/
def ipv4Part? : List Char → Option Nat
  | [] => none
  | '0' :: 'x' :: rest | '0' :: 'X' :: rest => digitsIn? 16 rest
  | '0' :: rest => digitsIn? 8 rest
  | cs => digitsIn? 10 cs

/-- The parts of a domain, less an empty one at the end. -/
def domainParts (cs : List Char) : List (List Char) :=
  let parts := Text.cut (· == '.') cs
  if 1 < parts.length ∧ parts.getLast? = some [] then parts.dropLast else parts

/-- Whether the last part of a domain is a number. -/
def endsInNumber (cs : List Char) : Bool :=
  match (domainParts cs).getLast? with
  | none | some [] => false
  | some last => last.all Char.isDigit || (ipv4Part? last).isSome

/-- The number that the parts make up: all but the last are bytes. -/
def ipv4OfParts? : List Nat → Option Nat
  | [] => none
  | parts =>
    let n := parts.length
    let last := parts.getLast?.getD 0
    if 4 < n ∨ parts.dropLast.any (255 < ·) ∨ Nat.pow 256 (5 - n) ≤ last then none
    else some (parts.dropLast.zipIdx.foldl (fun n (b, i) => n + b * Nat.pow 256 (3 - i)) last)

def ipv4? (cs : List Char) : Option Nat :=
  (domainParts cs).mapM ipv4Part? >>= ipv4OfParts?

def ipv4Text (n : Nat) : String :=
  String.intercalate "." ([n / 16777216, n / 65536 % 256, n / 256 % 256, n % 256].map Text.natText)

/-! ### Numbers of version 6 -/

/-- A byte of a version 4 number at the end of one of version 6. -/
def decimalByte? (cs : List Char) : Option Nat :=
  if cs.length = 0 ∨ 3 < cs.length ∨ (cs.head? = some '0' ∧ 1 < cs.length) then none
  else (Text.digitsValue? cs).filter (· ≤ 255)

/-- The pieces between the colons; the last one may be a version 4 number. -/
def ipv6Pieces? : List (List Char) → Option (List Nat)
  | [] => some []
  | [last] =>
    if last.contains '.' then
      match (Text.cut (· == '.') last).mapM decimalByte? with
      | some [a, b, c, d] => some [256 * a + b, 256 * c + d]
      | _ => none
    else piece? last
  | p :: rest => do return (← piece? p) ++ (← ipv6Pieces? rest)
where
  piece? (cs : List Char) : Option (List Nat) :=
    if cs.length = 0 ∨ 4 < cs.length then none else (digitsIn? 16 cs).map ([·])

def splitGap : List Char → Option (List Char × List Char)
  | ':' :: ':' :: rest => some ([], rest)
  | c :: rest => (splitGap rest).map fun (a, b) => (c :: a, b)
  | [] => none

/-- The pieces of a run, which may be empty. -/
def ipv6Run? (cs : List Char) : Option (List Nat) :=
  if cs.isEmpty then some [] else ipv6Pieces? (Text.cut (· == ':') cs)

/-- Reads a number of version 6: eight pieces, or fewer with a double colon for zeros. -/
def ipv6? (cs : List Char) : Option (List Nat) :=
  match splitGap cs with
  | none => (ipv6Run? cs).filter (·.length = 8)
  | some (front, back) => do
    if front.contains '.' then none
    let a ← ipv6Run? front
    let b ← ipv6Run? back
    if 7 < a.length + b.length then none
    return a ++ List.replicate (8 - a.length - b.length) 0 ++ b

/-- The length of the run of zeros at the front. -/
def zeros (pieces : List Nat) : Nat := (pieces.takeWhile (· = 0)).length

/-- The position and length of the first longest run of zeros. -/
def longestZeros : Nat → List Nat → Nat × Nat
  | _, [] => (0, 0)
  | i, p :: rest =>
    let here := zeros (p :: rest)
    let later := longestZeros (i + 1) rest
    if later.2 ≤ here then (i, here) else later

/-- The number between brackets, with its first longest run of zeros left out. -/
def ipv6Text (pieces : List Nat) : String :=
  let hex (l : List Nat) := String.intercalate ":" (l.map fun p => String.ofList (Text.hexDigits p))
  let (i, n) := longestZeros 0 pieces
  let inner :=
    if n < 2 then hex pieces else hex (pieces.take i) ++ "::" ++ hex (pieces.drop (i + n))
  "[" ++ inner ++ "]"

/-! ### Domain names -/

/-- A mark that may not stand in a host. -/
def isForbiddenHostChar (c : Char) : Bool :=
  c.toNat = 0 || ['\t', '\n', '\r', ' ', '#', '/', ':', '<', '>', '?', '@', '[', '\\', ']', '^', '|'].contains c

/-- A character that may not stand in a domain name. -/
def isForbiddenDomainChar (c : Char) : Bool :=
  isForbiddenHostChar c || c.toNat < 0x20 || c = '%' || c.toNat = 0x7F

/-- The form in which a character of a domain name is compared: small letters, the plain form of wide
letters and full stops, and nothing for characters without width. -/
def foldChar (c : Char) : List Char :=
  let n := c.toNat
  if [0xAD, 0x200B, 0x2060, 0xFEFF].contains n ∨ (0xFE00 ≤ n ∧ n ≤ 0xFE0F) then []
  else if [0x3002, 0xFF61].contains n then ['.']
  else if 0xFF01 ≤ n ∧ n ≤ 0xFF5E then [Text.lowerChar (Char.ofNat (n - 0xFEE0))]
  else if (0xC0 ≤ n ∧ n ≤ 0xDE ∧ n ≠ 0xD7) ∨ (0x391 ≤ n ∧ n ≤ 0x3A9) ∨ (0x410 ≤ n ∧ n ≤ 0x42F) then
    [Char.ofNat (n + 32)]
  else if 0x400 ≤ n ∧ n ≤ 0x40F then [Char.ofNat (n + 80)]
  else [Text.lowerChar c]

/-- A character beyond ASCII that stands for nothing in a name. -/
def isUnnameable (c : Char) : Bool :=
  c.toNat = 0xFFFD || (128 ≤ c.toNat && (c.toNat < 0x300 || 0x2000 ≤ c.toNat) && Text.unprintable.contains c
    && !(0x20D0 ≤ c.toNat && c.toNat ≤ 0x20F0))

def encodedMark : List Char := ['x', 'n', '-', '-']

def labelToAscii? (label : List Char) : Option (List Char) :=
  if label.any isUnnameable then none
  else if label.all (·.toNat < 128) then
    if encodedMark.isPrefixOf label then
      match Punycode.decode? (label.drop 4) with
      | some decoded =>
        if decoded.all (·.toNat < 128) || decoded.any isUnnameable || decoded.flatMap foldChar != decoded then none
        else some label
      | none => none
    else some label
  else some (encodedMark ++ Punycode.encode label)

def domainToAscii? (cs : List Char) : Option (List Char) := do
  let labels ← (Text.cut (· == '.') (cs.flatMap foldChar)).mapM labelToAscii?
  let name := List.intercalate ['.'] labels
  if name.isEmpty ∨ name.any isForbiddenDomainChar then none
  return name

namespace Host

/-- Reads the host of a scheme that has rules of its own. -/
def ofSpecial? (cs : List Char) : Option Host :=
  match cs with
  | '[' :: rest =>
    if rest.getLast? = some ']' then (ipv6? rest.dropLast).map .ipv6 else none
  | _ => do
    let decoded := (Text.Utf8.decode (unescape cs)).map fun c => c.getD '\ufffd'
    let name ← domainToAscii? decoded
    if endsInNumber name then (ipv4? name).map .ipv4 else return .domain (String.ofList name)

def ofOther? (cs : List Char) : Option Host :=
  match cs with
  | '[' :: rest =>
    if rest.getLast? = some ']' then (ipv6? rest.dropLast).map .ipv6 else none
  | _ =>
    if cs.any isForbiddenHostChar then none
    else some (.other (String.ofList (escape inControlSet cs)))

def text : Host → String
  | .domain name => name
  | .ipv4 address => ipv4Text address
  | .ipv6 pieces => ipv6Text pieces
  | .other text => text

end Host

end Turnstile.Url
