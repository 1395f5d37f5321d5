/-!
# Integers in decimal

Reading signed and unsigned integers of a bounded range from their decimal text. The reader goes
through the digits from the left and names the first thing that is wrong: a number that has already
left the range is reported as such although an invalid character may follow.
-/

namespace Turnstile.Text

/-- Why a text is not an integer of the wanted range. -/
inductive IntFault where
  | empty
  /-- A character is no digit, or a sign stands alone. -/
  | invalidDigit
  | tooLarge
  | tooSmall
deriving DecidableEq, Repr

def IntFault.message : IntFault → String
  | .empty => "cannot parse integer from empty string"
  | .invalidDigit => "invalid digit found in string"
  | .tooLarge => "number too large to fit in target type"
  | .tooSmall => "number too small to fit in target type"

def digit? (c : Char) : Option Nat :=
  if '0' ≤ c ∧ c ≤ '9' then some (c.toNat - 48) else none

/-- Appends digits to the number read so far while it stays within `bound`; `fault` is reported at
the first digit that leaves it. -/
def readDigits (bound : Nat) (fault : IntFault) : Nat → List Char → Except IntFault Nat
  | n, [] => .ok n
  | n, c :: rest =>
    match digit? c with
    | none => .error .invalidDigit
    | some d =>
      if 10 * n + d ≤ bound then readDigits bound fault (10 * n + d) rest else .error fault

/-- Reads an integer from `-low` to `high` with an optional sign. -/
def readInt (low high : Nat) : List Char → Except IntFault Int
  | [] => .error .empty
  | ['+'] | ['-'] => .error .invalidDigit
  | '+' :: digits => Int.ofNat <$> readDigits high .tooLarge 0 digits
  | '-' :: digits => (fun n => -Int.ofNat n) <$> readDigits low .tooSmall 0 digits
  | digits => Int.ofNat <$> readDigits high .tooLarge 0 digits

/-- Reads a natural number of at most `high` with an optional plus sign. -/
def readNat (high : Nat) : List Char → Except IntFault Nat
  | [] => .error .empty
  | ['+'] => .error .invalidDigit
  | '+' :: digits => readDigits high .tooLarge 0 digits
  | digits => readDigits high .tooLarge 0 digits

def maxInt64 : Nat := 9223372036854775807

def maxNat64 : Nat := 18446744073709551615

def readInt64 (s : String) : Except IntFault Int :=
  readInt (maxInt64 + 1) maxInt64 s.toList

def readNat64 (s : String) : Except IntFault Nat :=
  readNat maxNat64 s.toList

/-- The value of a run of ASCII digits; `none` if another character occurs or there is none. -/
def digitsValue? : List Char → Option Nat
  | [] => none
  | cs => cs.foldl (fun acc c => do return 10 * (← acc) + (← digit? c)) (some 0)

def natDigits (n : Nat) : List Char :=
  if n < 10 then [Char.ofNat (48 + n)] else natDigits (n / 10) ++ [Char.ofNat (48 + n % 10)]

def natText (n : Nat) : String :=
  String.ofList (natDigits n)

def intText (n : Int) : String :=
  if n < 0 then String.ofList ('-' :: natDigits n.natAbs) else String.ofList (natDigits n.natAbs)

/-- The decimal digits of a number, filled with zeros at the front up to a width. -/
def paddedDigits (width n : Nat) : List Char :=
  let digits := natDigits n
  List.replicate (width - digits.length) '0' ++ digits

end Turnstile.Text
