import Turnstile.Config.Tree
import Turnstile.Time.Calendar
/-!
# Words that are values

What a word without quotes denotes: a truth value, an integer in one of four bases, a floating-point
number, or a date or time, which is kept as a text. Digits may be grouped by single underscores.
-/

namespace Turnstile.Config.Toml

/-- Digits in a base with single underscores between them; the digits alone. -/
def grouped? (base : Nat) : List Char → Option (List Char)
  | [] => none
  | [c] => if isDigit c then some [c] else none
  | c :: '_' :: rest => if isDigit c then (grouped? base rest).map (c :: ·) else none
  | c :: rest => if isDigit c then (grouped? base rest).map (c :: ·) else none
where
  isDigit (c : Char) : Bool := ((Text.hexDigit? c).filter (· < base)).isSome

/-- An optional sign: whether it is negative, and what follows. -/
def sign : List Char → Bool × List Char
  | '+' :: rest => (false, rest)
  | '-' :: rest => (true, rest)
  | cs => (false, cs)

/-- Digits of a decimal number, without a needless zero in front. -/
def decimalDigits? (cs : List Char) : Option (List Char) := do
  let ds ← grouped? 10 cs
  match ds with
  | '0' :: _ :: _ => none
  | _ => return ds

def inRange? (n : Int) : Option Tree :=
  if -(Text.maxInt64 + 1 : Int) ≤ n ∧ n ≤ Text.maxInt64 then some (.int n) else none

def integer? (cs : List Char) : Option Tree :=
  match cs with
  | '0' :: 'x' :: rest => grouped? 16 rest >>= Url.digitsIn? 16 >>= inRange? ∘ Int.ofNat
  | '0' :: 'o' :: rest => grouped? 8 rest >>= Url.digitsIn? 8 >>= inRange? ∘ Int.ofNat
  | '0' :: 'b' :: rest => grouped? 2 rest >>= Url.digitsIn? 2 >>= inRange? ∘ Int.ofNat
  | _ => do
    let (negative, rest) := sign cs
    let n ← decimalDigits? rest >>= Text.digitsValue?
    inRange? (if negative then -(n : Int) else n)

/-- A floating-point number: with a point, an exponent or both. -/
def float? (cs : List Char) : Option Tree := do
  let (negative, rest) := sign cs
  match String.ofList rest with
  | "inf" => return .float (if negative then -(1.0 / 0.0) else 1.0 / 0.0)
  | "nan" => return .float (0.0 / 0.0)
  | _ =>
    let isMark (c : Char) : Bool := c = 'e' || c = 'E'
    let digits := rest.takeWhile (!isMark ·)
    let whole := digits.takeWhile (· != '.')
    let wholeDigits ← decimalDigits? whole
    let fraction ←
      match digits.drop whole.length with
      | [] => some []
      | _ :: fraction => grouped? 10 fraction
    let e : Int ←
      match rest.drop digits.length with
      | [] => some 0
      | _ :: exponent => do
        let (down, ds) := sign exponent
        let n ← grouped? 10 ds >>= Text.digitsValue?
        some (if down then -(n : Int) else n)
    let m ← Text.digitsValue? (wholeDigits ++ fraction)
    let f := Decimal.nearest negative m (e - fraction.length)
    if f.isInf then none
    return .float f

/-- A number of exactly two digits at the front, of at most `most`. -/
def two? (most : Nat) : List Char → Option (List Char)
  | a :: b :: rest => (Text.digitsValue? [a, b]).bind fun n => if n ≤ most then some rest else none
  | _ => none

def afterDate? (cs : List Char) : Option (List Char) :=
  match cs with
  | y :: y' :: y'' :: y''' :: '-' :: m :: m' :: '-' :: d :: d' :: rest => do
    let year ← Text.digitsValue? [y, y', y'', y''']
    let month ← Text.digitsValue? [m, m']
    let day ← Text.digitsValue? [d, d']
    if 1 ≤ month ∧ month ≤ 12 ∧ 1 ≤ day ∧ day ≤ Time.daysInMonth year month then return rest
    none
  | _ => none

/-- A time at the front, without zeros at the end of its fraction, and what follows. -/
def time? (cs : List Char) : Option (List Char × List Char) := do
  let rest ← two? 23 cs
  let ':' :: rest := rest | none
  let rest ← two? 59 rest
  let ':' :: rest := rest | none
  let rest ← two? 60 rest
  let front := cs.take 8
  match rest with
  | '.' :: rest =>
    let digits := rest.takeWhile Char.isDigit
    if digits.isEmpty then none
    let kept := ((digits.take 9).reverse.dropWhile (· == '0')).reverse
    return (front ++ (if kept.isEmpty then [] else '.' :: kept), rest.drop digits.length)
  | _ => return (front, rest)

/-- The distance of a time from universal time, up to the end. -/
def offset? (cs : List Char) : Option (List Char) :=
  match cs with
  | [] => some []
  | ['z'] | ['Z'] => some ['Z']
  | c :: rest =>
    if c = '+' ∨ c = '-' then
      match two? 23 rest with
      | some (':' :: rest') => if two? 59 rest' = some [] then some cs else none
      | _ => none
    else none

/-- A date, a time, or both; as a text with `T` between. -/
def moment? (cs : List Char) : Option Tree :=
  match afterDate? cs with
  | some [] => some (.text (String.ofList cs))
  | some (c :: rest) =>
    if c = 'T' ∨ c = 't' ∨ c = ' ' then do
      let (time, rest) ← time? rest
      return .text (String.ofList (cs.take 10 ++ 'T' :: time ++ (← offset? rest)))
    else none
  | none =>
    match time? cs with
    | some (time, []) => some (.text (String.ofList time))
    | _ => none

def scalar? (cs : List Char) : Option Tree :=
  match String.ofList cs with
  | "true" => some (.bool true)
  | "false" => some (.bool false)
  | _ => (integer? cs).orElse fun _ => (float? cs).orElse fun _ => moment? cs

end Turnstile.Config.Toml
