import Turnstile.Json.Value
import Turnstile.Text.Ranges
import Turnstile.Text.Utf8
/-!
# Reading JSON

`Json.parse` reads one value that fills a text. The text is a list of characters with gaps where its
bytes are no characters; a gap makes the string it stands in unreadable and is an error anywhere else.
The reader places no bound on nesting: the bound belongs to what a value is read for.
-/

namespace Turnstile.Json

/-- A text whose gaps (`none`) are bytes that belong to no character. -/
abbrev Gapped := List (Option Char)

namespace Reader

def isSpace (c : Option Char) : Bool :=
  c == some ' ' || c == some '\n' || c == some '\t' || c == some '\r'

def skip (s : Gapped) : Gapped := s.dropWhile isSpace

/-- The digits at the front and what is left. -/
def digits (s : Gapped) : List Nat × Gapped :=
  go [] s
where
  go (acc : List Nat) : Gapped → List Nat × Gapped
    | some c :: rest =>
      match Text.digit? c with
      | some d => go (d :: acc) rest
      | none => (acc.reverse, some c :: rest)
    | rest => (acc.reverse, rest)

/-- The digits after a point; a point without digits is an error. -/
def fraction? : Gapped → Option (Option (List Nat) × Gapped)
  | some '.' :: rest =>
    match digits rest with
    | ([], _) => none
    | (ds, rest) => some (some ds, rest)
  | rest => some (none, rest)

/-- The digits of an exponent after its sign; there has to be one. -/
def exponentDigits? (negative : Bool) (s : Gapped) : Option (Option (Bool × List Nat) × Gapped) :=
  match digits s with
  | ([], _) => none
  | (ds, rest) => some (some (negative, ds), rest)

def exponent? : Gapped → Option (Option (Bool × List Nat) × Gapped)
  | some 'e' :: some '+' :: rest | some 'E' :: some '+' :: rest => exponentDigits? false rest
  | some 'e' :: some '-' :: rest | some 'E' :: some '-' :: rest => exponentDigits? true rest
  | some 'e' :: rest | some 'E' :: rest => exponentDigits? false rest
  | rest => some (none, rest)

/-- The rest of a number after its sign. A leading zero is followed by no digit. -/
def number? (negative : Bool) (s : Gapped) : Option (Number × Gapped) :=
  match digits s with
  | ([], _) => none
  | (0 :: _ :: _, _) => none
  | (whole, rest) => do
    let (fraction, rest) ← fraction? rest
    let (exponent, rest) ← exponent? rest
    return ({ negative, whole, fraction, exponent }, rest)

def hex4? : Gapped → Option (Nat × Gapped)
  | some a :: some b :: some c :: some d :: rest => do
    let a ← Text.hexDigit? a
    let b ← Text.hexDigit? b
    let c ← Text.hexDigit? c
    let d ← Text.hexDigit? d
    return (((a * 16 + b) * 16 + c) * 16 + d, rest)
  | _ => none

def shortEscape? : Char → Option Char
  | '"' => some '"'
  | '\\' => some '\\'
  | '/' => some '/'
  | 'b' => some '\x08'
  | 'f' => some '\x0c'
  | 'n' => some '\n'
  | 'r' => some '\r'
  | 't' => some '\t'
  | _ => none

inductive Piece where
  | close (rest : Gapped)
  | char (c : Char) (rest : Gapped)
  | flaw (f : Flaw) (rest : Gapped)

/-- The leading half of a surrogate pair that no trailing half follows. The reader finds out when it has
taken the next character, which puts it behind the string if that is the closing quote. -/
def loneHalf (rest : Gapped) : Piece :=
  .flaw (if rest.head? = some (some '"') then .atEnd else .inside) rest

/-- The escape `u` with its digits already read: a pair of surrogates is one character, half of a
pair is none. -/
def unicodeEscape (n : Nat) (rest : Gapped) : Option Piece :=
  if 0xD800 ≤ n ∧ n ≤ 0xDBFF then
    match rest with
    | some '\\' :: some 'u' :: more =>
      match hex4? more with
      | none => none
      | some (m, after) =>
        if 0xDC00 ≤ m ∧ m ≤ 0xDFFF then
          some (.char (Char.ofNat (0x10000 + (n - 0xD800) * 0x400 + (m - 0xDC00))) after)
        else some (loneHalf rest)
    | _ => some (loneHalf rest)
  else if 0xDC00 ≤ n ∧ n ≤ 0xDFFF then some (.flaw .inside rest)
  else some (.char (Char.ofNat n) rest)

/-- The next step inside a string; control characters have to be escaped. Whether the bytes are
characters is looked at when the string has come to its end. -/
def piece? : Gapped → Option Piece
  | [] => none
  | none :: rest => some (.flaw .atEnd rest)
  | some '"' :: rest => some (.close rest)
  | some '\\' :: some 'u' :: rest => do
    let (n, rest) ← hex4? rest
    unicodeEscape n rest
  | some '\\' :: some c :: rest => (shortEscape? c).map (Piece.char · rest)
  | some '\\' :: _ => none
  | some c :: rest => if c.toNat < 0x20 then none else some (.char c rest)

/-- The rest of a string after its opening quote, with the flaw found so far. The fuel bounds the number
of steps. -/
def string? : Nat → List Char → Option Flaw → Gapped → Option (Except Flaw String × Gapped)
  | 0, _, _, _ => none
  | fuel + 1, acc, found, s =>
    match piece? s with
    | none => none
    | some (.close rest) =>
      match found with
      | none => some (.ok (String.ofList acc.reverse), rest)
      | some f => some (.error f, rest)
    | some (.char c rest) => string? fuel (c :: acc) found rest
    | some (.flaw f rest) => string? fuel acc (some (Flaw.join found f)) rest

/-- What is left after a word that has to stand at the front. -/
def word? (w : String) (s : Gapped) : Option Gapped :=
  let cs := w.toList.map some
  if s.take cs.length == cs then some (s.drop cs.length) else none

mutual

/-- One value and what is left after it. The fuel bounds the number of steps. -/
def value? : Nat → Gapped → Option (Value × Gapped)
  | 0, _ => none
  | fuel + 1, s =>
    match skip s with
    | some 'n' :: rest => (word? "ull" rest).map (Value.null, ·)
    | some 't' :: rest => (word? "rue" rest).map (Value.bool true, ·)
    | some 'f' :: rest => (word? "alse" rest).map (Value.bool false, ·)
    | some '"' :: rest =>
      (string? (rest.length + 1) [] none rest).map fun (s, rest) => (.ofSpelling s, rest)
    | some '-' :: rest => (number? true rest).map fun (n, rest) => (.number n, rest)
    | some '[' :: rest =>
      match skip rest with
      | some ']' :: rest => some (.array [], rest)
      | rest => (items? fuel [] rest).map fun (l, rest) => (.array l, rest)
    | some '\x7b' :: rest =>
      match skip rest with
      | some '\x7d' :: rest => some (.object [], rest)
      | rest => (members? fuel [] rest).map fun (l, rest) => (.object l, rest)
    | rest => (number? false rest).map fun (n, rest) => (.number n, rest)

/-- The items of a list up to its end. -/
def items? : Nat → List Value → Gapped → Option (List Value × Gapped)
  | 0, _, _ => none
  | fuel + 1, acc, s =>
    match value? fuel s with
    | none => none
    | some (v, rest) =>
      match skip rest with
      | some ',' :: rest => items? fuel (v :: acc) rest
      | some ']' :: rest => some ((v :: acc).reverse, rest)
      | _ => none

/-- The members of an object up to its end. -/
def members? : Nat → List (Option String × Value) → Gapped →
    Option (List (Option String × Value) × Gapped)
  | 0, _, _ => none
  | fuel + 1, acc, s =>
    match skip s with
    | some '"' :: rest =>
      match string? (rest.length + 1) [] none rest with
      | none => none
      | some (k, rest) =>
        match skip rest with
        | some ':' :: rest =>
          match value? fuel rest with
          | none => none
          | some (v, rest) =>
            match skip rest with
            | some ',' :: rest => members? fuel ((k.toOption, v) :: acc) rest
            | some '\x7d' :: rest => some (((k.toOption, v) :: acc).reverse, rest)
            | _ => none
        | _ => none
    | _ => none

end

end Reader

/-- The value that fills the text, blanks around it allowed. -/
def parseGapped (s : Gapped) : Option Value :=
  match Reader.value? (s.length + 1) s with
  | some (v, rest) => if (Reader.skip rest).isEmpty then some v else none
  | none => none

def parse (s : String) : Option Value :=
  parseGapped (s.toList.map some)

/-- The value that fills the text of the bytes. -/
def parseBytes (bytes : List UInt8) : Option Value :=
  parseGapped (Text.Utf8.decode bytes)

end Turnstile.Json
