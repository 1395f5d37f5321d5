import Turnstile.Json.Value
import Turnstile.Text.Ranges
/-!
# Writing JSON

The compact form of a value: no blanks, members in order, the short escapes where there is one, other
control characters by their code points, and everything else as it is.
-/

namespace Turnstile.Json

def escapeChar (c : Char) : List Char :=
  if c = '"' then ['\\', '"']
  else if c = '\\' then ['\\', '\\']
  else if c = '\n' then ['\\', 'n']
  else if c = '\r' then ['\\', 'r']
  else if c = '\t' then ['\\', 't']
  else if c = '\x08' then ['\\', 'b']
  else if c = '\x0c' then ['\\', 'f']
  else if c.toNat < 0x20 then
    ['\\', 'u', '0', '0', Text.hexDigit (c.toNat / 16), Text.hexDigit (c.toNat % 16)]
  else [c]

def stringChars (s : List Char) : List Char :=
  '"' :: s.flatMap escapeChar ++ ['"']

def digitChars (ds : List Nat) : List Char :=
  ds.map Text.hexDigit

def Number.chars (n : Number) : List Char :=
  (if n.negative then ['-'] else []) ++ digitChars n.whole
    ++ (match n.fraction with | none => [] | some ds => '.' :: digitChars ds)
    ++ (match n.exponent with
      | none => []
      | some (down, ds) => 'e' :: (if down then ['-'] else []) ++ digitChars ds)

mutual

/-- The compact text of a value. A string without a text is written empty. -/
def Value.chars : Value → List Char
  | .null => "null".toList
  | .bool true => "true".toList
  | .bool false => "false".toList
  | .number n => n.chars
  | .string s => stringChars (s.getD "").toList
  | .torn => stringChars []
  | .array items => '[' :: itemChars items ++ [']']
  | .object members => '\x7b' :: memberChars members ++ ['\x7d']

def itemChars : List Value → List Char
  | [] => []
  | [v] => v.chars
  | v :: w :: rest => v.chars ++ ',' :: itemChars (w :: rest)

def memberChars : List (Option String × Value) → List Char
  | [] => []
  | [(k, v)] => stringChars (k.getD "").toList ++ ':' :: v.chars
  | (k, v) :: m :: rest =>
    stringChars (k.getD "").toList ++ ':' :: v.chars ++ ',' :: memberChars (m :: rest)

end

def Value.render (v : Value) : String := String.ofList v.chars

end Turnstile.Json
