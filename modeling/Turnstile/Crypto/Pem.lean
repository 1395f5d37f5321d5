import Turnstile.Text.Base64
import Turnstile.Text.Blank
/-!
# PEM

Binary content inside a text, between a line that begins it and a line that ends it, both naming what
it is. Text before the first and after the second does not matter. Header lines may precede the
content, with an empty line between.
-/

namespace Turnstile.Crypto.Pem

structure Block where
  label : String
  content : List UInt8

/-- Splits a text at the first occurrence of a mark. -/
def splitAt? (mark : List Char) (s : List Char) : Option (List Char × List Char) :=
  go [] s
where
  go (before : List Char) : List Char → Option (List Char × List Char)
    | [] => if mark.isEmpty then some (before.reverse, []) else none
    | c :: rest =>
      if mark.isPrefixOf (c :: rest) then some (before.reverse, (c :: rest).drop mark.length)
      else go (c :: before) rest

/-- The lines of a text; a carriage return before a line feed belongs to the line end. -/
def lines (s : List Char) : List (List Char) :=
  ((String.ofList s).splitOn "\n").map fun l =>
    match l.toList.reverse with
    | '\r' :: r => r.reverse
    | _ => l.toList

/-- Whether a header line has a name and a value. -/
def isHeader (l : List Char) : Bool := l.contains ':'

def headersAndData (body : List Char) : List Char × List Char :=
  match splitAt? ['\n', '\n'] body with
  | some parts => parts
  | none => (splitAt? ['\r', '\n', '\r', '\n'] body).getD ([], body)

def parse? (text : String) : Option Block := do
  let dashes := "-----".toList
  let isGap (c : Char) : Bool := c == ' ' || c == '\t' || c == '\n' || c == '\r'
  let (_, s) ← splitAt? "-----BEGIN ".toList text.toList
  let (label, s) ← splitAt? dashes s
  let (body, s) ← splitAt? "-----END ".toList (s.dropWhile isGap)
  let (endLabel, _) ← splitAt? dashes s
  if label.isEmpty || label != endLabel then none
  let (headers, data) := headersAndData body
  if !((lines headers).all fun l => l.isEmpty || isHeader l) then none
  let content ← Text.Base64.decodePadded? ((lines data).flatMap Text.trimRight)
  return { label := String.ofList label, content }

end Turnstile.Crypto.Pem
