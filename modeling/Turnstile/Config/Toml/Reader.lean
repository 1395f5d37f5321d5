import Turnstile.Config.Toml.Document
import Turnstile.Config.Toml.Scalar
/-!
# Reading documents of tables

A document is a sequence of lines: a header in brackets, a name with a value, or nothing, each with an
optional comment. Readers take from the front of the text and return what is left.
-/

namespace Turnstile.Config.Toml

def isBlank (c : Char) : Bool := c = ' ' || c = '\t'

def skip (cs : List Char) : List Char := cs.dropWhile isBlank

/-- A character that may stand neither in a comment nor, as it is, in a text of one line. -/
def isControl (c : Char) : Bool := (c.toNat < 0x20 && c != '\t') || c.toNat = 0x7F

/-- What is left after the end of a line at the front. -/
def lineEnd? : List Char → Option (List Char)
  | '\n' :: rest => some rest
  | '\r' :: '\n' :: rest => some rest
  | _ => none

def skipComment? (cs : List Char) : Option (List Char) :=
  match skip cs with
  | '#' :: rest =>
    let rest := rest.dropWhile (!isControl ·)
    if rest.isEmpty || (lineEnd? rest).isSome then some rest else none
  | rest => some rest

/-- What is left after the rest of a line that may hold a comment. -/
def finishLine? (cs : List Char) : Option (List Char) := do
  let rest ← skipComment? cs
  if rest.isEmpty then return [] else lineEnd? rest

/-- What is left after blanks, comments and ends of lines. The fuel bounds the number of lines. -/
def skipLines? : Nat → List Char → Option (List Char)
  | 0, cs => some cs
  | fuel + 1, cs => do
    let rest ← skipComment? cs
    match lineEnd? rest with
    | some rest => skipLines? fuel rest
    | none => return rest

/-! ### Texts -/

def escape? : Char → Option Char
  | 'b' => some '\x08'
  | 't' => some '\t'
  | 'n' => some '\n'
  | 'f' => some '\x0c'
  | 'r' => some '\r'
  | '"' => some '"'
  | '\\' => some '\\'
  | _ => none

/-- The character with the code point that some hexadecimal digits write. -/
def codePoint? (digits : List Char) : Option Char := do
  let n ← Url.digitsIn? 16 digits
  if n.isValidChar then return Char.ofNat n else none

def escaped? : List Char → Option (Char × List Char)
  | 'u' :: rest => do
    if (rest.take 4).length < 4 then none
    return (← codePoint? (rest.take 4), rest.drop 4)
  | 'U' :: rest => do
    if (rest.take 8).length < 8 then none
    return (← codePoint? (rest.take 8), rest.drop 8)
  | c :: rest => (escape? c).map (·, rest)
  | [] => none

/-- The rest of a text of one line after its opening quote. The fuel bounds the number of characters. -/
def basic? : Nat → List Char → List Char → Option (List Char × List Char)
  | 0, _, _ => none
  | _, _, [] => none
  | _, acc, '"' :: rest => some (acc.reverse, rest)
  | fuel + 1, acc, '\\' :: rest => do
    let (c, rest) ← escaped? rest
    basic? fuel (c :: acc) rest
  | fuel + 1, acc, c :: rest => if isControl c then none else basic? fuel (c :: acc) rest

/-- The rest of a text of one line without escapes. -/
def literal? : List Char → List Char → Option (List Char × List Char)
  | _, [] => none
  | acc, '\'' :: rest => some (acc.reverse, rest)
  | acc, c :: rest => if isControl c then none else literal? (c :: acc) rest

/-- The end of a text of several lines: up to two quotes before the closing three belong to it. -/
def closing? (quote : Char) (cs : List Char) : Option (List Char × List Char) :=
  let n := (cs.takeWhile (· == quote)).length
  if n < 3 then none
  else
    let kept := min (n - 3) 2
    some (List.replicate kept quote, cs.drop (kept + 3))

/-- A character of a text of several lines, as it is; ends of lines are one character. -/
def plain? : List Char → Option (Char × List Char)
  | '\r' :: '\n' :: rest => some ('\n', rest)
  | c :: rest => if isControl c && c != '\n' then none else some (c, rest)
  | [] => none

/-- The rest of a text of several lines. The fuel bounds the number of characters. -/
def longBasic? : Nat → List Char → List Char → Option (List Char × List Char)
  | 0, _, _ => none
  | fuel + 1, acc, cs =>
    match closing? '"' cs with
    | some (kept, rest) => some (acc.reverse ++ kept, rest)
    | none =>
      match cs with
      | '\\' :: rest =>
        match lineEnd? (skip rest) with
        | some rest => longBasic? fuel acc (rest.dropWhile fun c => isBlank c || c = '\n' || c = '\r')
        | none => do
          let (c, rest) ← escaped? rest
          longBasic? fuel (c :: acc) rest
      | cs => do
        let (c, rest) ← plain? cs
        longBasic? fuel (c :: acc) rest

/-- The rest of a text of several lines without escapes. The fuel bounds the number of characters. -/
def longLiteral? : Nat → List Char → List Char → Option (List Char × List Char)
  | 0, _, _ => none
  | fuel + 1, acc, cs =>
    match closing? '\'' cs with
    | some (kept, rest) => some (acc.reverse ++ kept, rest)
    | none => do
      let (c, rest) ← plain? cs
      longLiteral? fuel (c :: acc) rest

/-- A text of several lines leaves out an end of line right after its opening quotes. -/
def firstLine (cs : List Char) : List Char := (lineEnd? cs).getD cs

def quoted? (cs : List Char) : Option (List Char × List Char) :=
  match cs with
  | '"' :: '"' :: '"' :: rest => longBasic? (rest.length + 1) [] (firstLine rest)
  | '\'' :: '\'' :: '\'' :: rest => longLiteral? (rest.length + 1) [] (firstLine rest)
  | '"' :: rest => basic? (rest.length + 1) [] rest
  | '\'' :: rest => literal? [] rest
  | _ => none

/-! ### Names -/

def isNameChar (c : Char) : Bool := c.isAlphanum || c = '_' || c = '-'

def name? (cs : List Char) : Option (String × List Char) :=
  match cs with
  | '"' :: rest => (basic? (rest.length + 1) [] rest).map fun (s, rest) => (String.ofList s, rest)
  | '\'' :: rest => (literal? [] rest).map fun (s, rest) => (String.ofList s, rest)
  | _ =>
    let name := cs.takeWhile isNameChar
    if name.isEmpty then none else some (String.ofList name, cs.drop name.length)

/-- A dotted name and what is left after blanks. The fuel bounds the number of its parts. -/
def path? : Nat → List Char → Option (List String × List Char)
  | 0, _ => none
  | fuel + 1, cs => do
    let (name, rest) ← name? (skip cs)
    match skip rest with
    | '.' :: rest => do
      let (names, rest) ← path? fuel rest
      return (name :: names, rest)
    | rest => return ([name], rest)

/-! ### Values -/

def isWordChar (c : Char) : Bool := isNameChar c || c = '+' || c = '.' || c = ':'

/-- A word at the front; a date is joined by the time that follows a blank. -/
def word (cs : List Char) : List Char :=
  let first := cs.takeWhile isWordChar
  match cs.drop first.length with
  | ' ' :: rest =>
    let second := rest.takeWhile isWordChar
    if afterDate? first = some [] && (time? second).isSome then first ++ ' ' :: second else first
  | _ => first

mutual

/-- A value. The fuel bounds the number of steps. -/
def value? : Nat → List Char → Option (Tree × List Char)
  | 0, _ => none
  | fuel + 1, cs =>
    match cs with
    | '"' :: _ | '\'' :: _ => (quoted? cs).map fun (s, rest) => (.text (String.ofList s), rest)
    | '[' :: rest => (items? fuel [] rest).map fun (l, rest) => (.list l, rest)
    | '\x7b' :: rest =>
      match skip rest with
      | '\x7d' :: rest => some (.table [], rest)
      | rest => (inline? fuel [] rest).map fun (entries, rest) => (.table (treeEntries entries), rest)
    | _ =>
      let w := word cs
      (scalar? w).map (·, cs.drop w.length)

/-- The items of a list up to its end; a comma may stand after the last one. -/
def items? : Nat → List Tree → List Char → Option (List Tree × List Char)
  | 0, _, _ => none
  | fuel + 1, acc, cs => do
    match ← skipLines? cs.length cs with
    | ']' :: rest => return (acc.reverse, rest)
    | rest =>
      let (v, rest) ← value? fuel rest
      match ← skipLines? rest.length rest with
      | ',' :: rest => items? fuel (v :: acc) rest
      | ']' :: rest => return ((v :: acc).reverse, rest)
      | _ => none

/-- The entries of a table on one line up to its end. -/
def inline? : Nat → Entries → List Char → Option (Entries × List Char)
  | 0, _, _ => none
  | fuel + 1, entries, cs => do
    let (path, rest) ← path? cs.length cs
    let '=' :: rest := rest | none
    let (v, rest) ← value? fuel (skip rest)
    let entries ← add path v entries
    match skip rest with
    | ',' :: rest => inline? fuel entries rest
    | '\x7d' :: rest => return (entries, rest)
    | _ => none

end

/-! ### Documents -/

structure Draft where
  root : Entries := []
  header : List String := []

def header? (d : Draft) (cs : List Char) : Option (Draft × List Char) := do
  let (isItem, rest) := match cs with | '[' :: rest => (true, rest) | _ => (false, cs)
  let (path, rest) ← path? rest.length rest
  let rest ←
    match isItem, rest with
    | true, ']' :: ']' :: rest => some rest
    | false, ']' :: rest => some rest
    | _, _ => none
  let name ← path.getLast?
  let root ← within path.dropLast (if isItem then openItem name else openTable name) d.root
  return ({ root, header := path }, rest)

def entry? (d : Draft) (cs : List Char) : Option (Draft × List Char) := do
  let (path, rest) ← path? cs.length cs
  let '=' :: rest := rest | none
  let (v, rest) ← value? (rest.length + 1) (skip rest)
  return ({ d with root := ← within d.header (add path v) d.root }, rest)

/-- Reads the lines of a document. The fuel bounds their number. -/
def lines? : Nat → Draft → List Char → Option Draft
  | 0, _, _ => none
  | fuel + 1, d, cs => do
    match ← skipLines? cs.length cs with
    | [] => return d
    | '[' :: rest =>
      let (d, rest) ← header? d rest
      lines? fuel d (← finishLine? rest)
    | rest =>
      let (d, rest) ← entry? d rest
      lines? fuel d (← finishLine? rest)

/-- The entries of a document; a byte order mark at its front is skipped. -/
def document? (s : String) : Option (List (String × Tree)) :=
  let cs := match s.toList with | '\ufeff' :: rest => rest | cs => cs
  (lines? (cs.length + 1) {} cs).map fun d => treeEntries d.root

end Turnstile.Config.Toml
