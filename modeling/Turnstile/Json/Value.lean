import Turnstile.Json.Number
/-!
# JSON values

A value as it stands in a text: members in order and with repetitions, numbers as spelt. A string whose
spelling denotes no text (half of a surrogate pair, or bytes that are no character) is harmless where
nobody looks at it and an error where its text is wanted. A reader that takes such an error for an answer
goes on from where it stands then, so there are two kinds of them: `string none`, which the reader has
behind it, and `torn`, amidst which it has stopped.
-/

namespace Turnstile.Json

/-- Where a reader stands that has looked for a text or a number in vain. -/
inductive Flaw where
  /-- Behind what it could not read. -/
  | atEnd
  /-- Amidst it, with some of its characters still ahead. -/
  | inside
deriving DecidableEq, Repr

namespace Flaw

/-- Of two flaws in one string, a half of a surrogate pair that holds the reader up counts. -/
def join : Option Flaw → Flaw → Flaw
  | some .inside, _ => .inside
  | _, f => f

/-- Where a reader stands that goes through a list up to the first flaw in it: it is past the list only if
it is past the item with the flaw and no other one follows. -/
def first? : List (Option Flaw) → Option Flaw
  | [] => none
  | none :: rest => first? rest
  | some f :: rest => some (if rest.isEmpty then f else .inside)

end Flaw

inductive Value where
  | null
  | bool (b : Bool)
  | number (n : Number)
  /-- A string, or `none` if its spelling denotes no text and a reader finds out at its end. -/
  | string (s : Option String)
  /-- A string whose spelling denotes no text, and in which a reader stops. -/
  | torn
  | array (items : List Value)
  | object (members : List (Option String × Value))

namespace Value

def text (s : String) : Value := .string (some s)

/-- The string of a text, or of a spelling with a flaw. -/
def ofSpelling : Except Flaw String → Value
  | .ok s => text s
  | .error .atEnd => .string none
  | .error .inside => .torn

def int (n : Int) : Value := .number (.ofInt n)

def texts (l : List String) : Value := .array (l.map text)

def record (members : List (String × Value)) : Value :=
  .object (members.map fun m => (some m.1, m.2))

mutual

/-- How many lists and objects are open at the innermost point. -/
def depth : Value → Nat
  | .array items => depthAll items + 1
  | .object members => depthMembers members + 1
  | _ => 0

def depthAll : List Value → Nat
  | [] => 0
  | v :: rest => max (depth v) (depthAll rest)

def depthMembers : List (Option String × Value) → Nat
  | [] => 0
  | (_, v) :: rest => max (depth v) (depthMembers rest)

end

mutual

/-- Where a reader stands that has met something unreadable in the value, `none` if there is no such
thing. A name that cannot be read leaves its value ahead. -/
def flaw? : Value → Option Flaw
  | .string none => some .atEnd
  | .torn => some .inside
  | .number n => if n.inRange then none else if n.overruns then some .inside else some .atEnd
  | .array items => Flaw.first? (flaws items)
  | .object members => Flaw.first? (memberFlaws members)
  | _ => none

def flaws : List Value → List (Option Flaw)
  | [] => []
  | v :: rest => flaw? v :: flaws rest

def memberFlaws : List (Option String × Value) → List (Option Flaw)
  | [] => []
  | (k, v) :: rest => (if k.isNone then some .inside else flaw? v) :: memberFlaws rest

end

/-- Every string in the value is a text and every number has a value. -/
def isReadable (v : Value) : Bool := v.flaw?.isNone

/-- The depth from which on a value that is read without a type is refused. -/
def depthLimit : Nat := 128

end Value

end Turnstile.Json
