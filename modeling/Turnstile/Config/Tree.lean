import Turnstile.Config.Reading
import Turnstile.Decimal.Nearest
/-!
# Trees of settings

What files and environment say, before it is known which settings there are. Names are in small letters
once a value has been put into the tree. Putting a table merges it, entry by entry, into the table that is
there; putting anything else replaces what is there. A setting takes the value it finds in the form it
needs: a text may give a number, a number a text, and a number or one of a few words a truth value.
-/

namespace Turnstile.Config

inductive Tree where
  | null
  | bool (b : Bool)
  | int (n : Int)
  | float (f : Float)
  | text (s : String)
  | list (items : List Tree)
  | table (entries : List (String × Tree))

namespace Tree

/-! ### Putting values into a tree -/

/-- The entries of a table; any other value gives way to an empty one. -/
def entries : Tree → List (String × Tree)
  | .table entries => entries
  | _ => []

/-- Changes the entry with a name, or appends one. -/
def alter (name : String) (f : Option Tree → Tree) : List (String × Tree) → List (String × Tree)
  | [] => [(name, f none)]
  | (n, t) :: rest => if n = name then (n, f (some t)) :: rest else (n, t) :: alter name f rest

mutual

def put (name : String) : Tree → Tree → Tree
  | .table new, root =>
    .table (alter (Text.lower name) (fun old => putAll new (old.getD (.table []))) root.entries)
  | v, root => .table (alter (Text.lower name) (fun _ => v) root.entries)

def putAll : List (String × Tree) → Tree → Tree
  | [], root => root
  | (name, v) :: rest, root => putAll rest (put name v root)

end

/-- Puts a value at the end of a path of names, making tables on the way. -/
def putAt : List String → Tree → Tree → Tree
  | [], _, root => root
  | [name], v, root => put name v root
  | name :: rest, v, root =>
    .table (alter name (fun old => putAt rest v (old.getD .null)) root.entries)

def isPathChar (c : Char) : Bool := c.isAlphanum || c = ' ' || c = '_' || c = '-'

/-- The names of a path written with points; a text that is no such path is one name. Subscripts, by which a path
may also lead to an item of a list, are left out: a path with one of them is no such path here. -/
def pathOf (s : String) : List String :=
  let names := Text.parts '.' s
  if names.all fun n => !n.isEmpty && n.toList.all isPathChar then names else [s]

/-- Puts the entries of one source on top of what is there; their names may be paths. -/
def overlay (root : Tree) (source : List (String × Tree)) : Tree :=
  source.foldl (fun root (name, v) => putAt (pathOf name) v root) root

/-! ### The forms of a value -/

def yesWords : List String := ["true", "on", "yes"]

def noWords : List String := ["false", "off", "no"]

def truth? (s : String) : Option Bool :=
  let word := Text.lower s
  if yesWords.contains word then some true else if noWords.contains word then some false else none

/-- A floating-point number as an integer from `low` to `high`: rounded, a half away from zero, and
moved into the range. What is no number is zero. -/
def roundInto (low high : Int) (f : Float) : Int :=
  if f.isNaN then 0
  else
    let f := f.round
    if f < 0.0 then if f ≤ -9223372036854775808.0 then max low (-9223372036854775808)
      else max low (-((-f).toUInt64.toNat : Int))
    else if 18446744073709551616.0 ≤ f then high
    else min high (f.toUInt64.toNat : Int)

/-- The value as an integer from `low` to `high`; `readText` reads one from a text. -/
def integer? (low high : Int) (readText : String → Option Int) : Tree → Option Int
  | .int n => if low ≤ n ∧ n ≤ high then some n else none
  | .bool b => some (if b then 1 else 0)
  | .float f => some (roundInto low high f)
  | .text s =>
    match truth? s with
    | some b => some (if b then 1 else 0)
    | none => readText s
  | _ => none

def truthValue? : Tree → Option Bool
  | .bool b => some b
  | .int n => some (n != 0)
  | .float f => some (f != 0.0)
  | .text s => if s = "1" then some true else if s = "0" then some false else truth? s
  | _ => none

def floatValue? : Tree → Option Float
  | .float f => some f
  | .int n => some (Decimal.nearest (n < 0) n.natAbs 0)
  | .bool b => some (if b then 1.0 else 0.0)
  | .text s =>
    match truth? s with
    | some b => some (if b then 1.0 else 0.0)
    | none => Decimal.read? s
  | _ => none

def textValue? : Tree → Option String
  | .text s => some s
  | .bool b => some (if b then "true" else "false")
  | .int n => some (Text.intText n)
  | .float f => some (Decimal.floatText f)
  | _ => none

/-- The name among some that a word gives, whatever its case. -/
def nameAmong? (names : List String) (word : String) : Option String :=
  names.find? fun n => Text.lower n == Text.lower word

/-- How the values of a tree are understood. A name may also be given as the only entry of a table. -/
def reader : Reader Tree where
  text? := textValue?
  int? := integer? (-(Text.maxInt64 + 1)) Text.maxInt64 fun s => (Text.readInt64 s).toOption
  nat? := fun bound t =>
    ((integer? 0 Text.maxNat64 (fun s => (Text.readNat64 s).toOption.map Int.ofNat) t).map Int.toNat).filter
      (· ≤ bound)
  bool? := truthValue?
  float? := floatValue?
  isNull := fun t => match t with | .null => true | _ => false
  items? := fun t => match t with | .list items => some items | _ => none
  choice? := fun names t =>
    match t with
    | .text s => nameAmong? names s
    | .table [(s, _)] => nameAmong? names s
    | _ => none
  fields? := fun names t =>
    match t with
    | .table entries => some (entries.filter fun e => names.contains e.1)
    | .list items => some (names.zip items)
    | _ => none

def settings? (t : Tree) : Option Settings := reader.settings? t

end Tree

end Turnstile.Config
