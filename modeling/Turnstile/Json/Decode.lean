import Turnstile.Json.Reader
/-!
# Reading records out of JSON values

A record is given as an object with named members or as a list of its fields in order. In an object a
known name occurs at most once and unknown names are passed over, but every name has to be readable.
In a list there are no more items than fields. `Fields` is the record taken apart that way; its
accessors say what happens to a field that is not there.
-/

namespace Turnstile.Json

namespace Value

def text? : Value → Option String
  | .string s => s
  | _ => none

/-- The integer of a number that is a signed 64-bit integer. -/
def int64? : Value → Option Int
  | .number n => n.int64?
  | _ => none

/-- The natural number of a number that is at most `bound`. -/
def nat? (bound : Nat) : Value → Option Nat
  | .number n => n.nat? bound
  | _ => none

def bool? : Value → Option Bool
  | .bool b => some b
  | _ => none

/-- The value of a number as a floating-point number. -/
def float? : Value → Option Float
  | .number n => n.float?
  | _ => none

/-- The items of a list, each read by `item?`. -/
def list? {α : Type} (item? : Value → Option α) : Value → Option (List α)
  | .array items => items.mapM item?
  | _ => none

def texts? (v : Value) : Option (List String) := v.list? text?

/-- A value that may be absent: `null` stands for absence. -/
def orNull? {α : Type} (read : Value → Option α) : Value → Option (Option α)
  | .null => some none
  | v => (read v).map some

end Value

structure Fields where
  inOrder : Bool
  given : List (String × Value)

namespace Fields

/-- Takes the members of an object whose names are known; `none` if one of them is repeated or a
name cannot be read. -/
def ofMembers? (names : List String) :
    List (String × Value) → List (Option String × Value) → Option (List (String × Value))
  | acc, [] => some acc.reverse
  | _, (none, _) :: _ => none
  | acc, (some k, v) :: rest =>
    if names.contains k then
      if acc.any (·.1 == k) then none else ofMembers? names ((k, v) :: acc) rest
    else ofMembers? names acc rest

/-- Takes a value apart into the fields with the given names. -/
def of? (names : List String) : Value → Option Fields
  | .object members => (ofMembers? names [] members).map (Fields.mk false)
  | .array items => if names.length < items.length then none else some ⟨true, names.zip items⟩
  | _ => none

def get? (f : Fields) (name : String) : Option Value := f.given.lookup name

def required {α : Type} (f : Fields) (name : String) (read : Value → Option α) : Option α :=
  (f.get? name).bind read

/-- A field that has a value when it is not given. -/
def withDefault {α : Type} (f : Fields) (name : String) (default : α) (read : Value → Option α) :
    Option α :=
  match f.get? name with
  | none => some default
  | some v => read v

/-- A field that may be absent or `null`, but not left out at the end of a list. -/
def optional {α : Type} (f : Fields) (name : String) (read : Value → Option α) : Option (Option α) :=
  match f.get? name with
  | none => if f.inOrder then none else some none
  | some v => v.orNull? read

end Fields

end Turnstile.Json
