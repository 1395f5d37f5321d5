import Turnstile.Config.Tree
/-!
# Documents of tables

A document is built entry by entry under the header that precedes it. A table is written once: by its own
header, or by dotted names of the entries of one other table. Until a header of its own comes, a table that
was only passed on the way to another one is open. A list of tables grows with each of its headers, and
what follows belongs to its last table.
-/

namespace Turnstile.Config.Toml

inductive Origin where
  | header
  | passed
  | dotted
deriving DecidableEq, Repr

inductive Node where
  | value (v : Tree)
  | table (origin : Origin) (entries : List (String × Node))
  | tables (items : List (List (String × Node)))

abbrev Entries := List (String × Node)

/-- Sets the entry with a name, in its place or at the end. -/
def Entries.set (name : String) (n : Node) : Entries → Entries
  | [] => [(name, n)]
  | (k, old) :: rest => if k = name then (k, n) :: rest else (k, old) :: Entries.set name n rest

def changeLast (f : Entries → Option Entries) : List Entries → Option (List Entries)
  | [] => none
  | [last] => do return [← f last]
  | first :: rest => do return first :: (← changeLast f rest)

/-- Changes the table that a header leads to, through the tables named before it. -/
def within (path : List String) (f : Entries → Option Entries) (entries : Entries) : Option Entries :=
  match path with
  | [] => f entries
  | name :: rest =>
    match entries.lookup name with
    | none => do return Entries.set name (.table .passed (← within rest f [])) entries
    | some (.value _) => none
    | some (.table origin inner) => do
      return Entries.set name (.table origin (← within rest f inner)) entries
    | some (.tables items) => do
      return Entries.set name (.tables (← changeLast (within rest f) items)) entries

/-- Opens the table with a name by its header. -/
def openTable (name : String) (entries : Entries) : Option Entries :=
  match entries.lookup name with
  | none => some (Entries.set name (.table .header []) entries)
  | some (.table .passed inner) => some (Entries.set name (.table .header inner) entries)
  | _ => none

/-- Appends a table to the list with a name. -/
def openItem (name : String) (entries : Entries) : Option Entries :=
  match entries.lookup name with
  | none => some (Entries.set name (.tables [[]]) entries)
  | some (.tables items) => some (Entries.set name (.tables (items ++ [[]])) entries)
  | _ => none

/-- Adds a value under a dotted name; the tables on the way come from dotted names alone. -/
def add : List String → Tree → Entries → Option Entries
  | [], _, _ => none
  | [name], v, entries =>
    if (entries.lookup name).isSome then none else some (entries ++ [(name, .value v)])
  | name :: rest, v, entries =>
    match entries.lookup name with
    | none => do return entries ++ [(name, .table .dotted (← add rest v []))]
    | some (.table .dotted inner) => do
      return Entries.set name (.table .dotted (← add rest v inner)) entries
    | some (.table .passed inner) =>
      if rest.length = 1 then none
      else do return Entries.set name (.table .passed (← add rest v inner)) entries
    | _ => none

mutual

def Node.tree : Node → Tree
  | .value v => v
  | .table _ entries => .table (treeEntries entries)
  | .tables items => .list (treeItems items)

def treeEntries : List (String × Node) → List (String × Tree)
  | [] => []
  | (name, n) :: rest => (name, n.tree) :: treeEntries rest

def treeItems : List (List (String × Node)) → List Tree
  | [] => []
  | entries :: rest => .table (treeEntries entries) :: treeItems rest

end

end Turnstile.Config.Toml
