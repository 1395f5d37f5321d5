import Turnstile.Config.Toml.Reader
/-!
# Layers of settings

Settings come from up to three files and from the environment, each on top of the one before: the
defaults and the local changes that lie in `config`, a file that was asked for, and the variables whose
names begin with `GATEWAY_`. Only the file that was asked for has to be there. The form of a file is told
by its extension; a file that is there and cannot be read in its form is an error. Of the forms
that a file may have, only TOML and JSON are read here. YAML, INI, RON and JSON5 are left out: a file in one of
these counts as not found.

The value of a variable is taken for a truth value, an integer or a floating-point number if it can be read
as one, and for a text if not.
-/

namespace Turnstile.Config

/-! ### Files -/

/-- The forms of files that are read here. -/
inductive FileFormat where
  | toml
  | json
deriving DecidableEq, Repr

def FileFormat.extensions : List (String × FileFormat) := [("toml", .toml), ("json", .json)]

mutual

/-- A JSON value as part of a tree. Of members with one name the last one counts. -/
def treeOfJson : Json.Value → Tree
  | .null => .null
  | .bool b => .bool b
  | .number n =>
    match n.int64? with
    | some v => .int v
    | none => .float (n.float?.getD 0.0)
  | .string s => .text (s.getD "")
  | .torn => .text ""
  | .array items => .list (treesOfItems items)
  | .object members => .table (entriesOfMembers members)

def treesOfItems : List Json.Value → List Tree
  | [] => []
  | v :: rest => treeOfJson v :: treesOfItems rest

def entriesOfMembers : List (Option String × Json.Value) → List (String × Tree)
  | [] => []
  | (name, v) :: rest =>
    let later := entriesOfMembers rest
    let name := name.getD ""
    if later.any (·.1 == name) then later else (name, treeOfJson v) :: later

end

/-- The entries of a JSON text: an object that is readable throughout. -/
def jsonEntries? (s : String) : Option (List (String × Tree)) := do
  let v ← Json.parse s
  if v.isReadable ∧ v.depth < Json.Value.depthLimit then
    match v with
    | .object members => return entriesOfMembers members
    | _ => none
  else none

/-- The text without a byte order mark at its front. -/
def withoutMark (s : String) : String :=
  match s.toList with
  | '\ufeff' :: rest => String.ofList rest
  | _ => s

def FileFormat.entries? (format : FileFormat) (content : String) : Option (List (String × Tree)) :=
  match format with
  | .toml => Toml.document? (withoutMark content)
  | .json => jsonEntries? (withoutMark content)

abbrev Files := String → Option String

/-- The extension of a file name: what follows the last point, unless that begins the name. -/
def extension? (name : String) : Option String :=
  let base := (Text.parts '/' name).getLast?.getD ""
  match (Text.parts '.' base).reverse with
  | ext :: stem :: more => if stem.isEmpty ∧ more.isEmpty then none else some ext
  | _ => none

/-- The file of a name and its form: the file itself if it is there, or else the first that is called the
same but for an extension. A file whose extension says nothing counts as not found. -/
def findFile? (files : Files) (name : String) : Option (FileFormat × String) :=
  match files name with
  | some content => (extension? name >>= fun ext => FileFormat.extensions.lookup ext).map (·, content)
  | none => FileFormat.extensions.findSome? fun (ext, format) => (files (name ++ "." ++ ext)).map (format, ·)

/-- The entries of a file; one that is not found has none, unless it has to be there. -/
def fileEntries? (files : Files) (isRequired : Bool) (name : String) : Option (List (String × Tree)) :=
  match findFile? files name with
  | some (format, content) => format.entries? content
  | none => if isRequired then none else some []

/-! ### The environment -/

def variableStem : String := "gateway_"

/-- The text with every pair of underscores replaced by a point. -/
def pointed : List Char → List Char
  | '_' :: '_' :: rest => '.' :: pointed rest
  | c :: rest => c :: pointed rest
  | [] => []

/-- The path of the setting that a variable sets, whatever the case of its name. -/
def variablePath? (name : String) : Option String :=
  let cs := (Text.lower name).toList
  let stem := variableStem.toList
  if stem.isPrefixOf cs then some (String.ofList (pointed (cs.drop stem.length))) else none

def variableValue (s : String) : Tree :=
  match Text.lower s with
  | "true" => .bool true
  | "false" => .bool false
  | _ =>
    match Text.readInt64 s with
    | .ok n => .int n
    | .error _ =>
      match Decimal.read? s with
      | some f => .float f
      | none => .text s

def variableEntries (named : List (String × String)) : List (String × Tree) :=
  named.filterMap fun (name, value) => (variablePath? name).map (·, variableValue value)

/-! ### All layers -/

def layers? (files : Files) (named : List (String × String)) (path : Option String) : Option Tree := do
  let defaults ← fileEntries? files false "config/default"
  let changes ← fileEntries? files false "config/local"
  let asked ←
    match path with
    | some path => fileEntries? files true path
    | none => some []
  return [defaults, changes, asked, variableEntries named].foldl Tree.overlay (.table [])

/-- Loads the settings; `none` if a layer cannot be read or a value does not fit its setting. -/
def Settings.load? (files : Files) (named : List (String × String)) (path : Option String) :
    Option Settings :=
  layers? files named path >>= Tree.settings?

end Turnstile.Config
