import Turnstile.Text.Decimal
import Turnstile.Text.Split
/-!
# The command line

Two commands, each with options that take a value: to run the gateway, and to issue a token. A value may be
joined to its option or follow it, but a word that begins with a hyphen is never taken for the value of the
option before it. An option's value is looked at when the next option begins, so of two faults the one that
is found first need not be the one that stands first.
-/

namespace Turnstile.Command

/-- Why a command line is not carried out. Help and version count as reasons. -/
inductive LineError where
  | noCommand
  | help
  | version
  | unknownCommand
  /-- There is no such option, or a word where none belongs. -/
  | unknownArgument
  | repeated
  | missingValue
  /-- A value is not of the kind that its option takes. -/
  | badValue
  | surplusValue
deriving DecidableEq, Repr

inductive Opt where
  | config
  | apiKey
  | limit
  | ttlHours
  | routes
deriving DecidableEq, Repr

def Opt.name : Opt → String
  | .config => "config"
  | .apiKey => "api-key"
  | .limit => "limit"
  | .ttlHours => "ttl-hours"
  | .routes => "routes"

def serveOptions : List Opt := [.config]

def issueOptions : List Opt := [.config, .apiKey, .limit, .ttlHours, .routes]

structure Given where
  config : Option String := none
  apiKey : Option String := none
  limit : Option Int := none
  ttlHours : Option Int := none
  routes : List String := []
deriving DecidableEq, Repr

def once {α : Type} (old : Option α) (new : Except LineError α) : Except LineError (Option α) :=
  if old.isSome then .error .repeated else some <$> new

def number (s : String) : Except LineError Int := (Text.readInt64 s).mapError fun _ => .badValue

/-- A path of a file, which is not empty. -/
def filePath (s : String) : Except LineError String := if s.isEmpty then .error .missingValue else .ok s

/-- Takes the value of an option. Patterns are separated by commas and add up. -/
def Given.set (g : Given) (o : Opt) (value : String) : Except LineError Given :=
  match o with
  | .config => (fun v => { g with config := v }) <$> once g.config (filePath value)
  | .apiKey => (fun v => { g with apiKey := v }) <$> once g.apiKey (.ok value)
  | .limit => (fun v => { g with limit := v }) <$> once g.limit (number value)
  | .ttlHours => (fun v => { g with ttlHours := v }) <$> once g.ttlHours (number value)
  | .routes => .ok { g with routes := g.routes ++ Text.parts ',' value }

inductive Word where
  | stop
  /-- A long option, with a value that is joined to it. -/
  | long (name : String) (value : Option String)
  | short (c : Char) (rest : List Char)
  | plain (s : String)
deriving DecidableEq, Repr

def Word.of (s : String) : Word :=
  match s.toList with
  | ['-', '-'] => .stop
  | '-' :: '-' :: cs =>
    let name := cs.takeWhile (· != '=')
    let value :=
      match cs.drop name.length with
      | _ :: value => some (String.ofList value)
      | [] => none
    .long (String.ofList name) value
  | '-' :: c :: rest => .short c rest
  | _ => .plain s

/-- The option whose value is still to be taken, with the value if it is there. -/
abbrev Pending := Option (Opt × Option String)

/-- Takes the value that is still to be taken. -/
def settle (g : Given) : Pending → Except LineError Given
  | none => .ok g
  | some (_, none) => .error .missingValue
  | some (o, some value) => g.set o value

/-- What a long option asks for apart from the options with values. -/
def plainRequest? (name : String) (hasVersion : Bool) : Option LineError :=
  if name = "help" then some .help
  else if name = "version" && hasVersion then some .version
  else none

/-- The value that is joined to a short option. -/
def joinedValue : List Char → Option String
  | [] => none
  | '=' :: rest => some (String.ofList rest)
  | rest => some (String.ofList rest)

def options (known : List Opt) (g : Given) (pending : Pending) : List String → Except LineError Given
  | [] => settle g pending
  | s :: rest =>
    match Word.of s with
    | .stop => if rest.isEmpty then settle g pending else .error .unknownArgument
    | .long name value =>
      match plainRequest? name false, known.find? (·.name == name) with
      | some request, _ =>
        if value.isSome then .error .surplusValue else (settle g pending).bind fun _ => .error request
      | none, none => .error .unknownArgument
      | none, some o => do
        let g ← settle g pending
        match value with
        | some value => options known (← g.set o value) none rest
        | none => options known g (some (o, none)) rest
    | .short c joined =>
      if c = 'h' then (settle g pending).bind fun _ => .error .help
      else if c = 'c' then do
        let g ← settle g pending
        match joinedValue joined with
        | some value => options known (← g.set .config value) none rest
        | none => options known g (some (.config, none)) rest
      else .error .unknownArgument
    | .plain s =>
      match pending with
      | some (o, none) => options known g (some (o, some s)) rest
      | _ => .error .unknownArgument

structure IssueRequest where
  apiKey : Option String := none
  limit : Int := 10
  ttlHours : Int := 24
  routes : List String := []
deriving DecidableEq, Repr

inductive Order where
  | serve (config : Option String)
  | issue (config : Option String) (request : IssueRequest)
deriving DecidableEq, Repr

def commandNames : List String := ["serve", "issue", "help"]

/-- Help on the command with a name, if names lead to one. -/
def helpOn : List String → LineError
  | [] => .help
  | [name] => if commandNames.contains name then .help else .unknownCommand
  | _ => .unknownCommand

/-- Reads a command line; its first word is the name of the program. -/
def parse (line : List String) : Except LineError Order :=
  match line.drop 1 with
  | [] => .error .noCommand
  | s :: rest =>
    match Word.of s with
    | .stop =>
      match rest with
      | [] => .error .noCommand
      | name :: _ => .error (if commandNames.contains name then .unknownArgument else .unknownCommand)
    | .long name value =>
      match plainRequest? name true with
      | some request => .error (if value.isSome then .surplusValue else request)
      | none => .error .unknownArgument
    | .short c _ => .error (if c = 'h' then .help else if c = 'V' then .version else .unknownArgument)
    | .plain s =>
      if s = "help" then .error (helpOn rest)
      else if s = "serve" then do
        let g ← options serveOptions {} none rest
        return .serve g.config
      else if s = "issue" then do
        let g ← options issueOptions {} none rest
        let d : IssueRequest := {}
        return .issue g.config {
          apiKey := g.apiKey, limit := g.limit.getD d.limit, ttlHours := g.ttlHours.getD d.ttlHours,
          routes := g.routes }
      else .error .unknownCommand

end Turnstile.Command
