import Std.Time.DateTime.Timestamp
import Turnstile.Command.Issue
import Turnstile.Command.Usage
import Turnstile.Config.Layers
import Turnstile.Gateway.Startup
/-!
# The program

Files, environment, clock and random bytes are read here, and everything is decided elsewhere. Sockets
are not read at all: a gateway is set up and reported, and a shared server counts as silent.
-/

namespace Turnstile.Main

open Time Command Config

/-- The content of a file, if it can be read. -/
def contentOf (name : String) : IO (Option String) :=
  try some <$> IO.FS.readFile name catch _ => return none

def candidates (path : Option String) : List String :=
  (["config/default", "config/local"] ++ path.toList).flatMap fun name =>
    name :: FileFormat.extensions.map fun (ext, _) => name ++ "." ++ ext

def environment : IO (List (String × String)) := do
  let text := (← contentOf "/proc/self/environ").getD ""
  return (Text.parts (Char.ofNat 0) text).filterMap fun entry =>
    match Text.parts '=' entry with
    | name :: value :: more => some (name, String.intercalate "=" (value :: more))
    | _ => none

def loadSettings (path : Option String) : IO (Option Settings) := do
  let found ← (candidates path).filterMapM fun name => return (← contentOf name).map (name, ·)
  return Settings.load? (fun name => found.lookup name) (← environment) path

def now : IO Instant := do
  let t ← Std.Time.Timestamp.now
  return .ofMillis t.toMillisecondsSinceUnixEpoch.val

def freshKey : IO String := do
  let bytes ← IO.getRandomBytes (USize.ofNat freshKeyBytes)
  return keyOfBytes bytes.toList

def fail (reason : String) : IO UInt32 := do
  IO.eprintln ("Error: " ++ reason)
  return 1

def withSettings (path : Option String) (run : Settings → IO UInt32) : IO UInt32 := do
  match ← loadSettings path with
  | some settings => run settings
  | none => fail "the configuration cannot be read"

def serve (settings : Settings) : IO UInt32 := do
  match settings.validate with
  | (.error e, _) => fail e.message
  | (.ok (), settings) =>
    match Gateway.App.ofSettings (← now) (fun _ => .silent) settings with
    | .error e => fail e.message
    | .ok app =>
      IO.println (app.proxy.describe ++ " behind " ++ settings.server.host ++ ":"
        ++ Text.natText settings.server.port)
      return 0

def issue (request : IssueRequest) (settings : Settings) : IO UInt32 := do
  if settings.storage.backend ≠ .redis then
    fail "issue needs a shared backend; set storage.backend = \"redis\""
  else
    match Jwt.Signer.ofSecret settings.token.algorithm settings.token.secret with
    | .error e => fail e.toSetupError.message
    | .ok signer =>
      match Remote.connect (fun _ => .silent) settings.storage.redisUrl settings.storage.connectTimeout with
      | .error e => fail e.message
      | .ok _ =>
        match request.record (← now) (← freshKey) with
        | .error e => fail e.message
        | .ok record =>
          (issued signer (← now) record).lines settings.storage.tokenPrefix |>.forM IO.println
          return 0

end Turnstile.Main

open Turnstile in
def main (args : List String) : IO UInt32 := do
  match Command.parse (Command.programName :: args) with
  | .ok (.serve config) => Main.withSettings config Main.serve
  | .ok (.issue config request) => Main.withSettings config (Main.issue request)
  | .error e =>
    if e.isAnswer then
      IO.println (if e = .version then e.message ++ " " ++ Gateway.version else e.message)
      return 0
    else
      IO.eprintln e.message
      return 2
