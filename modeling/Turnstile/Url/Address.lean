import Turnstile.Url.Host
/-!
# Addresses

An absolute address: scheme, credentials, host, port, path, query and fragment. Parts are kept in the
form in which they are written. A path is a list of segments, or, below a scheme without authority and
without a leading slash, one text. Dot segments, plain or escaped, are resolved when a path is read, so
a path that is kept holds none; in schemes with rules of their own a backslash counts as a slash.
-/

namespace Turnstile

inductive Url.Path where
  | segments (l : List String)
  | text (s : String)
deriving DecidableEq, Repr

structure Url where
  scheme : String
  username : String := ""
  password : String := ""
  host : Option Url.Host := none
  port : Option Nat := none
  path : Url.Path := .segments []
  query : Option String := none
  fragment : Option String := none
deriving DecidableEq, Repr

namespace Url

/-- Schemes with rules of their own, and their ports. -/
def specialPorts : List (String × Option Nat) :=
  [("http", some 80), ("https", some 443), ("ws", some 80), ("wss", some 443), ("ftp", some 21), ("file", none)]

def isSpecial (scheme : String) : Bool := (specialPorts.lookup scheme).isSome

/-- The port that a scheme has of its own. -/
def defaultPort? (scheme : String) : Option Nat := (specialPorts.lookup scheme).join

/-! ### Paths -/

def isSlash (special : Bool) (c : Char) : Bool := c = '/' || (special && c = '\\')

/-- A segment in small letters with its escaped dots plain. -/
def plainDots : List Char → List Char
  | '%' :: '2' :: 'e' :: rest => '.' :: plainDots rest
  | '%' :: '2' :: 'E' :: rest => '.' :: plainDots rest
  | c :: rest => c :: plainDots rest
  | [] => []

def isDot (segment : List Char) : Bool := plainDots segment == ['.']

def isDoubleDot (segment : List Char) : Bool := plainDots segment == ['.', '.']

/-- Appends a segment to a path. After a dot segment at the end the path ends in a slash. -/
def step (path : List String) (segment : List Char) (isLast : Bool) : List String :=
  if isDoubleDot segment then path.dropLast ++ (if isLast then [""] else [])
  else if isDot segment then path ++ (if isLast then [""] else [])
  else path ++ [String.ofList (escape inPathSet segment)]

def walk (path : List String) : List (List Char) → List String
  | [] => path
  | [last] => step path last true
  | segment :: rest => walk (step path segment false) rest

/-- The segments of a path, with or without its first slash. -/
def segmentsOf (special : Bool) (cs : List Char) : List String :=
  match cs with
  | [] => if special then [""] else []
  | c :: rest => walk [] (Text.cut (isSlash special) (if isSlash special c then rest else cs))

def Path.render : Path → String
  | .segments l => String.join (l.map ("/" ++ ·))
  | .text s => s

/-! ### Writing -/

def authority (u : Url) : String :=
  match u.host with
  | none => ""
  | some host =>
    let credentials :=
      if u.username.isEmpty && u.password.isEmpty then ""
      else u.username ++ (if u.password.isEmpty then "" else ":" ++ u.password) ++ "@"
    "//" ++ credentials ++ host.text ++ (match u.port with | some p => ":" ++ Text.natText p | none => "")

/-- The address as it is written. A path that begins with two slashes is kept apart from an authority. -/
def text (u : Url) : String :=
  let path := u.path.render
  let guard :=
    match u.host, u.path with
    | none, .segments ("" :: _ :: _) => "/."
    | _, _ => ""
  u.scheme ++ ":" ++ u.authority ++ guard ++ path
    ++ (match u.query with | some q => "?" ++ q | none => "")
    ++ (match u.fragment with | some f => "#" ++ f | none => "")

/-! ### Changing parts -/

/-- A text without the characters that an address skips. -/
def withoutBreaks (cs : List Char) : List Char :=
  cs.filter fun c => c != '\t' && c != '\n' && c != '\r'

def withPath (u : Url) (path : String) : Url :=
  let cs := withoutBreaks path.toList
  match u.path with
  | .segments _ => { u with path := .segments (segmentsOf (isSpecial u.scheme) cs) }
  | .text _ =>
    let cs := match cs with | '/' :: rest => '%' :: '2' :: 'F' :: rest | _ => cs
    { u with path := .text (String.ofList (escape inControlSet cs)) }

def queryText (scheme : String) (cs : List Char) : String :=
  String.ofList (escape (if isSpecial scheme then inSpecialQuerySet else inQuerySet) cs)

def withQuery (u : Url) (query : Option String) : Url :=
  { u with query := query.map fun q => queryText u.scheme (withoutBreaks q.toList) }

/-- Whether the address can be asked by the hypertext protocol. -/
def isWeb (u : Url) : Bool := u.host.isSome && (u.scheme == "http" || u.scheme == "https")

/-! ### Reading -/

/-- The scheme at the front and what follows its colon. -/
def scheme? (cs : List Char) : Option (String × List Char) :=
  let name := cs.takeWhile fun c => c.isAlphanum || c == '+' || c == '-' || c == '.'
  match name, cs.drop name.length with
  | first :: _, ':' :: rest =>
    if first.isAlpha then some (Text.asciiLower (String.ofList name), rest) else none
  | _, _ => none

/-- A port: at most 65535, and left out where it is empty or the scheme's own. -/
def port? (scheme : String) (cs : List Char) : Option (Option Nat) :=
  match cs with
  | [] => some none
  | _ => do
    let n ← Text.digitsValue? cs
    if 65535 < n then none
    return if defaultPort? scheme = some n then none else some n

def splitCredentials (cs : List Char) : Option (List Char) × List Char :=
  let host := (cs.reverse.takeWhile (· != '@')).reverse
  if host.length = cs.length then (none, cs) else (some (cs.take (cs.length - host.length - 1)), host)

def splitPort : Bool → List Char → List Char × Option (List Char)
  | _, [] => ([], none)
  | inside, c :: rest =>
    if c = ':' ∧ !inside then ([], some rest)
    else
      let (a, b) := splitPort (if c = '[' then true else if c = ']' then false else inside) rest
      (c :: a, b)

/-- The address with the authority that a text writes. -/
def withAuthority? (u : Url) (cs : List Char) : Option Url := do
  let (credentials, rest) := splitCredentials cs
  let (hostText, portText) := splitPort false rest
  if hostText.isEmpty ∧ (isSpecial u.scheme ∨ credentials.isSome ∨ portText.isSome) then none
  let host ← if isSpecial u.scheme then Host.ofSpecial? hostText else Host.ofOther? hostText
  let port ← port? u.scheme (portText.getD [])
  let user := (credentials.getD []).takeWhile (· != ':')
  let password := (credentials.getD []).drop (user.length + 1)
  return { u with
    host := some host, port,
    username := String.ofList (escape inUserSet user),
    password := String.ofList (escape inUserSet password) }

/-- The address with path, query and fragment of a text. -/
def withRest (u : Url) (hierarchical : Bool) (cs : List Char) : Url :=
  let path := cs.takeWhile fun c => c != '?' && c != '#'
  let tail := cs.drop path.length
  let (query, tail) : Option (List Char) × List Char :=
    match tail with
    | '?' :: rest =>
      let query := rest.takeWhile (· != '#')
      (some query, rest.drop query.length)
    | _ => (none, tail)
  let fragment := match tail with | '#' :: rest => some rest | _ => none
  { u with
    path := if hierarchical then .segments (segmentsOf (isSpecial u.scheme) path)
      else .text (String.ofList (escape inControlSet path))
    query := query.map (queryText u.scheme)
    fragment := fragment.map fun f => String.ofList (escape inFragmentSet f) }

/-- The address with authority and rest of a text. -/
def withAuthorityAndRest? (u : Url) (cs : List Char) : Option Url := do
  let special := isSpecial u.scheme
  let auth := cs.takeWhile fun c => !(isSlash special c || c = '?' || c = '#')
  let u ← u.withAuthority? auth
  return u.withRest true (cs.drop auth.length)

/-- The address of a local file: its host may be empty, and `localhost` is. -/
def fileUrl? (cs : List Char) : Option Url := do
  let u : Url := { scheme := "file" }
  match cs with
  | a :: b :: rest =>
    if isSlash true a && isSlash true b then
      let name := rest.takeWhile fun c => !(isSlash true c || c = '?' || c = '#')
      let host ← if name.isEmpty then some none else (Host.ofSpecial? name).map some
      let host := host.filter (· != .domain "localhost")
      return { u with host := some (host.getD (.domain "")) }.withRest true (rest.drop name.length)
    else return { u with host := some (.domain "") }.withRest true cs
  | _ => return { u with host := some (.domain "") }.withRest true cs

/-- A character that is left out at both ends. -/
def isOuterBlank (c : Char) : Bool := c.toNat ≤ 0x20

def parse? (s : String) : Option Url := do
  let cs := ((s.toList.dropWhile isOuterBlank).reverse.dropWhile isOuterBlank).reverse
  let (scheme, rest) ← scheme? (withoutBreaks cs)
  let u : Url := { scheme }
  if scheme = "file" then fileUrl? rest
  else if isSpecial scheme then u.withAuthorityAndRest? (rest.dropWhile (isSlash true))
  else
    match rest with
    | '/' :: '/' :: rest => u.withAuthorityAndRest? rest
    | '/' :: _ => return u.withRest true rest
    | _ => return u.withRest false rest

end Url

end Turnstile
