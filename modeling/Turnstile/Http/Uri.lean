import Turnstile.Text.Letters
/-!
# Request targets

The target of a request: a path with an optional query, an absolute URI, an authority alone, or a
star. Targets are read as they stand. No part is decoded or normalised, and a fragment is dropped.
-/

namespace Turnstile.Http

structure Uri where
  scheme : Option String := none
  authority : Option String := none
  /-- The path as it stands, empty where there is none. -/
  rawPath : String
  query : Option String := none
deriving DecidableEq, Repr

namespace Uri

/-- The path: an absolute URI without one has the root. -/
def path (u : Uri) : String :=
  if u.rawPath.isEmpty && u.scheme.isSome then "/" else u.rawPath

def text (u : Uri) : String :=
  (match u.scheme with | some s => s ++ "://" | none => "")
    ++ u.authority.getD "" ++ u.path
    ++ (match u.query with | some q => "?" ++ q | none => "")

def maxLength : Nat := 65534

def isPathChar (c : Char) : Bool :=
  let n := c.toNat
  n == 0x21 || n == 0x22 || (0x24 ≤ n && n ≤ 0x3B) || n == 0x3D || (0x40 ≤ n && n ≤ 0x5F)
    || (0x61 ≤ n && n ≤ 0x7E) || 0x7F ≤ n

def isQueryChar (c : Char) : Bool :=
  let n := c.toNat
  n == 0x21 || (0x24 ≤ n && n ≤ 0x3B) || n == 0x3D || (0x3F ≤ n && n ≤ 0x7E) || 0x7F ≤ n

def pathAndQuery? (s : List Char) : Option (String × Option String) :=
  let path := s.takeWhile fun c => c != '?' && c != '#'
  if !path.all isPathChar then none
  else
    match s.drop path.length with
    | '?' :: rest =>
      let query := rest.takeWhile (· != '#')
      if query.all isQueryChar then some (String.ofList path, some (String.ofList query)) else none
    | _ => some (String.ofList path, none)

/-- A character that may stand in an authority, percent signs apart. -/
def isAuthorityChar (c : Char) : Bool :=
  c.isAlphanum || "!$&'()*+,-.:;=@[]_~".toList.contains c

structure AuthorityScan where
  colons : Nat := 0
  opened : Bool := false
  closed : Bool := false
  /-- A percent sign has been seen since the last `@` or bracket. -/
  percent : Bool := false

def AuthorityScan.step (a : AuthorityScan) (c : Char) : Option AuthorityScan :=
  if c = ':' then if 8 ≤ a.colons then none else some { a with colons := a.colons + 1 }
  else if c = '[' then if a.percent || a.opened then none else some { a with opened := true }
  else if c = ']' then
    if !a.opened || a.closed then none else some { a with closed := true, colons := 0, percent := false }
  else if c = '@' then some { a with colons := 0, percent := false }
  else if c = '%' then some { a with percent := true }
  else if isAuthorityChar c then some a
  else none

def authority? (s : List Char) : Option (List Char × List Char) := do
  let auth := s.takeWhile fun c => c != '/' && c != '?' && c != '#'
  let scan ← auth.foldlM AuthorityScan.step {}
  if scan.opened != scan.closed || 1 < scan.colons || auth.getLast? == some '@' || scan.percent then none
  return (auth, s.drop auth.length)

def isSchemeChar (c : Char) : Bool := c.isAlphanum || c == '+' || c == '-' || c == '.'

/-- The scheme at the front with its `://`, in small letters for the two usual ones. -/
def scheme? (s : List Char) : Option (String × List Char) :=
  let name := s.takeWhile isSchemeChar
  match s.drop name.length with
  | ':' :: '/' :: '/' :: rest =>
    let text := String.ofList name
    if Text.asciiLower text == "http" then some ("http", rest)
    else if Text.asciiLower text == "https" then some ("https", rest)
    else some (text, rest)
  | _ => none

def parse? (s : String) : Option Uri := do
  if maxLength < s.utf8ByteSize then none
  match s.toList with
  | [] => none
  | ['*'] => return { rawPath := "*" }
  | '/' :: rest =>
    let (path, query) ← pathAndQuery? ('/' :: rest)
    return { rawPath := path, query }
  | cs =>
    match scheme? cs with
    | some (scheme, rest) =>
      if 64 < scheme.length then none
      let (auth, rest) ← authority? rest
      if auth.isEmpty then none
      let (path, query) ← pathAndQuery? rest
      return { scheme := some scheme, authority := some (String.ofList auth), rawPath := path, query }
    | none =>
      let (auth, rest) ← authority? cs
      if !rest.isEmpty then none
      return { authority := some (String.ofList auth), rawPath := "" }

end Uri

end Turnstile.Http
