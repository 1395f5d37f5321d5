import Turnstile.Gateway.Health
import Turnstile.Text.Split
/-!
# Scraping metrics

The metrics are served under one path, which may be a pattern: a name in braces stands for one segment, or
for what is left of one, and a name after an asterisk for all that is left. Doubled braces stand for
themselves. Neither kind of name matches nothing.
-/

namespace Turnstile.Gateway

inductive Piece where
  | char (c : Char)
  | segment
  | tail
deriving DecidableEq, Repr

def markBraces : List Char → List (Char × Bool)
  | '\x7b' :: '\x7b' :: rest => ('\x7b', true) :: markBraces rest
  | '\x7d' :: '\x7d' :: rest => ('\x7d', true) :: markBraces rest
  | c :: rest => (c, false) :: markBraces rest
  | [] => []

/-- The rest of a name in braces after its first character: whether it is well-formed, and what follows. -/
def afterName? : List (Char × Bool) → Option (List (Char × Bool))
  | [] => none
  | ('\x7d', false) :: rest => some rest
  | ('*', _) :: _ | ('/', _) :: _ => none
  | _ :: rest => afterName? rest

/-- The pieces of a pattern. The fuel bounds their number. -/
def pieces? : Nat → List (Char × Bool) → Option (List Piece)
  | 0, _ => none
  | _, [] => some []
  | _, ('\x7d', false) :: _ => none
  | fuel + 1, ('\x7b', false) :: first :: rest =>
    if first.1 = '\x7d' then none
    else if first.1 = '*' then
      match rest, afterName? rest with
      | ('\x7d', false) :: _, _ => none
      | _, some [] => some [.tail]
      | _, _ => none
    else
      match afterName? rest with
      | some [] => some [.segment]
      | some (('/', b) :: rest) => (pieces? fuel (('/', b) :: rest)).map (.segment :: ·)
      | _ => none
  | _, [('\x7b', false)] => none
  | fuel + 1, (c, _) :: rest => (pieces? fuel rest).map (.char c :: ·)

/-- Whether a segment begins with a mark that has been given up. -/
def hasOldMark (path : String) : Bool :=
  (Text.parts '/' path).any fun segment =>
    match segment.toList with
    | c :: _ => c = ':' || c = '*'
    | [] => false

def pattern? (path : String) : Option (List Piece) :=
  if path.toList.head? ≠ some '/' ∨ hasOldMark path then none
  else pieces? (path.length + 1) (markBraces path.toList)

/-- Whether a path matches a pattern. A segment ends before a slash. -/
def matchesPieces : List Piece → List Char → Bool
  | [], s => s.isEmpty
  | .char c :: rest, s =>
    match s with
    | d :: s => c == d && matchesPieces rest s
    | [] => false
  | .segment :: rest, s =>
    let part := s.takeWhile (· != '/')
    !part.isEmpty && matchesPieces rest (s.drop part.length)
  | .tail :: _, s => !s.isEmpty

/-- The page of metrics, as far as it is the same for every gateway. -/
def metricsPage : String :=
  "# TYPE access_gateway_info gauge\naccess_gateway_info\x7bversion=\"" ++ version ++ "\"\x7d 1\n\n"

/-- The answer to a request for metrics served under a pattern. -/
def scrape (pattern : List Piece) (r : Http.Request) : Http.Response :=
  if !matchesPieces pattern r.uri.path.toList then { status := 404 }
  else if r.method = "GET" ∨ r.method = "HEAD" then
    let page : Http.Response :=
      { status := 200, headers := [("content-type", "text/plain; charset=utf-8")], body := metricsPage }
    if r.method = "HEAD" then page.withLength.withoutBody else page.withLength
  else ({ status := 405, headers := [("allow", "GET,HEAD")] } : Http.Response).withLength

end Turnstile.Gateway
