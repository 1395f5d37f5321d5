import Turnstile.Text.Digits
import Turnstile.Text.Decimal
import Turnstile.Time.Duration
/-!
# Metrics

What is counted and measured of each request. Paths in labels are shortened and have their identifiers
taken out, so that a metric has few label values: a UUID anywhere, and a run of decimal digits that
fills what stands between two slashes, become a placeholder. A match uses up the slash that ends it, so
of two such runs in a row the second one stays.
-/

namespace Turnstile.Gateway

open Time

inductive MetricValue where
  | increment
  | duration (d : Duration)
  /-- The time since the request came in, which whoever records the metric reads off a stopwatch. -/
  | elapsed
deriving DecidableEq, Repr

structure Metric where
  name : String
  labels : List (String × String)
  value : MetricValue
deriving DecidableEq, Repr

def placeholder : List Char := ['\x7b', 'i', 'd', '\x7d']

def uuidGroups : List Nat := [8, 4, 4, 4, 12]

/-- What is left after a UUID at the front. -/
def afterUuid? (s : List Char) : Option (List Char) :=
  go uuidGroups s
where
  go : List Nat → List Char → Option (List Char)
    | [], s => some s
    | n :: rest, s =>
      let group := s.take n
      if group.length = n && group.all fun c => (Text.hexDigit? c).isSome then
        match rest, s.drop n with
        | [], s => some s
        | _, '-' :: s => go rest s
        | _, _ => none
      else none

/-- The text with its UUIDs taken out. The fuel bounds the number of steps. -/
def replaceUuids : Nat → List Char → List Char
  | 0, s => s
  | _, [] => []
  | fuel + 1, c :: rest =>
    match afterUuid? (c :: rest) with
    | some rest => placeholder ++ replaceUuids fuel rest
    | none => c :: replaceUuids fuel rest

/-- What a numeric segment at the front leaves: whether a slash ended it, and the rest after it. -/
def afterNumber? : List Char → Option (Bool × List Char)
  | '/' :: rest =>
    let digits := rest.takeWhile Text.isDecimalDigit
    if digits.isEmpty then none
    else
      match rest.drop digits.length with
      | [] => some (false, [])
      | '/' :: rest => some (true, rest)
      | _ => none
  | _ => none

/-- The text with its numeric segments taken out. The fuel bounds the number of steps. -/
def replaceNumbers : Nat → List Char → List Char
  | 0, s => s
  | _, [] => []
  | fuel + 1, c :: rest =>
    match afterNumber? (c :: rest) with
    | some (slash, rest) =>
      '/' :: placeholder ++ (if slash then ['/'] else []) ++ replaceNumbers fuel rest
    | none => c :: replaceNumbers fuel rest

/-- The greatest number of characters of a path in a label. -/
def maxPathLabel : Nat := 50

def sanitizePath (path : String) : String :=
  let s := path.toList
  let s := replaceUuids s.length s
  let s := replaceNumbers s.length s
  String.ofList (s.take maxPathLabel)

/-- The metrics of a request that has been answered. -/
def requestMetrics (method path : String) (status : Nat) (took : MetricValue) : List Metric :=
  let labels := [("method", method), ("path", sanitizePath path), ("status", Text.natText status)]
  [⟨"http_requests_total", labels, .increment⟩,
    ⟨"http_request_duration_seconds", labels, took⟩]
    ++ (if 500 ≤ status then [⟨"http_server_errors_total", labels, .increment⟩] else [])

def decisionMetric (outcome : String) : Metric :=
  ⟨"gateway_access_decisions_total", [("outcome", outcome)], .increment⟩

end Turnstile.Gateway
