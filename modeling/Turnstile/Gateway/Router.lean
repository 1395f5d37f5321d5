import Turnstile.Access.Pipeline
import Turnstile.Gateway.Health
import Turnstile.Gateway.Log
import Turnstile.Gateway.Metrics
import Turnstile.Gateway.Problem
/-!
# The router

From a request to a response. Probes are open; every path below `/api/v1/` passes the access pipeline
and is then handed to the service together with the verified claims. Around that stand, from outside:
the request's identifier, the time limit, the limit on bodies, metrics and the log.

Everything is one dialogue: the pipeline's questions, the store's ping, the service, and the entries of
log and metrics in their order. So a request that is broken off at its time limit leaves exactly the
entries that precede the answer it was waiting for.
-/

namespace Turnstile.Gateway

open Time

structure ServerLimits where
  maxBodyBytes : Nat
  requestTimeout : Nat
  storeTimeout : Nat := Access.defaultStoreTimeout
deriving DecidableEq, Repr

/-- A request as it is handed on: its body may turn out too long while it is read. -/
structure Handover where
  request : Http.Request
  claims : Claims
  maxBodyBytes : Nat
deriving DecidableEq, Repr

def Handover.body? (h : Handover) : Option String :=
  if h.request.body.utf8ByteSize ≤ h.maxBodyBytes then some h.request.body else none

structure Pinged where
  answer : Timed (Except StoreError Unit)
  latency : Nat := 0

inductive Query where
  | access (q : Access.Query)
  | ping
  | forward (h : Handover)
  | log (e : LogEvent)
  | measure (m : Metric)

abbrev Query.Answer : Query → Type
  | .access q => q.Answer
  | .ping => Pinged
  | .forward _ => Timed (Except Problem Http.Response)
  | .log _ => Unit
  | .measure _ => Unit

def Query.wait (storeTimeout : Nat) : (q : Query) → q.Answer → Nat
  | .access q, a => q.wait storeTimeout a
  | .ping, a => a.answer.waited readinessTimeout
  | .forward _, a => a.delay
  | .log _, _ => 0
  | .measure _, _ => 0

abbrev Serving := Dialogue Query Query.Answer

inductive Route where
  /-- An open probe that only says that the process is up. -/
  | alive (pattern : String)
  | ready
  | guarded
  | unknown
deriving DecidableEq, Repr

def guardedStem : String := "/api/v1/"

def Route.of (path : String) : Route :=
  if path = "/health" then .alive "/health"
  else if path = "/ready" then .ready
  else if path = "/live" then .alive "/live"
  else if guardedStem.toList.isPrefixOf path.toList && guardedStem.length < path.length then .guarded
  else .unknown

/-- The guarded paths are those that go on after the stem. -/
theorem Route.of_eq_guarded_iff {path : String} :
    Route.of path = .guarded ↔ ∃ rest, rest ≠ [] ∧ path.toList = guardedStem.toList ++ rest := by
  have hprobe (probe : String) (hnot : guardedStem.toList.isPrefixOf probe.toList = false)
      (rest : List Char) : probe.toList ≠ guardedStem.toList ++ rest := by
    intro heq
    rw [heq, ← Bool.not_eq_true, List.isPrefixOf_iff_prefix] at hnot
    exact hnot (List.prefix_append _ _)
  unfold Route.of
  split
  · next h => simpa [h] using fun rest _ => hprobe "/health" (by decide) rest
  · split
    · next h => simpa [h] using fun rest _ => hprobe "/ready" (by decide) rest
    · split
      · next h => simpa [h] using fun rest _ => hprobe "/live" (by decide) rest
      · split
        · next h =>
          rw [Bool.and_eq_true, List.isPrefixOf_iff_prefix, decide_eq_true_eq, ← String.length_toList,
            ← String.length_toList] at h
          obtain ⟨⟨rest, hrest⟩, hlen⟩ := h
          refine iff_of_true rfl ⟨rest, ?_, hrest.symm⟩
          rintro rfl
          rw [← hrest, List.append_nil] at hlen
          exact Nat.lt_irrefl _ hlen
        · next h =>
          refine iff_of_false (by simp) ?_
          rintro ⟨rest, hne, hpath⟩
          apply h
          rw [Bool.and_eq_true, List.isPrefixOf_iff_prefix, decide_eq_true_eq, ← String.length_toList,
            ← String.length_toList, hpath, List.length_append]
          have := List.length_pos_iff.2 hne
          exact ⟨List.prefix_append _ _, by omega⟩

/-- The pattern of a route, or the path where there is none. -/
def Route.label (path : String) : Route → String
  | .alive pattern => pattern
  | .ready => "/ready"
  | .guarded => "/api/v1/\x7b*path\x7d"
  | .unknown => path

def isReading (method : String) : Bool := method = "GET" || method = "HEAD"

/-- The answer to a method that a probe does not know. -/
def methodNotAllowed : Http.Response := { status := 405, headers := [("allow", "GET,HEAD")] }

/-- The `Authorization` value of a request; one that cannot be read counts as absent. -/
def authorizationOf (r : Http.Request) : Option String :=
  (r.headers.first? "authorization").filter Http.isPlain

def note (e : LogEvent) : Serving Unit := .ask (.log e) .done

def measure (m : Metric) : Serving Unit := .ask (.measure m) .done

def serveGuarded (limits : ServerLimits) (now : Instant) (r : Http.Request) : Serving Http.Response := do
  let path := r.uri.path
  let decision ← (Access.evaluate limits.storeTimeout now (authorizationOf r) path).embed
    Query.access fun _ a => a
  match decision with
  | .ok claims =>
    measure (decisionMetric "allowed")
    .ask (.forward ⟨r, claims, limits.maxBodyBytes⟩) fun answer =>
      match answer.value with
      | .ok response => .done response
      | .error problem => .done problem.toResponse
  | .error denied =>
    measure (decisionMetric denied.outcome)
    note (denialEvent denied path)
    return (Problem.ofDenial denied).toResponse

def serveReady : Serving Http.Response :=
  .ask .ping fun pinged =>
    .done (readyResponse (storeComplaint? (pinged.answer.within? readinessTimeout)) pinged.latency)

def serveRoute (limits : ServerLimits) (now : Instant) (r : Http.Request) : Serving Http.Response :=
  match Route.of r.uri.path with
  | .alive _ => .done (if isReading r.method then aliveResponse else methodNotAllowed)
  | .ready => if isReading r.method then serveReady else .done methodNotAllowed
  | .guarded => serveGuarded limits now r
  | .unknown => .done { status := 404 }

def measureAll : List Metric → Serving Unit
  | [] => .done ()
  | m :: rest => do
    measure m
    measureAll rest

/-- A request with its entry in the log and its metrics. A second entry, `Request completed`, is left out: the
method, the route, the status and the time that it gives are those of the metrics, and the identifier is that of
the first entry. -/
def serveObserved (limits : ServerLimits) (now : Instant) (r : Http.Request) : Serving Http.Response := do
  let label := (Route.of r.uri.path).label r.uri.path
  note (incomingEvent r label)
  let response ← serveRoute limits now r
  measureAll (requestMetrics r.method label response.status .elapsed)
  return response

/-- The stated length of a body, where it can be read. -/
def declaredLength? (r : Http.Request) : Option Nat :=
  match r.headers.first? "content-length" with
  | some s => (Text.readNat64 s).toOption
  | none => none

/-- The answer to a body that is stated to be too long. -/
def lengthLimitExceeded : Http.Response where
  status := 413
  headers := [("content-type", "text/plain; charset=utf-8")]
  body := "length limit exceeded"

/-- A request under the limit on bodies: no more is read of a body than its stated length, even where
the limit is greater. -/
def serveLimited (limits : ServerLimits) (now : Instant) (r : Http.Request) : Serving Http.Response :=
  match declaredLength? r with
  | some n =>
    if limits.maxBodyBytes < n then .done lengthLimitExceeded
    else serveObserved { limits with maxBodyBytes := n } now r
  | none => serveObserved limits now r

/-- The request with an identifier: the one it has, or a fresh one. -/
def identify (freshId : String) (r : Http.Request) : Http.Request :=
  if (r.headers.first? requestIdHeader).isSome then r
  else { r with headers := r.headers ++ [(requestIdHeader, freshId)] }

/-- The answer to a request that takes too long. -/
def requestTimedOut : Http.Response := { status := 408 }

/-- The response with the request's identifier, unless it has one of its own. -/
def propagateId (r : Http.Request) (response : Http.Response) : Http.Response :=
  match r.headers.first? requestIdHeader with
  | some id =>
    if (response.headers.first? requestIdHeader).isSome then response
    else { response with headers := response.headers ++ [(requestIdHeader, id)] }
  | none => response

/-- The response as it leaves: it states its length, and has no body for `HEAD`. A tunnel that is
granted has neither. Paths that lead nowhere are answered as they are. -/
def conclude (r : Http.Request) (response : Http.Response) : Http.Response :=
  if r.method = "CONNECT" ∧ 200 ≤ response.status ∧ response.status < 300 then response.withoutBody
  else if Route.of r.uri.path = .unknown ∧ r.uri.path.startsWith "/" then response
  else if r.method = "HEAD" then response.withLength.withoutBody
  else response.withLength

/-- Serves a request: answers its questions from a state until its time limit. -/
def serve {σ ε : Type} (limits : ServerLimits) (now : Instant) (freshId : String)
    (answer : (q : Query) → σ → Except ε (q.Answer × σ)) (r : Http.Request) (s : σ) :
    Except ε (Http.Response × σ) :=
  let r := identify freshId r
  match (serveLimited limits now r).runUntil answer (Query.wait limits.storeTimeout)
      limits.requestTimeout s with
  | .error e => .error e
  | .ok (.finished response, s) => .ok (conclude r (propagateId r response), s)
  | .ok (.cut, s) => .ok (conclude r (propagateId r requestTimedOut), s)

end Turnstile.Gateway
