import Turnstile.Proofs.Gateway.Mediation
import Turnstile.Proofs.Gateway.Stripping
/-!
# Tracing requests

Every request has an identifier when it is decided on, its own or a fresh one. The response always carries it,
unless the service answers with one of its own. The service itself sees it only if the client lets it: headers
that the client declares to concern its connection are dropped after the request has been given its identifier,
and the declaration may name the identifier (`traced_iff`). A client can so hide a request from the service's
records, also one that the gateway has just made the identifier for (`untraced_by_connection`).
-/

namespace Turnstile.Gateway

open Time Dialogue Http

/-! ### A gateway before a service -/

/-- What a service answers to what it is sent: from any state, after any time, and if it answers at all. -/
abbrev Service (σ ε : Type) := Outgoing → σ → Except ε (Timed (Except ServiceFault Response) × σ)

/-- The surroundings in which what is handed over goes to a service. -/
def Surroundings.through {σ ε : Type} (w : Surroundings σ ε) (p : Proxy) (service : Service σ ε) :
    Surroundings σ ε :=
  { w with
    forward := fun h s =>
      match service (p.outgoing h) s with
      | .error e => .error e
      | .ok (a, s) => .ok ({ value := Proxy.conclude a.value, delay := a.delay }, s) }

variable {σ ε : Type} {limits : ServerLimits} {now : Instant} {freshId : String} {w : Surroundings σ ε} {s : σ}
  {r : Request} {h : Handover}

theorem of_through_forward {p : Proxy} {service : Service σ ε} {s₁ s₂ : σ} {a : Timed (Except Problem Response)}
    (hforward : (w.through p service).forward h s₁ = .ok (a, s₂)) :
    ∃ b, service (p.outgoing h) s₁ = .ok (b, s₂) ∧ a.value = Proxy.conclude b.value := by
  simp only [Surroundings.through] at hforward
  cases hservice : service (p.outgoing h) s₁ with
  | error e =>
    rw [hservice] at hforward
    cases hforward
  | ok x =>
    rw [hservice] at hforward
    cases hforward
    exact ⟨x.1, rfl, rfl⟩

/-! ### What the response is -/

/-- The response that an answer of the service comes to. -/
def relayed (a : Timed (Except Problem Response)) : Response :=
  match a.value with
  | .ok response => response
  | .error problem => problem.toResponse

/-- If anything was handed over, the response is what its answer comes to. -/
def Relays (t : Record) (x : Response) : Prop :=
  ∀ h a, (⟨.forward h, a⟩ : Exchange Query.Answer) ∈ t → x = relayed a

abbrev anyQuestion (_ : Record) (_ : Query) : Prop := True

theorem Kept.relays {t : Record} (ht : Kept t) (x : Response) : Relays t x := by
  intro h a hmem
  cases ht _ hmem

theorem Kept.keptByAnyEntries : KeptByEntries anyQuestion Kept where
  due _ _ _ _ := trivial
  kept _ _ ht hx := forall_mem_snoc ht (handover?_of_isEntry hx)

theorem Relays.keptByEntries (x : Response) : KeptByEntries anyQuestion (Relays · x) where
  due _ _ _ _ := trivial
  kept t y ht hy := by
    intro h a hmem
    rcases List.mem_append.1 hmem with hmem | hmem
    · exact ht h a hmem
    · rw [← List.mem_singleton.1 hmem] at hy
      cases hy

theorem Kept.relays_snoc {t : Record} (ht : Kept t) (h : Handover) (a : Timed (Except Problem Response)) :
    Relays (t ++ [⟨.forward h, a⟩]) (relayed a) := by
  intro h' a' hmem
  rcases List.mem_append.1 hmem with hmem | hmem
  · cases ht _ hmem
  · cases List.mem_singleton.1 hmem
    rfl

theorem keeps_embed_kept (d : Decision) {t : Record} (ht : Kept t) :
    (d.embed Query.access fun _ a => a).Keeps anyQuestion (fun t _ => Kept t) t := by
  induction d generalizing t with
  | done a => exact ht
  | ask q next ih => exact ⟨trivial, fun a => ih a (forall_mem_snoc ht rfl)⟩

theorem relays_serveGuarded (limits : ServerLimits) (now : Instant) (r : Request) {t : Record} (ht : Kept t) :
    (serveGuarded limits now r).Keeps anyQuestion Relays t := by
  unfold serveGuarded
  refine (keeps_embed_kept _ ht).bind ?_
  intro t decision ht
  cases decision with
  | ok claims =>
    refine (keeps_measure Kept.keptByAnyEntries _ ht).bind ?_
    intro t _ ht
    refine ⟨trivial, ?_⟩
    intro answer
    have hrelays := ht.relays_snoc ⟨r, claims, limits.maxBodyBytes⟩ answer
    unfold relayed at hrelays
    dsimp only
    cases hvalue : answer.value with
    | ok response =>
      rw [hvalue] at hrelays
      exact hrelays
    | error problem =>
      rw [hvalue] at hrelays
      exact hrelays
  | error denied =>
    refine (keeps_measure Kept.keptByAnyEntries _ ht).bind ?_
    intro t _ ht
    refine (keeps_note Kept.keptByAnyEntries _ ht).bind ?_
    intro t _ ht
    exact ht.relays _

theorem relays_serveRoute (limits : ServerLimits) (now : Instant) (r : Request) {t : Record} (ht : Kept t) :
    (serveRoute limits now r).Keeps anyQuestion Relays t := by
  unfold serveRoute
  split
  next => exact ht.relays _
  next =>
    split
    · refine ⟨trivial, ?_⟩
      intro pinged
      exact Kept.relays (forall_mem_snoc ht rfl) _
    · exact ht.relays _
  next => exact relays_serveGuarded limits now r ht
  next => exact ht.relays _

theorem relays_serveObserved (limits : ServerLimits) (now : Instant) (r : Request) :
    (serveObserved limits now r).Keeps anyQuestion Relays [] := by
  have hstart : Kept [] := by simp [Kept]
  unfold serveObserved
  refine (keeps_note Kept.keptByAnyEntries _ hstart).bind ?_
  intro t _ ht
  refine (relays_serveRoute limits now r ht).bind ?_
  intro t response hrelays
  refine (keeps_measureAll (Relays.keptByEntries response) _ hrelays).bind ?_
  intro t _ hrelays
  exact hrelays

/-- On every route the response is what the service's answer comes to, if it was asked. -/
theorem relays_serveLimited (limits : ServerLimits) (now : Instant) (r : Request) :
    (serveLimited limits now r).Keeps anyQuestion Relays [] := by
  unfold serveLimited
  split
  · split
    · intro h a hmem
      cases hmem
    · exact relays_serveObserved _ now r
  · exact relays_serveObserved limits now r

/-! ### Identifiers on their way -/

theorem SameRequest.all {name : String} {r' : Request} (hsame : SameRequest freshId r r')
    (hname : name ≠ requestIdHeader) : r'.headers.all name = r.headers.all name := by
  rcases hsame.headers with heq | ⟨-, heq⟩
  · rw [heq]
  · rw [heq]
    simp [Headers.all, hname.symm]

theorem ConnectionScoped.congr {h h' : Headers} {name : String} (heq : h'.all "connection" = h.all "connection")
    (hscoped : ConnectionScoped h name) : ConnectionScoped h' name := by
  cases hscoped with
  | always hname => exact .always hname
  | named value element hvalue hplain helement hne hname =>
    exact .named value element (heq ▸ hvalue) hplain helement hne hname

theorem connectionScoped_identify {name : String} :
    ConnectionScoped (identify freshId r).headers name ↔ ConnectionScoped r.headers name := by
  have hsame := (sameRequest_identify freshId r).all (by decide : "connection" ≠ requestIdHeader)
  exact ⟨.congr hsame.symm, .congr hsame⟩

/-- The identifier under which a request is decided on. -/
def identifierOf (freshId : String) (r : Request) : String := (r.headers.first? requestIdHeader).getD freshId

theorem first?_identify (freshId : String) (r : Request) :
    (identify freshId r).headers.first? requestIdHeader = some (identifierOf freshId r) := by
  unfold identify identifierOf
  cases hid : r.headers.first? requestIdHeader with
  | some id => rw [Option.isSome_some, if_pos rfl, hid, Option.getD_some]
  | none =>
    rw [Headers.first?] at hid
    simp [Headers.first?, List.lookup_append, hid]

theorem first?_propagateId {id : String} (hid : r.headers.first? requestIdHeader = some id) (x : Response) :
    (propagateId r x).headers.first? requestIdHeader
      = some ((x.headers.first? requestIdHeader).getD id) := by
  unfold propagateId
  rw [hid]
  cases hown : x.headers.first? requestIdHeader with
  | some own => exact hown
  | none =>
    rw [Headers.first?] at hown
    simp [Headers.first?, List.lookup_append, hown]

theorem first?_withLength (x : Response) :
    x.withLength.headers.first? requestIdHeader = x.headers.first? requestIdHeader := by
  unfold Response.withLength
  split
  · rfl
  · simp [Headers.first?, List.lookup_append, List.lookup_cons, requestIdHeader]

theorem first?_conclude (r : Request) (x : Response) :
    (conclude r x).headers.first? requestIdHeader = x.headers.first? requestIdHeader := by
  unfold conclude
  split
  · rfl
  split
  · rfl
  split
  · exact first?_withLength x
  · exact first?_withLength x

/-- What the service is told of an identifier: all of it, or nothing. -/
theorem all_headers_requestId (h : Headers) (c : Claims) :
    (ConnectionScoped h requestIdHeader → (Proxy.headers h c).all requestIdHeader = []) ∧
      (¬ ConnectionScoped h requestIdHeader →
        (Proxy.headers h c).all requestIdHeader = h.all requestIdHeader) := by
  have hstrips := strips_endToEnd h requestIdHeader
  rw [all_headers_of_ne h c (by decide) (by decide)]
  exact ⟨hstrips.dropped, hstrips.kept⟩

/-- A service that sets no identifier leaves the response without one, and so does a fault. -/
theorem first?_relayed {a : Timed (Except Problem Response)} {b : Except ServiceFault Response}
    (ha : a.value = Proxy.conclude b)
    (hb : ∀ answer, b = .ok answer → answer.headers.first? requestIdHeader = none) :
    (relayed a).headers.first? requestIdHeader = none := by
  unfold relayed
  rw [ha]
  cases b with
  | ok answer =>
    have hnone := hb answer rfl
    have hstrips := strips_endToEnd answer.headers requestIdHeader
    change (endToEnd answer.headers).first? requestIdHeader = none
    rw [Headers.first?_eq_head?] at hnone ⊢
    by_cases hscoped : ConnectionScoped answer.headers requestIdHeader
    · rw [show (endToEnd answer.headers).all requestIdHeader = [] from hstrips.dropped hscoped]
      rfl
    · rw [show (endToEnd answer.headers).all requestIdHeader = answer.headers.all requestIdHeader from
        hstrips.kept hscoped]
      exact hnone
  | error fault => cases fault <;> rfl

/-! ### Served requests -/

/-- What is handed over is the request with its identifier. -/
theorem request_of_mem_handovers (hmem : h ∈ handovers (serveRecorded limits now freshId w r s).asked) :
    h.request = identify freshId r := by
  by_cases hopen : Route.of r.uri.path ≠ .guarded ∨ ¬ Announced limits r
  · rw [handovers_of_open hopen] at hmem
    cases hmem
  · rw [not_or, Classical.not_not, Classical.not_not] at hopen
    have houtcome : Outcome limits (decisionOn limits now r) (identify freshId r)
        (serveRecorded limits now freshId w r s) := outcome_serveRecorded hopen.1 hopen.2
    rcases houtcome.kept_or_handsOver with hnone | ⟨before, handover, hhands, -, hr, -⟩
    · rw [hnone] at hmem
      cases hmem
    · rw [hhands.once] at hmem
      rw [List.mem_singleton.1 hmem, hr]

theorem mem_of_mem_handovers {x : Response} {s' : σ} {t : Record}
    (hmem : h ∈ handovers (Served.asked (.ok (x, s', t) : Served σ ε))) :
    ∃ a, (⟨.forward h, a⟩ : Exchange Query.Answer) ∈ t := by
  obtain ⟨q, hq, hhandover⟩ := List.mem_filterMap.1 hmem
  obtain ⟨⟨q, a⟩, hx, rfl⟩ := List.mem_map.1 hq
  cases q with
  | forward h' =>
    cases hhandover
    exact ⟨a, hx⟩
  | access | ping | log | measure => cases hhandover

/-- The response of a served request: what the answer to a handover comes to, or that time was up. -/
theorem response_of_handed {x : Response} {s' : σ} {t : Record}
    (hserved : serveRecorded limits now freshId w r s = .ok (x, s', t))
    {a : Timed (Except Problem Response)} (ha : (⟨.forward h, a⟩ : Exchange Query.Answer) ∈ t) :
    (∃ s₁ s₂, w.forward h s₁ = .ok (a, s₂)) ∧
      ∃ y, (y = relayed a ∨ y = requestTimedOut) ∧
        x = conclude (identify freshId r) (propagateId (identify freshId r) y) := by
  have hrun := (relays_serveLimited limits now (identify freshId r)).runUntil w.answer
    (Query.wait limits.storeTimeout) limits.requestTimeout s
  simp only [serveRecorded, serve] at hserved
  rcases heq : (serveLimited limits now (identify freshId r)).runUntil (recorded w.answer)
    (Query.wait limits.storeTimeout) limits.requestTimeout (s, [])
    with ⟨e, t', q⟩ | ⟨y | _, s'', t'⟩
  · rw [heq] at hserved
    cases hserved
  · rw [heq] at hserved hrun
    cases hserved
    rcases answered_of_mem_record heq ha with hnil | hanswered
    · cases hnil
    · exact ⟨hanswered, y, Or.inl (hrun h a ha), rfl⟩
  · rw [heq] at hserved
    cases hserved
    rcases answered_of_mem_record heq ha with hnil | hanswered
    · cases hnil
    · exact ⟨hanswered, requestTimedOut, Or.inr rfl, rfl⟩

/-- **A request can be traced at the service just if the client does not name the identifier for its
connection**; if it does, the service sees none at all. Whatever is handed over, the response carries the
request's identifier if the service sets none of its own, also if it fails or is late. -/
theorem traced_iff (limits : ServerLimits) (now : Instant) (freshId : String) (w : Surroundings σ ε) (p : Proxy)
    (service : Service σ ε) (r : Request) (s : σ) (h : Handover)
    (hsent : h ∈ handovers (serveRecorded limits now freshId (w.through p service) r s).asked) :
    ((p.outgoing h).headers.first? requestIdHeader = some (identifierOf freshId r)
      ↔ ¬ ConnectionScoped r.headers requestIdHeader) ∧
    (ConnectionScoped r.headers requestIdHeader → (p.outgoing h).headers.all requestIdHeader = []) ∧
    ∀ x s' t, serveRecorded limits now freshId (w.through p service) r s = .ok (x, s', t) →
      ∃ s₁ s₂ a, service (p.outgoing h) s₁ = .ok (a, s₂) ∧
        ((∀ answer, a.value = .ok answer → answer.headers.first? requestIdHeader = none) →
          x.headers.first? requestIdHeader = some (identifierOf freshId r)) := by
  have hrequest := request_of_mem_handovers hsent
  obtain ⟨hdropped, hkept⟩ := all_headers_requestId h.request.headers h.claims
  rw [hrequest, connectionScoped_identify] at hdropped hkept
  refine ⟨⟨?_, ?_⟩, ?_, ?_⟩
  · intro hfirst hscoped
    rw [Headers.first?_eq_head?, Proxy.outgoing, hrequest, hdropped hscoped] at hfirst
    cases hfirst
  · intro hscoped
    rw [Headers.first?_eq_head?, Proxy.outgoing, hrequest, hkept hscoped, ← Headers.first?_eq_head?]
    exact first?_identify freshId r
  · intro hscoped
    rw [Proxy.outgoing, hrequest]
    exact hdropped hscoped
  · intro x s' t hserved
    rw [hserved] at hsent
    obtain ⟨a, ha⟩ := mem_of_mem_handovers hsent
    obtain ⟨⟨s₁, s₂, hforward⟩, y, hy, rfl⟩ := response_of_handed hserved ha
    obtain ⟨b, hservice, hvalue⟩ := of_through_forward hforward
    refine ⟨s₁, s₂, b, hservice, ?_⟩
    intro hnone
    have hanonymous : y.headers.first? requestIdHeader = none := by
      rcases hy with rfl | rfl
      · exact first?_relayed hvalue hnone
      · rfl
    rw [first?_conclude, first?_propagateId (first?_identify freshId r), hanonymous, Option.getD_none]

/-! ### Runs before a service that sets no identifiers -/

/-- Surroundings that let every token through, as one for the key `k`. -/
def admitting : Surroundings Unit Unit where
  access
    | .verify _, s => .ok (.ok { apiKey := "k", exp := 200 }, s)
    | .fetch _, s => .ok ({ value := .ok ⟨"k", 1, { secs := 1000 }, []⟩ }, s)
    | .allow _ _, s => .ok ({ value := .ok true }, s)
  ping _ := .error ()
  forward _ _ := .error ()
  log _ s := s
  measure _ s := s

def backend : Proxy where
  target := { scheme := "http", host := some (.domain "backend"), path := .segments [""] }

/-- Surroundings that let every token through to a service that answers after seven milliseconds. -/
def admittingBackend : Surroundings Unit Unit :=
  admitting.through backend fun _ s => .ok ({ value := .ok { status := 200, body := "ok" }, delay := 7 }, s)

/-- A request with two identifiers of its own. -/
def labelledRequest : Request where
  uri := { rawPath := "/api/v1/orders" }
  headers := [("authorization", "Bearer t"), ("connection", "close"), ("x-request-id", "trace-1"),
    ("x-request-id", "trace-2")]

theorem labelledRequest_traced :
    ∃ h x s' t, serveRecorded { maxBodyBytes := 0, requestTimeout := 30000 } { secs := 100 } "fresh"
        admittingBackend labelledRequest () = .ok (x, s', t) ∧
      h ∈ handovers (Served.asked (.ok (x, s', t) : Served Unit Unit)) ∧
      (backend.outgoing h).headers.first? "x-request-id" = some "trace-1" ∧
      x.headers.first? "x-request-id" = some "trace-1" := by
  have hsent : ⟨labelledRequest, { apiKey := "k", exp := 200 }, 0⟩ ∈ handovers
      (serveRecorded { maxBodyBytes := 0, requestTimeout := 30000 } { secs := 100 } "fresh" admittingBackend
        labelledRequest ()).asked := by decide +kernel
  have hanswered : (serveRecorded { maxBodyBytes := 0, requestTimeout := 30000 } { secs := 100 } "fresh"
      admittingBackend labelledRequest ()).toOption.isSome = true := by decide +kernel
  obtain ⟨hiff, -, hresponse⟩ := traced_iff _ _ _ _ _ _ _ _ _ hsent
  have hplain : ¬ ConnectionScoped labelledRequest.headers requestIdHeader :=
    mt mem_dropped_iff.2 (by decide +kernel)
  rcases hserved : serveRecorded { maxBodyBytes := 0, requestTimeout := 30000 } { secs := 100 } "fresh"
    admittingBackend labelledRequest () with e | ⟨x, s', t⟩
  · rw [hserved] at hanswered
    cases hanswered
  · obtain ⟨s₁, s₂, a, hservice, hfirst⟩ := hresponse x s' t hserved
    refine ⟨_, x, s', t, rfl, hserved ▸ hsent, hiff.2 hplain, hfirst ?_⟩
    intro answer hanswer
    cases hservice
    cases hanswer
    rfl

/-- **Hidden from the service**: a request names the identifier for its connection. It is let through with a fresh
identifier, and the service is not told of it. -/
theorem untraced_by_connection :
    ∃ (r : Request) (h : Handover),
      Request.ofParts? "GET" "/api/v1/orders" [("Authorization", "Bearer t"),
        ("Connection", "close, X-Request-Id")] "" = some r ∧
      handovers (serveRecorded { maxBodyBytes := 0, requestTimeout := 30000 } { secs := 100 } "fresh"
        admittingBackend r ()).asked = [h] ∧
      h.request.headers.first? "x-request-id" = some "fresh" ∧
      (backend.outgoing h).headers.all "x-request-id" = [] :=
  ⟨{ uri := { rawPath := "/api/v1/orders" },
      headers := [("authorization", "Bearer t"), ("connection", "close, X-Request-Id")] },
    { request :=
        { uri := { rawPath := "/api/v1/orders" },
          headers := [("authorization", "Bearer t"), ("connection", "close, X-Request-Id"),
            ("x-request-id", "fresh")] },
      claims := { apiKey := "k", exp := 200 }, maxBodyBytes := 0 },
    by decide +kernel, by decide +kernel, by decide +kernel, by decide +kernel⟩

end Turnstile.Gateway
