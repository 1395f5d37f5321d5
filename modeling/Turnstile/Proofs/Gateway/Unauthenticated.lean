import Turnstile.Gateway.Backends
import Turnstile.Proofs.Access.Admission
import Turnstile.Proofs.Gateway.Mediation
/-!
# Unauthenticated callers

A request below the stem without a good token for its path is turned away by the key set and the clock alone:
all that is asked about it is known beforehand, whatever the backends hold (`exists_foretold_serveLimited`). So
the caller learns nothing of the records and counters, and changes none of them (`nothing_learned_or_changed`).
-/

namespace Turnstile.Gateway

open Time Dialogue

variable {keys : Jwt.KeySet} {now : Instant} {r : Http.Request} {limits : ServerLimits} {x : Http.Response}

/-- A request has no credential that is good for its path at an instant. -/
inductive Unauthenticated (keys : Jwt.KeySet) (now : Instant) (r : Http.Request) : Prop where
  | absent (h : authorizationOf r = none)
  | malformed (value : String) (h : authorizationOf r = some value) (hvalue : extractBearer value = none)
  | unverified (value token : String) (e : VerifyError) (h : authorizationOf r = some value)
      (htoken : extractBearer value = some token) (hverify : keys.verify token = .error e)
  | expired (value token : String) (c : Claims) (h : authorizationOf r = some value)
      (htoken : extractBearer value = some token) (hverify : keys.verify token = .ok c)
      (hexpired : ∀ expiry, c.expiration = some expiry → expiry ≤ now)
  | outOfScope (value token : String) (c : Claims) (h : authorizationOf r = some value)
      (htoken : extractBearer value = some token) (hverify : keys.verify token = .ok c)
      (hscope : c.allowedRoutes ≠ []) (hpath : isPathAllowed r.uri.path c.allowedRoutes = false)

/-! ### What is known beforehand -/

/-- What a gateway with a key set answers whatever its backends hold. -/
def known (keys : Jwt.KeySet) : (q : Query) → Option q.Answer
  | .access (.verify token) => some (keys.verify token)
  | .log _ | .measure _ => some ()
  | .access (.fetch _) | .access (.allow _ _) | .ping | .forward _ => none

theorem foreseen_answer {σ ε : Type} (b : Backends σ ε) (keys : Jwt.KeySet) (storeTimeout : Nat) :
    Foreseen (known keys) (b.answer keys) (Query.wait storeTimeout) Running.held where
  answers q a s h := by
    cases q with
    | access q =>
      cases q with
      | verify token =>
        cases h
        exact ⟨s, rfl, rfl⟩
      | fetch | allow => cases h
    | log | measure => exact ⟨_, rfl, rfl⟩
    | ping | forward => cases h
  at_once q a h := by
    cases q with
    | access q =>
      cases q with
      | verify token => rfl
      | fetch | allow => cases h
    | log | measure => rfl
    | ping | forward => cases h

/-- The pipeline's part of what is asked about a request. -/
def decision (timeout : Nat) (now : Instant) (r : Http.Request) : Serving (Except AccessDenied Claims) :=
  (Access.evaluate timeout now (authorizationOf r) r.uri.path).embed Query.access fun _ a => a

theorem foretold_of_refused {value token : String} {c : Claims} (h : authorizationOf r = some value)
    (htoken : extractBearer value = some token) (hverify : keys.verify token = .ok c)
    (hcheck : Access.checkClaims now r.uri.path c ≠ .ok ()) :
    ∃ denied, ∀ timeout, (decision timeout now r).foretold (known keys) = some (.error denied) := by
  cases hdenied : Access.checkClaims now r.uri.path c with
  | error denied =>
    refine ⟨denied, fun timeout => ?_⟩
    simp [decision, Access.evaluate, h, htoken, embed, foretold, known, hverify, hdenied]
  | ok _ => exact absurd hdenied hcheck

/-- The pipeline denies the request, and that is known beforehand. -/
theorem exists_foretold_decision (h : Unauthenticated keys now r) :
    ∃ denied, ∀ timeout, (decision timeout now r).foretold (known keys) = some (.error denied) := by
  cases h with
  | absent h =>
    refine ⟨.missingCredential "missing bearer token", fun timeout => ?_⟩
    simp [decision, Access.evaluate, h, embed, foretold]
  | malformed value h hvalue =>
    refine ⟨.missingCredential "missing bearer token", fun timeout => ?_⟩
    simp [decision, Access.evaluate, h, hvalue, embed, foretold]
  | unverified value token e h htoken hverify =>
    refine ⟨.invalidCredential e.message, fun timeout => ?_⟩
    simp [decision, Access.evaluate, h, htoken, embed, foretold, known, hverify]
  | expired value token c h htoken hverify hexpired =>
    refine foretold_of_refused h htoken hverify fun hcheck => ?_
    obtain ⟨-, ⟨expiry, hexpiry, halive⟩, -⟩ := Access.checkClaims_eq_ok_iff.1 hcheck
    exact absurd halive (not_lt.2 (hexpired expiry hexpiry))
  | outOfScope value token c h htoken hverify hscope hpath =>
    refine foretold_of_refused h htoken hverify fun hcheck => ?_
    obtain ⟨-, -, hnone | hallowed⟩ := Access.checkClaims_eq_ok_iff.1 hcheck
    · exact hscope hnone
    · cases hpath.symm.trans hallowed

/-! ### The router -/

theorem foretold_measureAll (ms : List Metric) : (measureAll ms).foretold (known keys) = some () := by
  induction ms with
  | nil => rfl
  | cons m rest ih => exact ih

theorem foretold_serveGuarded {denied : AccessDenied}
    (h : (decision limits.storeTimeout now r).foretold (known keys) = some (.error denied)) :
    (serveGuarded limits now r).foretold (known keys) = some (Problem.ofDenial denied).toResponse := by
  unfold serveGuarded
  change ((decision limits.storeTimeout now r) >>= _).foretold (known keys) = _
  rw [foretold_bind, h]
  rfl

/-- A request is observed by entries, which change nothing of what is known. -/
theorem foretold_serveObserved (h : (serveRoute limits now r).foretold (known keys) = some x) :
    (serveObserved limits now r).foretold (known keys) = some x := by
  unfold serveObserved
  simp only [foretold_bind, h, foretold_measureAll, Option.bind_some]
  rfl

/-- Below the stem there are only guarded paths, and the stem itself. -/
theorem route_of_stem (hpath : guardedStem.toList <+: r.uri.path.toList) :
    Route.of r.uri.path = .guarded ∨ Route.of r.uri.path = .unknown := by
  have hne {probe : String} (hprobe : ¬ guardedStem.toList <+: probe.toList) : r.uri.path ≠ probe :=
    fun heq => hprobe (heq ▸ hpath)
  unfold Route.of
  rw [if_neg (hne (by decide)), if_neg (hne (by decide)), if_neg (hne (by decide))]
  split
  · exact Or.inl rfl
  · exact Or.inr rfl

theorem authorizationOf_identify (freshId : String) (r : Http.Request) :
    authorizationOf (identify freshId r) = authorizationOf r := by
  simp only [authorizationOf, (sameRequest_identify freshId r).first? (by decide : "authorization" ≠ _)]

theorem declaredLength?_identify (freshId : String) (r : Http.Request) :
    declaredLength? (identify freshId r) = declaredLength? r := by
  simp only [declaredLength?, (sameRequest_identify freshId r).first? (by decide : "content-length" ≠ _)]

theorem decision_identify (timeout : Nat) (now : Instant) (freshId : String) (r : Http.Request) :
    decision timeout now (identify freshId r) = decision timeout now r := by
  rw [decision, authorizationOf_identify, (sameRequest_identify freshId r).uri]
  rfl

/-- A response that has no identifier of its own. -/
def Anonymous (x : Http.Response) : Prop := x.headers.first? requestIdHeader = none

theorem anonymous_ofDenial (denied : AccessDenied) : Anonymous (Problem.ofDenial denied).toResponse := by
  cases denied <;> rfl

theorem exists_foretold_serveObserved (hpath : guardedStem.toList <+: r.uri.path.toList)
    (h : Unauthenticated keys now r) :
    ∃ x, Anonymous x ∧
      ∀ limits freshId, (serveObserved limits now (identify freshId r)).foretold (known keys) = some x := by
  rcases route_of_stem hpath with hroute | hroute
  · obtain ⟨denied, hdenied⟩ := exists_foretold_decision h
    refine ⟨_, anonymous_ofDenial denied, fun limits freshId => foretold_serveObserved ?_⟩
    rw [serveRoute, (sameRequest_identify freshId r).uri, hroute]
    refine foretold_serveGuarded ?_
    rw [decision_identify]
    exact hdenied _
  · refine ⟨{ status := 404 }, rfl, fun limits freshId => foretold_serveObserved ?_⟩
    rw [serveRoute, (sameRequest_identify freshId r).uri, hroute]
    rfl

/-- All that is asked about the request is known beforehand, whatever identifier it is given. -/
theorem exists_foretold_serveLimited (limits : ServerLimits) (hpath : guardedStem.toList <+: r.uri.path.toList)
    (h : Unauthenticated keys now r) :
    ∃ x, Anonymous x ∧
      ∀ freshId, (serveLimited limits now (identify freshId r)).foretold (known keys) = some x := by
  obtain ⟨x, hx, hforetold⟩ := exists_foretold_serveObserved hpath h
  cases hlength : declaredLength? r with
  | none =>
    refine ⟨x, hx, fun freshId => ?_⟩
    rw [serveLimited, declaredLength?_identify, hlength]
    exact hforetold limits freshId
  | some n =>
    by_cases hlong : limits.maxBodyBytes < n
    · refine ⟨lengthLimitExceeded, rfl, fun freshId => ?_⟩
      rw [serveLimited, declaredLength?_identify, hlength]
      simp only [if_pos hlong]
      rfl
    · refine ⟨x, hx, fun freshId => ?_⟩
      rw [serveLimited, declaredLength?_identify, hlength]
      simp only [if_neg hlong]
      exact hforetold _ freshId

/-! ### Identifiers -/

/-- The response with another value for its identifier, where it has one. -/
def relabel (id : String) (x : Http.Response) : Http.Response :=
  { x with headers := x.headers.map fun h => if h.1 = requestIdHeader then (h.1, id) else h }

theorem first?_relabel (id : String) (x : Http.Response) {name : String} (hname : name ≠ requestIdHeader) :
    (relabel id x).headers.first? name = x.headers.first? name := by
  simp only [relabel, Http.Headers.first?]
  induction x.headers with
  | nil => rfl
  | cons e rest ih =>
    obtain ⟨n, v⟩ := e
    by_cases hn : n = requestIdHeader
    · subst hn
      have hskip : (name == requestIdHeader) = false := by simpa using hname
      simp [List.lookup_cons, hskip, ih]
    · simp [List.lookup_cons, hn, ih]

theorem relabel_of_anonymous (id : String) (hx : Anonymous x) : relabel id x = x := by
  have hheaders : ∀ e ∈ x.headers, (if e.1 = requestIdHeader then (e.1, id) else e) = e := by
    intro e he
    have hne : e.1 ≠ requestIdHeader := fun heq => by simpa [heq] using List.lookup_eq_none_iff.1 hx e he
    exact if_neg hne
  rw [relabel, List.map_congr_left hheaders, List.map_id']

theorem propagateId_identify (id : String) (hx : Anonymous x) (hr : r.headers.first? requestIdHeader = none) :
    propagateId (identify id r) x = { x with headers := x.headers ++ [(requestIdHeader, id)] } := by
  have hid : (identify id r).headers.first? requestIdHeader = some id := by
    rw [Http.Headers.first?] at hr
    simp [identify, Http.Headers.first?, List.lookup_append, hr]
  rw [Anonymous] at hx
  simp only [propagateId, hid, hx, Option.isSome_none, Bool.false_eq_true, if_false]

theorem relabel_propagateId (id₁ id₂ : String) (hx : Anonymous x)
    (hr : r.headers.first? requestIdHeader = none) :
    relabel id₂ (propagateId (identify id₁ r) x) = propagateId (identify id₂ r) x := by
  have hsame : x.headers.map (fun h => if h.1 = requestIdHeader then (h.1, id₂) else h) = x.headers :=
    congrArg Http.Response.headers (relabel_of_anonymous id₂ hx)
  rw [propagateId_identify id₁ hx hr, propagateId_identify id₂ hx hr]
  simp [relabel, hsame]

theorem relabel_withLength (id : String) (x : Http.Response) :
    relabel id x.withLength = (relabel id x).withLength := by
  have hlength := first?_relabel id x (by decide : "content-length" ≠ requestIdHeader)
  unfold Http.Response.withLength
  rw [hlength]
  split
  · rfl
  · simp [relabel, requestIdHeader]

theorem relabel_conclude (id : String) {r₁ r₂ : Http.Request} (hmethod : r₁.method = r₂.method)
    (huri : r₁.uri = r₂.uri) (x : Http.Response) : relabel id (conclude r₁ x) = conclude r₂ (relabel id x) := by
  have hstatus : (relabel id x).status = x.status := rfl
  unfold conclude
  rw [hmethod, huri, hstatus]
  split
  · rfl
  split
  · rfl
  split
  · exact congrArg Http.Response.withoutBody (relabel_withLength id x)
  · exact relabel_withLength id x

/-! ### Two gateways -/

section Gateways

variable {σ ε : Type}

/-- A request of which all is known beforehand is answered so, and the backends are left alone. -/
theorem serve_of_foretold (b : Backends σ ε) (freshId : String) (s : Running σ)
    (h : (serveLimited limits now (identify freshId r)).foretold (known keys) = some x) :
    ∃ s', serve limits now freshId (b.answer keys) r s
        = .ok (conclude (identify freshId r) (propagateId (identify freshId r)
            (if limits.requestTimeout = 0 then requestTimedOut else x)), s') ∧
      s'.held = s.held := by
  obtain ⟨s', hrun, hheld⟩ :=
    runUntil_of_foretold (foreseen_answer b keys limits.storeTimeout) h limits.requestTimeout s
  refine ⟨s', ?_, hheld⟩
  simp only [serve, hrun]
  by_cases hnone : limits.requestTimeout = 0
  · simp only [if_pos hnone]
  · simp only [if_neg hnone]

/-- **An unauthenticated caller learns and changes nothing**: two gateways with one key set and one clock answer
a request alike that has no credential which is good for its path, but for an identifier that they have made up
themselves. Whatever their backends are and hold, they go on holding it. -/
theorem nothing_learned_or_changed {σ₁ σ₂ ε₁ ε₂ : Type} (limits : ServerLimits) (now : Instant)
    (keys : Jwt.KeySet) (b₁ : Backends σ₁ ε₁) (b₂ : Backends σ₂ ε₂) (s₁ : Running σ₁) (s₂ : Running σ₂)
    (id₁ id₂ : String) (r : Http.Request) (hpath : guardedStem.toList <+: r.uri.path.toList)
    (h : Unauthenticated keys now r) :
    ∃ x₁ x₂ s₁' s₂', serve limits now id₁ (b₁.answer keys) r s₁ = .ok (x₁, s₁') ∧
      serve limits now id₂ (b₂.answer keys) r s₂ = .ok (x₂, s₂') ∧
      (x₂ = if (r.headers.first? requestIdHeader).isSome then x₁ else relabel id₂ x₁) ∧
      s₁'.held = s₁.held ∧ s₂'.held = s₂.held := by
  obtain ⟨x, hx, hforetold⟩ := exists_foretold_serveLimited limits hpath h
  obtain ⟨s₁', hserve₁, hheld₁⟩ := serve_of_foretold b₁ id₁ s₁ (hforetold id₁)
  obtain ⟨s₂', hserve₂, hheld₂⟩ := serve_of_foretold b₂ id₂ s₂ (hforetold id₂)
  refine ⟨_, _, s₁', s₂', hserve₁, hserve₂, ?_, hheld₁, hheld₂⟩
  have hanonymous : Anonymous (if limits.requestTimeout = 0 then requestTimedOut else x) := by
    split
    · rfl
    · exact hx
  cases hid : r.headers.first? requestIdHeader with
  | some id =>
    have hkept (freshId : String) : identify freshId r = r := by simp [identify, hid]
    simp [hkept]
  | none =>
    have hsame₁ := sameRequest_identify id₁ r
    have hsame₂ := sameRequest_identify id₂ r
    simp only [Option.isSome_none, Bool.false_eq_true, if_false]
    rw [relabel_conclude id₂ (hsame₁.method.trans hsame₂.method.symm) (hsame₁.uri.trans hsame₂.uri.symm),
      relabel_propagateId id₁ id₂ hanonymous hid]

end Gateways

/-- A request with a token for the key `k` that expires at second 200. -/
def lateRequest : Http.Request where
  uri := { rawPath := "/api/v1/users" }
  headers := [("authorization", "Bearer " ++ Access.oneLetterToken)]

def withoutService : Backends Access.Stores Fault :=
  .ofLocal Access.oneLetter { secs := 300 } fun _ => .error (.badGateway "bad gateway")

/-- A hundred seconds later it is answered alike whether there is a record for the key or not. -/
theorem lateRequest_answered_alike :
    ∃ x s₁ s₂, serve { maxBodyBytes := 0, requestTimeout := 1 } { secs := 300 } "1"
          (withoutService.answer Access.oneLetter.keys) lateRequest { held := {} } = .ok (x, s₁) ∧
      serve { maxBodyBytes := 0, requestTimeout := 1 } { secs := 300 } "2"
          (withoutService.answer Access.oneLetter.keys) lateRequest
          { held := { tokens := (∅ : TokenTable).insert "k" ⟨"k", 1, { secs := 1000 }, []⟩ } }
        = .ok (relabel "2" x, s₂) ∧
      s₁.held = {} ∧ s₂.held = { tokens := (∅ : TokenTable).insert "k" ⟨"k", 1, { secs := 1000 }, []⟩ } := by
  have hverify : Access.oneLetter.keys.verify Access.oneLetterToken = .ok { apiKey := "k", exp := 200 } :=
    Access.toOption_eq_some_iff.1 Access.verify_oneLetterToken
  have hlate : Unauthenticated Access.oneLetter.keys { secs := 300 } lateRequest := by
    refine .expired ("Bearer " ++ Access.oneLetterToken) Access.oneLetterToken _ ?_ ?_ hverify ?_
    · decide +kernel
    · decide +kernel
    · intro expiry hexpiry
      cases hexpiry
      decide
  obtain ⟨x₁, x₂, s₁, s₂, hserve₁, hserve₂, heq, hheld₁, hheld₂⟩ := nothing_learned_or_changed
    { maxBodyBytes := 0, requestTimeout := 1 } { secs := 300 } Access.oneLetter.keys withoutService
    withoutService { held := {} }
    { held := { tokens := (∅ : TokenTable).insert "k" ⟨"k", 1, { secs := 1000 }, []⟩ } } "1" "2" lateRequest
    (by decide +kernel) hlate
  refine ⟨x₁, s₁, s₂, hserve₁, ?_, hheld₁, hheld₂⟩
  rw [hserve₂, heq]
  rfl

end Turnstile.Gateway
