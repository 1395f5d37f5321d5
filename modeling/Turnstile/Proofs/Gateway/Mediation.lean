import Turnstile.Gateway.Router
import Turnstile.Proofs.Dialogue
/-!
# Complete mediation

Nothing reaches the service but what the pipeline has let through. A request is served in surroundings
that may do anything: the stores and the service answer what they like, after any time and from any state,
or break the run, and only log and metrics always take their entries. The record of what was asked shows
at most one handover to the service, which follows on a complete run of the pipeline on this very request
and carries the claims that came of it.
-/

namespace Turnstile.Gateway

open Time Dialogue

/-! ### Surroundings and records -/

structure Surroundings (σ ε : Type) where
  access : (q : Access.Query) → σ → Except ε (q.Answer × σ)
  ping : σ → Except ε (Pinged × σ)
  forward : Handover → σ → Except ε (Timed (Except Problem Http.Response) × σ)
  log : LogEvent → σ → σ
  measure : Metric → σ → σ

def Surroundings.answer {σ ε : Type} (w : Surroundings σ ε) :
    (q : Query) → σ → Except ε (q.Answer × σ)
  | .access q, s => w.access q s
  | .ping, s => w.ping s
  | .forward h, s => w.forward h s
  | .log e, s => .ok ((), w.log e s)
  | .measure m, s => .ok ((), w.measure m s)

abbrev Record := List (Exchange Query.Answer)

def Query.handover? : Query → Option Handover
  | .forward h => some h
  | _ => none

def handovers (asked : List Query) : List Handover := asked.filterMap Query.handover?

def accessExchange? : Exchange Query.Answer → Option (Exchange Access.Query.Answer)
  | ⟨.access q, a⟩ => some ⟨q, a⟩
  | _ => none

/-- The part of a record that belongs to the pipeline. -/
def pipelinePart (t : Record) : List (Exchange Access.Query.Answer) := t.filterMap accessExchange?

/-- What comes of serving a request on the record: a response, or the question that broke the run. -/
abbrev Served (σ ε : Type) := Except (ε × Record × Query) (Http.Response × σ × Record)

namespace Served

variable {σ ε : Type}

def record : Served σ ε → Record
  | .ok (_, _, t) => t
  | .error (_, t, _) => t

def asked : Served σ ε → List Query
  | .ok (_, _, t) => t.map (·.1)
  | .error (_, t, q) => t.map (·.1) ++ [q]

end Served

def serveRecorded {σ ε : Type} (limits : ServerLimits) (now : Instant) (freshId : String)
    (w : Surroundings σ ε) (r : Http.Request) (s : σ) : Served σ ε :=
  serve limits now freshId (recorded w.answer) r (s, [])

/-- The record is that of the request as it is served without one. -/
theorem forget_serveRecorded {σ ε : Type} (limits : ServerLimits) (now : Instant) (freshId : String)
    (w : Surroundings σ ε) (r : Http.Request) (s : σ) :
    forget (serveRecorded limits now freshId w r s) = serve limits now freshId w.answer r s := by
  simp only [serveRecorded, serve]
  rw [← forget_runUntil_recorded w.answer _ _ _ s []]
  rcases (serveLimited limits now (identify freshId r)).runUntil (recorded w.answer)
    (Query.wait limits.storeTimeout) limits.requestTimeout (s, [])
    with ⟨e, t, q⟩ | ⟨_ | _, s', t⟩ <;> rfl

/-! ### Questions that are due -/

/-- An entry in the log or in the metrics. -/
def Query.isEntry : Query → Bool
  | .log _ | .measure _ => true
  | _ => false

def Query.isInside : Query → Bool
  | .access _ | .log _ | .measure _ => true
  | _ => false

abbrev Decision := Dialogue Access.Query Access.Query.Answer (Except AccessDenied Claims)

/-- The pipeline has come to `d`, and nothing has left the gateway. -/
structure At (p : Decision) (d : Decision) (t : Record) : Prop where
  inside : ∀ x ∈ t, x.1.isInside
  reaches : Reaches p (pipelinePart t) d

/-- The request has been handed over once, with the claims that the pipeline came to. -/
def Handed (p : Decision) (r : Http.Request) (t : Record) : Prop :=
  ∃ before h a after, t = before ++ ⟨.forward h, a⟩ :: after ∧ At p (.done (.ok h.claims)) before ∧
    h.request = r ∧ ∀ x ∈ after, x.1.isEntry

/-- The questions that may come up on a guarded path. -/
def Due (p : Decision) (r : Http.Request) (t : Record) : Query → Prop
  | .access q => ∃ next, At p (.ask q next) t
  | .ping => False
  | .forward h => At p (.done (.ok h.claims)) t ∧ h.request = r
  | .log _ | .measure _ => (∃ d, At p d t) ∨ Handed p r t

/-- The responses that may come of it: to a denial, or after a handover. -/
def Answered (p : Decision) (r : Http.Request) (t : Record) (response : Http.Response) : Prop :=
  (∃ denied, At p (.done (.error denied)) t ∧ response = (Problem.ofDenial denied).toResponse) ∨
    Handed p r t

variable {p d : Decision} {r : Http.Request} {t : Record}

theorem isInside_of_isEntry {q : Query} (hq : q.isEntry) : q.isInside := by
  cases q with
  | access | log | measure => rfl
  | ping | forward => cases hq

theorem pipelinePart_entry {x : Exchange Query.Answer} (hx : x.1.isEntry) :
    pipelinePart (t ++ [x]) = pipelinePart t := by
  obtain ⟨q, a⟩ := x
  cases q with
  | log | measure => simp [pipelinePart, accessExchange?]
  | access | ping | forward => cases hx

theorem forall_mem_snoc {P : Exchange Query.Answer → Prop} {x : Exchange Query.Answer}
    (h : ∀ y ∈ t, P y) (hx : P x) : ∀ y ∈ t ++ [x], P y :=
  List.forall_mem_append.2 ⟨h, List.forall_mem_singleton.2 hx⟩

theorem At.entry {x : Exchange Query.Answer} (h : At p d t) (hx : x.1.isEntry) : At p d (t ++ [x]) := by
  refine ⟨forall_mem_snoc h.inside (isInside_of_isEntry hx), ?_⟩
  rw [pipelinePart_entry hx]
  exact h.reaches

theorem At.answer {q : Access.Query} {next : q.Answer → Decision} (h : At p (.ask q next) t)
    (a : q.Answer) : At p (next a) (t ++ [⟨.access q, a⟩]) := by
  refine ⟨forall_mem_snoc h.inside rfl, ?_⟩
  have hpart : pipelinePart (t ++ [⟨.access q, a⟩]) = pipelinePart t ++ [⟨q, a⟩] := by
    simp [pipelinePart, accessExchange?]
  rw [hpart]
  exact h.reaches.snoc a

theorem Handed.entry {x : Exchange Query.Answer} (h : Handed p r t) (hx : x.1.isEntry) :
    Handed p r (t ++ [x]) := by
  obtain ⟨before, handover, a, after, rfl, hat, hr, hafter⟩ := h
  exact ⟨before, handover, a, after ++ [x], by simp, hat, hr, forall_mem_snoc hafter hx⟩

/-! ### What each part of the router asks -/

/-- Entries may be made wherever `P` holds, and it goes on holding. -/
structure KeptByEntries (ok : Record → Query → Prop) (P : Record → Prop) : Prop where
  due : ∀ t q, P t → q.isEntry → ok t q
  kept : ∀ t (x : Exchange Query.Answer), P t → x.1.isEntry → P (t ++ [x])

theorem At.keptByEntries : KeptByEntries (Due p r) (At p d) where
  due t q h hq := by
    cases q with
    | log | measure => exact Or.inl ⟨d, h⟩
    | access | ping | forward => cases hq
  kept _ _ h hx := h.entry hx

theorem Answered.keptByEntries {response : Http.Response} :
    KeptByEntries (Due p r) (Answered p r · response) where
  due t q h hq := by
    have hdue : (∃ d, At p d t) ∨ Handed p r t := by
      rcases h with ⟨denied, hat, -⟩ | hhanded
      · exact Or.inl ⟨_, hat⟩
      · exact Or.inr hhanded
    cases q with
    | log | measure => exact hdue
    | access | ping | forward => cases hq
  kept t x h hx := by
    rcases h with ⟨denied, hat, hresponse⟩ | hhanded
    · exact Or.inl ⟨denied, hat.entry hx, hresponse⟩
    · exact Or.inr (hhanded.entry hx)

section Entries

variable {ok : Record → Query → Prop} {P : Record → Prop}

theorem keeps_note (hP : KeptByEntries ok P) (e : LogEvent) (ht : P t) :
    (note e).Keeps ok (fun t _ => P t) t :=
  ⟨hP.due t _ ht rfl, fun _ => hP.kept t _ ht rfl⟩

theorem keeps_measure (hP : KeptByEntries ok P) (m : Metric) (ht : P t) :
    (measure m).Keeps ok (fun t _ => P t) t :=
  ⟨hP.due t _ ht rfl, fun _ => hP.kept t _ ht rfl⟩

theorem keeps_measureAll (hP : KeptByEntries ok P) (ms : List Metric) (ht : P t) :
    (measureAll ms).Keeps ok (fun t _ => P t) t := by
  induction ms generalizing t with
  | nil => exact ht
  | cons m rest ih => exact (keeps_measure hP m ht).bind fun t _ ht => ih ht

end Entries

theorem keeps_embed (d : Decision) (h : At p d t) :
    (d.embed Query.access fun _ a => a).Keeps (Due p r) (fun t decision => At p (.done decision) t) t := by
  induction d generalizing t with
  | done a => exact h
  | ask q next ih => exact ⟨⟨next, h⟩, fun a => ih a (h.answer a)⟩

theorem keeps_serveGuarded (limits : ServerLimits) (now : Instant)
    (hp : p = Access.evaluate limits.storeTimeout now (authorizationOf r) r.uri.path) (ht : At p p t) :
    (serveGuarded limits now r).Keeps (Due p r) (Answered p r) t := by
  simp only [serveGuarded, ← hp]
  refine (keeps_embed p ht).bind fun t decision hdecided => ?_
  cases decision with
  | ok claims =>
    refine (keeps_measure At.keptByEntries _ hdecided).bind fun t _ hat => ?_
    refine ⟨⟨hat, rfl⟩, fun answer => ?_⟩
    have hhanded : Handed p r (t ++ [⟨.forward ⟨r, claims, limits.maxBodyBytes⟩, answer⟩]) :=
      ⟨t, _, answer, [], rfl, hat, rfl, by simp⟩
    dsimp only
    cases answer.value <;> exact Or.inr hhanded
  | error denied =>
    refine (keeps_measure At.keptByEntries _ hdecided).bind fun t _ hat => ?_
    refine (keeps_note At.keptByEntries _ hat).bind fun t _ hat => ?_
    exact Or.inl ⟨denied, hat, rfl⟩

theorem keeps_serveObserved (limits : ServerLimits) (now : Instant) (hroute : Route.of r.uri.path = .guarded)
    (hp : p = Access.evaluate limits.storeTimeout now (authorizationOf r) r.uri.path) :
    (serveObserved limits now r).Keeps (Due p r) (Answered p r) [] := by
  have hstart : At p p [] := ⟨by simp, .refl p⟩
  unfold serveObserved
  refine (keeps_note At.keptByEntries _ hstart).bind fun t _ hat => ?_
  rw [serveRoute, hroute]
  refine (keeps_serveGuarded limits now hp hat).bind fun t response hanswered => ?_
  exact (keeps_measureAll Answered.keptByEntries _ hanswered).bind fun t _ h => h

/-- The body that a request announces is within the limit. -/
def Announced (limits : ServerLimits) (r : Http.Request) : Prop :=
  ∀ n, declaredLength? r = some n → n ≤ limits.maxBodyBytes

theorem keeps_serveLimited (limits : ServerLimits) (now : Instant) (hroute : Route.of r.uri.path = .guarded)
    (hbody : Announced limits r)
    (hp : p = Access.evaluate limits.storeTimeout now (authorizationOf r) r.uri.path) :
    (serveLimited limits now r).Keeps (Due p r) (Answered p r) [] := by
  unfold serveLimited
  split
  next n hn =>
    rw [if_neg (Nat.not_lt.2 (hbody n hn))]
    exact keeps_serveObserved _ now hroute hp
  next => exact keeps_serveObserved _ now hroute hp

/-- Nothing has been handed over. -/
def Kept (t : Record) : Prop := ∀ x ∈ t, x.1.handover? = none

/-- The questions that may come up where nothing is handed over. -/
def Aside (t : Record) (q : Query) : Prop := Kept t ∧ q.handover? = none

theorem handover?_of_isEntry {q : Query} (hq : q.isEntry) : q.handover? = none := by
  cases q with
  | access | ping | log | measure => rfl
  | forward => cases hq

theorem Kept.keptByEntries : KeptByEntries Aside Kept where
  due _ _ h hq := ⟨h, handover?_of_isEntry hq⟩
  kept _ _ h hx := forall_mem_snoc h (handover?_of_isEntry hx)

theorem keeps_serveRoute_of_open (limits : ServerLimits) (now : Instant)
    (hroute : Route.of r.uri.path ≠ .guarded) (ht : Kept t) :
    (serveRoute limits now r).Keeps Aside (fun t _ => Kept t) t := by
  unfold serveRoute
  split
  next => exact ht
  next =>
    split
    · exact ⟨⟨ht, rfl⟩, fun _ => forall_mem_snoc ht rfl⟩
    · exact ht
  next h => exact absurd h hroute
  next => exact ht

theorem keeps_serveObserved_of_open (limits : ServerLimits) (now : Instant)
    (hroute : Route.of r.uri.path ≠ .guarded) :
    (serveObserved limits now r).Keeps Aside (fun t _ => Kept t) [] := by
  have hstart : Kept [] := by simp [Kept]
  unfold serveObserved
  refine (keeps_note Kept.keptByEntries _ hstart).bind fun t _ ht => ?_
  refine (keeps_serveRoute_of_open limits now hroute ht).bind fun t response ht => ?_
  exact (keeps_measureAll Kept.keptByEntries _ ht).bind fun t _ h => h

/-- Away from the guarded paths, or when a body is announced that is too long, nothing is handed over. -/
theorem keeps_serveLimited_of_open (limits : ServerLimits) (now : Instant)
    (hopen : Route.of r.uri.path ≠ .guarded ∨ ¬ Announced limits r) :
    (serveLimited limits now r).Keeps Aside (fun t _ => Kept t) [] := by
  unfold serveLimited
  rcases hopen with hroute | hbody
  · split
    · split
      · exact fun x hx => absurd hx List.not_mem_nil
      · exact keeps_serveObserved_of_open _ now hroute
    · exact keeps_serveObserved_of_open limits now hroute
  · -- The length is announced, and it is too long.
    have htooLong : ∃ n, declaredLength? r = some n ∧ limits.maxBodyBytes < n := by
      simpa [Announced] using hbody
    obtain ⟨n, hn, hlt⟩ := htooLong
    simp only [hn, if_pos hlt]
    exact fun x hx => absurd hx List.not_mem_nil

/-! ### The credential of a request -/

/-- Visible ASCII, a space or a tab. -/
def IsPlainChar (c : Char) : Prop := c = '\t' ∨ 32 ≤ c.toNat ∧ c.toNat < 127

/-- What headers offer for a credential: the first `authorization` value, whatever others follow. They offer
none if there is no such value, or if the first one is no plain text. -/
inductive Offers (h : Http.Headers) : Option String → Prop
  | value {before after : Http.Headers} {value : String}
      (hfirst : h = before ++ ("authorization", value) :: after) (hbefore : ∀ e ∈ before, e.1 ≠ "authorization")
      (hplain : ∀ c ∈ value.toList, IsPlainChar c) : Offers h (some value)
  | unreadable {before after : Http.Headers} {value : String}
      (hfirst : h = before ++ ("authorization", value) :: after) (hbefore : ∀ e ∈ before, e.1 ≠ "authorization")
      {c : Char} (hc : c ∈ value.toList) (hplain : ¬ IsPlainChar c) : Offers h none
  | absent (hnone : ∀ e ∈ h, e.1 ≠ "authorization") : Offers h none

theorem isPlain_iff {s : String} : Http.isPlain s = true ↔ ∀ c ∈ s.toList, IsPlainChar c := by
  simp [Http.isPlain, IsPlainChar]

theorem first?_eq_some_iff {h : Http.Headers} {name value : String} :
    h.first? name = some value ↔
      ∃ before after, h = before ++ (name, value) :: after ∧ ∀ e ∈ before, e.1 ≠ name := by
  simp [Http.Headers.first?, List.lookup_eq_some_iff, ne_comm]

theorem offers_authorizationOf (r : Http.Request) : Offers r.headers (authorizationOf r) := by
  unfold authorizationOf
  cases hfirst : r.headers.first? "authorization" with
  | none =>
    refine .absent ?_
    intro e he
    have hne := List.lookup_eq_none_iff.1 hfirst e he
    simpa [ne_comm] using hne
  | some value =>
    obtain ⟨before, after, heq, hbefore⟩ := first?_eq_some_iff.1 hfirst
    cases hplain : Http.isPlain value with
    | true =>
      rw [Option.filter_some_pos hplain]
      exact .value heq hbefore (isPlain_iff.1 hplain)
    | false =>
      rw [Option.filter_some_neg hplain]
      obtain ⟨c, hc, hcontrol⟩ : ∃ c ∈ value.toList, ¬ IsPlainChar c := by
        simpa [isPlain_iff] using ne_true_of_eq_false hplain
      exact .unreadable heq hbefore hc hcontrol

/-- Headers offer one credential, or none. -/
theorem Offers.eq_authorizationOf {authorization : Option String} (h : Offers r.headers authorization) :
    authorization = authorizationOf r := by
  unfold authorizationOf
  cases h with
  | value hfirst hbefore hplain =>
    rw [first?_eq_some_iff.2 ⟨_, _, hfirst, hbefore⟩, Option.filter_some_pos (isPlain_iff.2 hplain)]
  | unreadable hfirst hbefore hc hplain =>
    rw [first?_eq_some_iff.2 ⟨_, _, hfirst, hbefore⟩, Option.filter_some_neg]
    refine eq_false_of_ne_true ?_
    intro h
    exact hplain (isPlain_iff.1 h _ hc)
  | absent hnone =>
    have hfirst : r.headers.first? "authorization" = none := by
      refine List.lookup_eq_none_iff.2 ?_
      intro e he
      simpa [ne_comm] using hnone e he
    rw [hfirst, Option.filter_none]

/-! ### The request and the response on their way -/

/-- The request that came, and at most an identifier more. -/
structure SameRequest (freshId : String) (r r' : Http.Request) : Prop where
  method : r'.method = r.method
  uri : r'.uri = r.uri
  body : r'.body = r.body
  headers : r'.headers = r.headers ∨
    (r.headers.first? requestIdHeader = none ∧ r'.headers = r.headers ++ [(requestIdHeader, freshId)])

theorem sameRequest_identify (freshId : String) (r : Http.Request) :
    SameRequest freshId r (identify freshId r) := by
  unfold identify
  split
  next => exact ⟨rfl, rfl, rfl, Or.inl rfl⟩
  next h => exact ⟨rfl, rfl, rfl, Or.inr ⟨by simpa using h, rfl⟩⟩

theorem SameRequest.first? {freshId name : String} {r r' : Http.Request}
    (h : SameRequest freshId r r') (hname : name ≠ requestIdHeader) :
    r'.headers.first? name = r.headers.first? name := by
  rcases h.headers with heq | ⟨-, heq⟩
  · rw [heq]
  · rw [heq, Http.Headers.first?, List.lookup_append]
    simp [Http.Headers.first?, List.lookup_cons, beq_eq_false_iff_ne.2 hname]

/-- The same answer: its status, and its headers but the two that are added on the way out. -/
structure SameAnswer (response response' : Http.Response) : Prop where
  status : response'.status = response.status
  headers : ∀ name, name ≠ requestIdHeader → name ≠ "content-length" →
    response'.headers.all name = response.headers.all name

theorem SameAnswer.trans {x y z : Http.Response} (h₁ : SameAnswer x y) (h₂ : SameAnswer y z) :
    SameAnswer x z where
  status := h₂.status.trans h₁.status
  headers name hid hlength := (h₂.headers name hid hlength).trans (h₁.headers name hid hlength)

theorem sameAnswer_propagateId (r : Http.Request) (x : Http.Response) :
    SameAnswer x (propagateId r x) := by
  unfold propagateId
  split
  · split
    · exact ⟨rfl, fun _ _ _ => rfl⟩
    · refine ⟨rfl, fun name hid _ => ?_⟩
      simp [Http.Headers.all, hid.symm]
  · exact ⟨rfl, fun _ _ _ => rfl⟩

theorem sameAnswer_withLength (x : Http.Response) : SameAnswer x x.withLength := by
  unfold Http.Response.withLength
  split
  · exact ⟨rfl, fun _ _ _ => rfl⟩
  · refine ⟨rfl, fun name _ hlength => ?_⟩
    simp [Http.Headers.all, hlength.symm]

theorem sameAnswer_conclude (r : Http.Request) (x : Http.Response) : SameAnswer x (conclude r x) := by
  unfold conclude
  split
  · exact ⟨rfl, fun _ _ _ => rfl⟩
  · split
    · exact ⟨rfl, fun _ _ _ => rfl⟩
    · split
      · exact ⟨(sameAnswer_withLength x).status, (sameAnswer_withLength x).headers⟩
      · exact sameAnswer_withLength x

def denialStatus : AccessDenied → Nat
  | .missingCredential _ | .invalidCredential _ => 401
  | .forbidden => 403
  | .rateExceeded => 429
  | .tokenStore _ => 503
  | .rateLimiter _ => 500

theorem ofDenial_toResponse (denied : AccessDenied) :
    (Problem.ofDenial denied).toResponse.status = denialStatus denied ∧
      (Problem.ofDenial denied).toResponse.headers.all "www-authenticate"
        = if denialStatus denied = 401 then [Problem.challenge] else [] := by
  cases denied <;> exact ⟨rfl, rfl⟩

/-! ### Served requests -/

section Served

variable {σ ε : Type} {limits : ServerLimits} {now : Instant} {freshId : String}
  {w : Surroundings σ ε} {s : σ}

/-- The decision on a request, by its first `Authorization` value and its path. -/
def decisionOn (limits : ServerLimits) (now : Instant) (r : Http.Request) : Decision :=
  Access.evaluate limits.storeTimeout now (authorizationOf r) r.uri.path

theorem decisionOn_identify (limits : ServerLimits) (now : Instant) (freshId : String)
    (r : Http.Request) : decisionOn limits now (identify freshId r) = decisionOn limits now r := by
  have hsame := sameRequest_identify freshId r
  simp only [decisionOn, authorizationOf, hsame.uri, hsame.first? (by decide : "authorization" ≠ _)]

theorem announced_identify : Announced limits (identify freshId r) ↔ Announced limits r := by
  have hsame := sameRequest_identify freshId r
  simp only [Announced, declaredLength?, hsame.first? (by decide : "content-length" ≠ _)]

theorem At.waited (h : At p d t) (timeout : Nat) :
    Dialogue.waited (Query.wait timeout) t
      = Dialogue.waited (Access.Query.wait timeout) (pipelinePart t) := by
  have hinside := h.inside
  clear h
  induction t with
  | nil => rfl
  | cons x rest ih =>
    have hrest := ih fun y hy => hinside y (List.mem_cons_of_mem x hy)
    have hx := hinside x List.mem_cons_self
    obtain ⟨q, a⟩ := x
    cases q with
    | access q =>
      simpa [Dialogue.waited, pipelinePart, accessExchange?, Query.wait] using hrest
    | log | measure =>
      simpa [Dialogue.waited, pipelinePart, List.filterMap_cons, accessExchange?, Query.wait] using hrest
    | ping | forward => cases hx

theorem Due.at_or_handed {q : Query} (h : Due p r t q) : (∃ d, At p d t) ∨ Handed p r t := by
  cases q with
  | access q =>
    obtain ⟨next, hat⟩ := h
    exact Or.inl ⟨_, hat⟩
  | ping => cases h
  | forward handover => exact Or.inl ⟨_, h.1⟩
  | log | measure => exact h

/-- What may come of a request on a guarded path: a response, the time limit, or a fault. -/
inductive Outcome (limits : ServerLimits) (p : Decision) (r : Http.Request) : Served σ ε → Prop
  | answered {s : σ} {t : Record} {response : Http.Response} (h : Answered p r t response) :
      Outcome limits p r (.ok (conclude r (propagateId r response), s, t))
  | late {s : σ} {t : Record} (hlate : limits.requestTimeout ≤ waited (Query.wait limits.storeTimeout) t)
      (h : (∃ d, At p d t) ∨ Handed p r t) :
      Outcome limits p r (.ok (conclude r (propagateId r requestTimedOut), s, t))
  | broken {e : ε} {t : Record} {q : Query} (h : Due p r t q) (hq : q.isEntry = false) :
      Outcome limits p r (.error (e, t, q))

theorem outcome_serveRecorded (hroute : Route.of r.uri.path = .guarded) (hbody : Announced limits r) :
    Outcome limits (decisionOn limits now r) (identify freshId r)
      (serveRecorded limits now freshId w r s) := by
  have hkeeps : (serveLimited limits now (identify freshId r)).Keeps
      (Due (decisionOn limits now r) (identify freshId r))
      (Answered (decisionOn limits now r) (identify freshId r)) [] := by
    refine keeps_serveLimited limits now ?_ (announced_identify.2 hbody) (decisionOn_identify ..).symm
    rwa [(sameRequest_identify freshId r).uri]
  have hrun := hkeeps.runUntil w.answer (Query.wait limits.storeTimeout) limits.requestTimeout s
  simp only [serveRecorded, serve]
  rcases heq : (serveLimited limits now (identify freshId r)).runUntil (recorded w.answer)
    (Query.wait limits.storeTimeout) limits.requestTimeout (s, [])
    with ⟨e, t, q⟩ | ⟨_ | _, s', t⟩
  · simp only [heq] at hrun
    obtain ⟨hdue, s', hfault⟩ := hrun
    refine .broken hdue ?_
    cases q with
    | access | ping | forward => rfl
    | log | measure => cases hfault
  · simp only [heq] at hrun
    exact .answered hrun
  · simp only [heq] at hrun
    obtain ⟨hlate, d', hd'⟩ := hrun
    refine .late (by simpa [waited] using hlate) ?_
    cases d' with
    | done response =>
      rcases hd' with ⟨denied, hat, -⟩ | hhanded
      · exact Or.inl ⟨_, hat⟩
      · exact Or.inr hhanded
    | ask q next => exact hd'.1.at_or_handed

/-! ### Handovers -/

@[simp] theorem handovers_nil : handovers [] = [] := rfl

@[simp] theorem handovers_append (a b : List Query) : handovers (a ++ b) = handovers a ++ handovers b :=
  List.filterMap_append

@[simp] theorem handovers_cons (q : Query) (rest : List Query) :
    handovers (q :: rest) = q.handover?.toList ++ handovers rest := by
  cases h : q.handover? <;> simp [handovers, h]

theorem handovers_of_kept (h : Kept t) : handovers (t.map (·.1)) = [] := by
  rw [handovers, List.filterMap_map, List.filterMap_eq_nil_iff]
  exact h

theorem At.kept (h : At p d t) : Kept t := by
  intro x hx
  have hinside := h.inside x hx
  cases hq : x.1 with
  | access | ping | log | measure => rfl
  | forward =>
    rw [hq] at hinside
    cases hinside

/-- A handover took place once in a served request, after `before`. -/
structure HandsOver (served : Served σ ε) (before : Record) (h : Handover) : Prop where
  once : handovers served.asked = [h]
  onRecord : before <+: served.record
  next : before.map (·.1) ++ [.forward h] <+: served.asked

theorem Handed.at_before (h : Handed p r t) :
    ∃ before handover a after, t = before ++ ⟨.forward handover, a⟩ :: after ∧
      At p (.done (.ok handover.claims)) before ∧ handover.request = r ∧
      pipelinePart t = pipelinePart before ∧ ∀ x ∈ after, x.1.handover? = none := by
  obtain ⟨before, handover, a, after, rfl, hat, hr, hafter⟩ := h
  refine ⟨before, handover, a, after, rfl, hat, hr, ?_, fun x hx => handover?_of_isEntry (hafter x hx)⟩
  have hnone : after.filterMap accessExchange? = [] := by
    rw [List.filterMap_eq_nil_iff]
    rintro ⟨q, a⟩ hx
    cases q with
    | access => cases hafter _ hx
    | ping | forward | log | measure => rfl
  simp [pipelinePart, List.filterMap_cons, accessExchange?, hnone]

theorem Handed.handsOver {response : Http.Response} (h : Handed p r t) :
    ∃ before handover, HandsOver (.ok (response, s, t) : Served σ ε) before handover ∧
      At p (.done (.ok handover.claims)) before ∧ handover.request = r ∧
      pipelinePart t = pipelinePart before := by
  obtain ⟨before, handover, a, after, rfl, hat, hr, hpart, hafter⟩ := h.at_before
  refine ⟨before, handover, ⟨?_, ?_, ?_⟩, hat, hr, hpart⟩
  · simp [Served.asked, handovers_of_kept hat.kept, handovers_of_kept hafter, Query.handover?]
  · exact List.prefix_append _ _
  · refine ⟨after.map (·.1), ?_⟩
    simp [Served.asked]

/-- A fault at a question of the pipeline comes before any handover, and one at a handover after the
pipeline. -/
theorem Due.fault (σ : Type) {q : Query} (e : ε) (h : Due p r t q) (hq : q.isEntry = false) :
    (handovers (Served.asked (.error (e, t, q) : Served σ ε)) = [] ∧
      ∃ q next, Reaches p (pipelinePart t) (.ask q next)) ∨
    ∃ handover, HandsOver (.error (e, t, q) : Served σ ε) t handover ∧
      At p (.done (.ok handover.claims)) t ∧ handover.request = r := by
  cases q with
  | access q =>
    obtain ⟨next, hat⟩ := h
    refine Or.inl ⟨?_, q, next, hat.reaches⟩
    simp [Served.asked, handovers_of_kept hat.kept, Query.handover?]
  | ping => cases h
  | forward handover =>
    refine Or.inr ⟨handover, ⟨?_, List.prefix_rfl, List.prefix_rfl⟩, h.1, h.2⟩
    simp [Served.asked, handovers_of_kept h.1.kept, Query.handover?]
  | log | measure => cases hq

namespace Outcome

variable {served : Served σ ε}

/-- At most one handover, and one only of what has been let through. -/
theorem kept_or_handsOver (h : Outcome limits p r served) :
    handovers served.asked = [] ∨ ∃ before handover, HandsOver served before handover ∧
      At p (.done (.ok handover.claims)) before ∧ handover.request = r ∧
      pipelinePart served.record = pipelinePart before := by
  cases h with
  | answered h =>
    rcases h with ⟨denied, hat, -⟩ | hhanded
    · exact Or.inl (handovers_of_kept hat.kept)
    · exact Or.inr hhanded.handsOver
  | late _ h =>
    rcases h with ⟨d, hat⟩ | hhanded
    · exact Or.inl (handovers_of_kept hat.kept)
    · exact Or.inr hhanded.handsOver
  | @broken e _ _ h hq =>
    rcases h.fault σ e hq with ⟨hnone, -⟩ | ⟨handover, hhands, hat, hr⟩
    · exact Or.inl hnone
    · exact Or.inr ⟨_, handover, hhands, hat, hr, rfl⟩

/-- What the pipeline lets through in time is handed over. -/
theorem handsOver_of_allowed {claims : Claims} (h : Outcome limits p r served)
    (hallowed : Reaches p (pipelinePart served.record) (.done (.ok claims)))
    (htime : waited (Access.Query.wait limits.storeTimeout) (pipelinePart served.record)
      < limits.requestTimeout) :
    ∃ handover, handovers served.asked = [handover] ∧ handover.claims = claims := by
  rcases h.kept_or_handsOver with hnone | ⟨before, handover, hhands, hat, -, hpart⟩
  · exfalso
    cases h with
    | answered h =>
      rcases h with ⟨denied, hat, -⟩ | hhanded
      · cases hat.reaches.unique hallowed
      · obtain ⟨_, _, hhands, -⟩ := hhanded.handsOver
        cases hnone.symm.trans hhands.once
    | late hlate h =>
      rcases h with ⟨d, hat⟩ | hhanded
      · rw [hat.waited] at hlate
        exact absurd htime (Nat.not_lt.2 hlate)
      · obtain ⟨_, _, hhands, -⟩ := hhanded.handsOver
        cases hnone.symm.trans hhands.once
    | @broken e _ _ h hq =>
      rcases h.fault σ e hq with ⟨-, q, next, hreaches⟩ | ⟨handover, hhands, -⟩
      · cases hreaches.unique hallowed
      · cases hnone.symm.trans hhands.once
  · refine ⟨handover, hhands.once, ?_⟩
    rw [hpart] at hallowed
    cases hat.reaches.unique hallowed
    rfl

/-- What the pipeline denies in time is answered with the denial. -/
theorem answered_of_denied {denied : AccessDenied} (h : Outcome limits p r served)
    (hdenied : Reaches p (pipelinePart served.record) (.done (.error denied)))
    (htime : waited (Access.Query.wait limits.storeTimeout) (pipelinePart served.record)
      < limits.requestTimeout) :
    ∃ s t, served = .ok (conclude r (propagateId r (Problem.ofDenial denied).toResponse), s, t) := by
  have hnot : ¬ Handed p r served.record := by
    intro hhanded
    obtain ⟨before, handover, a, after, -, hat, -, hpart, -⟩ := hhanded.at_before
    rw [hpart] at hdenied
    cases hat.reaches.unique hdenied
  cases h with
  | answered h =>
    rcases h with ⟨denied', hat, hresponse⟩ | hhanded
    · cases hat.reaches.unique hdenied
      exact ⟨_, _, by rw [hresponse]⟩
    · exact absurd hhanded hnot
  | late hlate h =>
    rcases h with ⟨d, hat⟩ | hhanded
    · rw [hat.waited] at hlate
      exact absurd htime (Nat.not_lt.2 hlate)
    · exact absurd hhanded hnot
  | @broken e _ _ h hq =>
    rcases h.fault σ e hq with ⟨-, q, next, hreaches⟩ | ⟨handover, -, hat, -⟩
    · cases hreaches.unique hdenied
    · cases hat.reaches.unique hdenied

end Outcome

theorem handovers_of_open (hopen : Route.of r.uri.path ≠ .guarded ∨ ¬ Announced limits r) :
    handovers (serveRecorded limits now freshId w r s).asked = [] := by
  have hkeeps : (serveLimited limits now (identify freshId r)).Keeps Aside (fun t _ => Kept t) [] := by
    refine keeps_serveLimited_of_open limits now ?_
    rwa [(sameRequest_identify freshId r).uri, announced_identify]
  have hrun := hkeeps.runUntil w.answer (Query.wait limits.storeTimeout) limits.requestTimeout s
  simp only [serveRecorded, serve]
  rcases heq : (serveLimited limits now (identify freshId r)).runUntil (recorded w.answer)
    (Query.wait limits.storeTimeout) limits.requestTimeout (s, [])
    with ⟨e, t, q⟩ | ⟨_ | _, s', t⟩
  · simp only [heq] at hrun
    simp [Served.asked, handovers_of_kept hrun.1.1, hrun.1.2]
  · simp only [heq] at hrun
    exact handovers_of_kept hrun
  · simp only [heq] at hrun
    obtain ⟨-, d', hd'⟩ := hrun
    cases d' with
    | done response => exact handovers_of_kept hd'
    | ask q next => exact handovers_of_kept hd'.1.1

/-- **Complete mediation.** However its surroundings answer, a request is handed over at most once, and
only on a path below the stem, after the pipeline has let the credential that its headers offer and its path
through, with the claims that came of that; and it is handed over as it came, but for an identifier. If
the pipeline denies it in time it is answered with the status of the denial, and with a challenge just
where that is 401; if the pipeline lets it through in time it is handed over. -/
theorem mediation_complete (limits : ServerLimits) (now : Instant) (freshId : String)
    (w : Surroundings σ ε) (r : Http.Request) (s : σ) :
    ∃ authorization, Offers r.headers authorization ∧
    let decision := Access.evaluate limits.storeTimeout now authorization r.uri.path
    let served := serveRecorded limits now freshId w r s
    let part := pipelinePart served.record
    let inTime := waited (Access.Query.wait limits.storeTimeout) part < limits.requestTimeout
    (handovers served.asked = [] ∨
      ∃ before handover, HandsOver served before handover ∧
        (∃ rest, rest ≠ [] ∧ r.uri.path.toList = "/api/v1/".toList ++ rest) ∧
        Reaches decision (pipelinePart before) (.done (.ok handover.claims)) ∧
        SameRequest freshId r handover.request) ∧
    (Route.of r.uri.path = .guarded → Announced limits r → inTime →
      (∀ denied, Reaches decision part (.done (.error denied)) →
        handovers served.asked = [] ∧
        ∃ response s' t, served = .ok (response, s', t) ∧ response.status = denialStatus denied ∧
          response.headers.all "www-authenticate"
            = if denialStatus denied = 401 then [Problem.challenge] else []) ∧
      (∀ claims, Reaches decision part (.done (.ok claims)) →
        ∃ handover, handovers served.asked = [handover] ∧ handover.claims = claims)) := by
  refine ⟨authorizationOf r, offers_authorizationOf r, ?_⟩
  intro decision served part inTime
  by_cases hopen : Route.of r.uri.path ≠ .guarded ∨ ¬ Announced limits r
  · refine ⟨Or.inl (handovers_of_open hopen), ?_⟩
    intro hroute hbody
    rcases hopen with h | h
    · exact absurd hroute h
    · exact absurd hbody h
  · rw [not_or, Classical.not_not, Classical.not_not] at hopen
    have houtcome : Outcome limits (decisionOn limits now r) (identify freshId r) served :=
      outcome_serveRecorded hopen.1 hopen.2
    refine ⟨?_, fun _ _ htime => ⟨?_, ?_⟩⟩
    · rcases houtcome.kept_or_handsOver with hnone | ⟨before, handover, hhands, hat, hr, -⟩
      · exact Or.inl hnone
      · refine Or.inr ⟨before, handover, hhands, Route.of_eq_guarded_iff.1 hopen.1, hat.reaches, ?_⟩
        rw [hr]
        exact sameRequest_identify freshId r
    · intro denied hdenied
      refine ⟨?_, ?_⟩
      · rcases houtcome.kept_or_handsOver with hnone | ⟨before, handover, -, hat, -, hpart⟩
        · exact hnone
        · rw [show part = pipelinePart before from hpart] at hdenied
          cases hat.reaches.unique hdenied
      · obtain ⟨s', t, hserved⟩ := houtcome.answered_of_denied hdenied htime
        have hsame := (sameAnswer_propagateId (identify freshId r)
          (Problem.ofDenial denied).toResponse).trans (sameAnswer_conclude (identify freshId r) _)
        refine ⟨_, s', t, hserved, ?_, ?_⟩
        · rw [hsame.status, (ofDenial_toResponse denied).1]
        · rw [hsame.headers _ (by decide) (by decide), (ofDenial_toResponse denied).2]
    · intro claims hallowed
      exact houtcome.handsOver_of_allowed hallowed htime

def deserted : Surroundings Unit Unit where
  access _ _ := .error ()
  ping _ := .error ()
  forward _ _ := .error ()
  log _ s := s
  measure _ s := s

/-- Surroundings in which one token is good. -/
def obliging : Surroundings Unit Unit where
  access
    | .verify token, s =>
      .ok (if token = "a" then .ok { apiKey := "k", exp := 200 } else .error .missingKey, s)
    | .fetch key, s => .ok ({ value := .ok ⟨key, 1, { secs := 200 }, []⟩ }, s)
    | .allow _ _, s => .ok ({ value := .ok true }, s)
  ping _ := .error ()
  forward _ s := .ok ({ value := .ok { status := 200 } }, s)
  log _ s := s
  measure _ s := s

/-- A request with the good token, and with another one behind it. -/
def twoTokens : Http.Request where
  uri := { rawPath := "/api/v1/users" }
  headers := [("accept", "*/*"), ("authorization", "Bearer a"), ("authorization", "Bearer b")]

/-- A request without a credential is denied with a challenge, and one with two of them is handed over for the
first one. -/
theorem deserted_challenges :
    (∃ response s' t,
      serveRecorded { maxBodyBytes := 0, requestTimeout := 1 } { secs := 0 } "id" deserted
          { uri := { rawPath := "/api/v1/users" } } () = .ok (response, s', t) ∧
        response.status = 401 ∧ response.headers.all "www-authenticate" = ["Bearer realm=\"api\""]) ∧
    ∃ before handover,
      HandsOver (serveRecorded { maxBodyBytes := 0, requestTimeout := 1 } { secs := 0 } "id" obliging twoTokens ())
        before handover ∧
      Reaches (Access.evaluate Access.defaultStoreTimeout { secs := 0 } (some "Bearer a") "/api/v1/users")
        (pipelinePart before) (.done (.ok handover.claims)) := by
  constructor
  · obtain ⟨authorization, hoffers, -, hguarded⟩ := mediation_complete
      { maxBodyBytes := 0, requestTimeout := 1 } { secs := 0 } "id" deserted
      { uri := { rawPath := "/api/v1/users" } } ()
    obtain rfl := hoffers.eq_authorizationOf
    obtain ⟨hdenied, -⟩ := hguarded (by decide +kernel) (by rintro n ⟨⟩) (by decide +kernel)
    refine (hdenied (.missingCredential "missing bearer token") ?_).2
    rw [List.isEmpty_iff.1 (by decide +kernel : (pipelinePart _).isEmpty = true)]
    exact .refl _
  · obtain ⟨authorization, hoffers, hhandover, -⟩ := mediation_complete
      { maxBodyBytes := 0, requestTimeout := 1 } { secs := 0 } "id" obliging twoTokens ()
    have hbearer : authorizationOf twoTokens = some "Bearer a" := by decide +kernel
    obtain rfl := hoffers.eq_authorizationOf.trans hbearer
    rcases hhandover with hnone | ⟨before, handover, hhands, -, hreaches, -⟩
    · exact absurd hnone (by decide +kernel)
    · exact ⟨before, handover, hhands, hreaches⟩

end Served

end Turnstile.Gateway
