import Mathlib.Data.List.Forall2
import Turnstile.Proofs.Gateway.Tracing
/-!
# Secrets in the log

What is written of a request as it comes in does not depend on its secrets: of two requests that differ in the
values of credentials, or of headers that are not logged at all, the entries are the same. Two lists of names
settle this between them, those that are logged and those of which only the name is. A request is entered once,
before anything is asked about it, whatever becomes of it then; so the entry is the same in all surroundings.
-/

namespace Turnstile.Gateway

open Time Dialogue Http

/-! ### Headers that differ in secrets -/

def credentialHeaders : List String :=
  ["authorization", "x-api-key", "cookie", "set-cookie", "x-auth-token", "proxy-authorization"]

/-- Headers of one name. Their values may differ if they are credentials or not for the log. -/
def SameButSecret (x y : String × String) : Prop :=
  x.1 = y.1 ∧ (x.2 = y.2 ∨ x.1 ∈ credentialHeaders ∨ x.1 ∉ loggedHeaders)

/-- The same names in the same order, each as often, with values that differ in secrets. -/
def SameButSecrets (h h' : Headers) : Prop := List.Forall₂ SameButSecret h.grouped h'.grouped

theorem SameButSecret.value_eq {x y : String × String} (h : SameButSecret x y) (hlogged : x.1 ∈ loggedHeaders)
    (hpublic : x.1 ∉ credentialHeaders) : x.2 = y.2 := by
  rcases h.2 with heq | hsecret | hunlogged
  · exact heq
  · exact absurd hsecret hpublic
  · exact absurd hlogged hunlogged

theorem SameButSecret.loggedValue_eq {x y : String × String} (h : SameButSecret x y)
    (hlogged : x.1 ∈ loggedHeaders) : loggedValue x.1 x.2 = loggedValue y.1 y.2 := by
  rw [← h.1]
  by_cases hsecret : x.1 ∈ credentialHeaders
  · have hsensitive : sensitiveHeaders.contains x.1 = true := List.contains_iff_mem.2 hsecret
    rw [loggedValue, loggedValue, if_pos hsensitive, if_pos hsensitive]
  · rw [h.value_eq hlogged hsecret]

/-- What is picked out alike from related lists, and read alike where it is picked. -/
theorem map_filter_eq_of_forall₂ {α β : Type} {related : α → α → Prop} {l l' : List α} {pick : α → Bool}
    {read : α → β} (h : List.Forall₂ related l l') (hpick : ∀ x y, related x y → pick x = pick y)
    (hread : ∀ x y, related x y → pick x = true → read x = read y) :
    (l.filter pick).map read = (l'.filter pick).map read := by
  induction h with
  | nil => rfl
  | @cons x y l l' hxy _ ih =>
    rw [List.filter_cons, List.filter_cons, ← hpick x y hxy]
    split
    · next hx => rw [List.map_cons, List.map_cons, hread x y hxy hx, ih]
    · exact ih

theorem all_eq_nil_of_first? {h : Headers} {name : String} (hnone : h.first? name = none) : h.all name = [] := by
  rw [Headers.first?_eq_head?] at hnone
  exact List.head?_eq_none_iff.1 hnone

namespace SameButSecrets

variable {h h' : Headers} {name : String}

theorem redactHeaders_eq (hsame : SameButSecrets h h') : redactHeaders h = redactHeaders h' := by
  rw [redactHeaders, redactHeaders]
  congr 1
  refine map_filter_eq_of_forall₂ hsame ?_ ?_
  · intro x y hxy
    rw [hxy.1]
  · intro x y hxy hlogged
    rw [hxy.loggedValue_eq (List.contains_iff_mem.1 hlogged), hxy.1]

/-- What is logged and no secret has the same values. -/
theorem first?_eq (hsame : SameButSecrets h h') (hlogged : name ∈ loggedHeaders)
    (hpublic : name ∉ credentialHeaders) : h.first? name = h'.first? name := by
  rw [Headers.first?_eq_head?, Headers.first?_eq_head?, ← Headers.all_grouped, ← Headers.all_grouped h']
  congr 1
  refine map_filter_eq_of_forall₂ hsame ?_ ?_
  · intro x y hxy
    rw [hxy.1]
  · intro x y hxy hname
    rw [beq_iff_eq] at hname
    subst hname
    exact hxy.value_eq hlogged hpublic

variable {r r' : Request} {freshId freshId' : String} {limits : ServerLimits}

theorem first?_requestId (hsame : SameButSecrets r.headers r'.headers) :
    r.headers.first? requestIdHeader = r'.headers.first? requestIdHeader :=
  hsame.first?_eq (by decide) (by decide)

theorem announced_iff (hsame : SameButSecrets r.headers r'.headers) : Announced limits r ↔ Announced limits r' := by
  have hlength : r.headers.first? "content-length" = r'.headers.first? "content-length" :=
    hsame.first?_eq (by decide) (by decide)
  rw [Announced, Announced, declaredLength?, declaredLength?, hlength]

/-- Identifiers are given alike, at the end. -/
theorem identified (hsame : SameButSecrets r.headers r'.headers)
    (hid : identifierOf freshId r = identifierOf freshId' r') :
    SameButSecrets (identify freshId r).headers (identify freshId' r').headers := by
  have hfirst := hsame.first?_requestId
  rw [identifierOf, identifierOf, ← hfirst] at hid
  rw [identify, identify, ← hfirst]
  cases hown : r.headers.first? requestIdHeader with
  | some id => exact hsame
  | none =>
    rw [hown, Option.getD_none, Option.getD_none] at hid
    rw [hown] at hfirst
    rw [if_neg (by simp), if_neg (by simp), hid, SameButSecrets,
      Headers.grouped_concat (all_eq_nil_of_first? hown),
      Headers.grouped_concat (all_eq_nil_of_first? hfirst.symm)]
    exact List.rel_append hsame (.cons ⟨rfl, Or.inl rfl⟩ .nil)

theorem incomingEvent_eq (hsame : SameButSecrets r.headers r'.headers) (hmethod : r'.method = r.method)
    (huri : r'.uri = r.uri) (route : String) : incomingEvent r route = incomingEvent r' route := by
  rw [incomingEvent, incomingEvent, hmethod, huri, hsame.first?_requestId, hsame.redactHeaders_eq]

end SameButSecrets

/-! ### Entries of requests that come in -/

def Query.incoming? : Query → Option LogEvent
  | .log e => if e.message = "Incoming request" then some e else none
  | _ => none

def incoming (asked : List Query) : List LogEvent := asked.filterMap Query.incoming?

/-- One request has been entered as it came in. -/
def Entered (e : LogEvent) (t : Record) : Prop := incoming (t.map (·.1)) = [e]

/-- The entry of the request comes first, and no other like it follows. -/
def EntryFirst (e : LogEvent) (t : Record) (q : Query) : Prop :=
  t = [] ∧ q = .log e ∨ Entered e t ∧ q.incoming? = none

variable {e : LogEvent} {t : Record} {r : Request}

theorem Entered.incoming_snoc {q : Query} (h : Entered e t) (hq : q.incoming? = none) :
    incoming (t.map (·.1) ++ [q]) = [e] := by
  have hnone : incoming [q] = [] := by simp [incoming, hq]
  rw [incoming, List.filterMap_append, ← incoming, ← incoming, hnone, List.append_nil]
  exact h

theorem Entered.snoc {x : Exchange Query.Answer} (h : Entered e t) (hx : x.1.incoming? = none) :
    Entered e (t ++ [x]) := by
  rw [Entered, List.map_append]
  exact h.incoming_snoc hx

theorem Entered.keeps_ask {α : Type} {post : Record → α → Prop} {q : Query} {next : q.Answer → Serving α}
    (h : Entered e t) (hq : q.incoming? = none)
    (hnext : ∀ a, Entered e (t ++ [⟨q, a⟩]) → (next a).Keeps (EntryFirst e) post (t ++ [⟨q, a⟩])) :
    Keeps (EntryFirst e) post (.ask q next) t :=
  ⟨Or.inr ⟨h, hq⟩, fun a => hnext a (h.snoc hq)⟩

abbrev StaysEntered {α : Type} (e : LogEvent) (d : Serving α) (t : Record) : Prop :=
  d.Keeps (EntryFirst e) (fun t _ => Entered e t) t

theorem staysEntered_embed (d : Decision) (h : Entered e t) :
    StaysEntered e (d.embed Query.access fun _ a => a) t := by
  induction d generalizing t with
  | done a => exact h
  | ask q next ih => exact h.keeps_ask rfl fun a ha => ih a ha

theorem staysEntered_measureAll (ms : List Metric) (h : Entered e t) : StaysEntered e (measureAll ms) t := by
  induction ms generalizing t with
  | nil => exact h
  | cons m ms ih => exact h.keeps_ask rfl fun a ha => ih ha

theorem incoming?_denialEvent (denied : AccessDenied) (path : String) :
    (Query.log (denialEvent denied path)).incoming? = none := by
  unfold denialEvent
  split
  · rfl
  · rfl

theorem staysEntered_serveGuarded (limits : ServerLimits) (now : Instant) (r : Request) (h : Entered e t) :
    StaysEntered e (serveGuarded limits now r) t := by
  unfold serveGuarded
  refine (staysEntered_embed _ h).bind ?_
  intro t decision ht
  cases decision with
  | ok claims =>
    refine ht.keeps_ask rfl ?_
    intro _ ht
    refine ht.keeps_ask rfl ?_
    intro answer ht
    cases answer.value with
    | ok response => exact ht
    | error problem => exact ht
  | error denied =>
    refine ht.keeps_ask rfl ?_
    intro _ ht
    refine ht.keeps_ask (incoming?_denialEvent denied _) ?_
    intro _ ht
    exact ht

theorem staysEntered_serveRoute (limits : ServerLimits) (now : Instant) (r : Request) (h : Entered e t) :
    StaysEntered e (serveRoute limits now r) t := by
  unfold serveRoute
  split
  next => exact h
  next =>
    split
    · exact h.keeps_ask rfl fun _ ht => ht
    · exact h
  next => exact staysEntered_serveGuarded limits now r h
  next => exact h

/-- The entry for a request with its identifier. -/
def entryOf (r : Request) : LogEvent := incomingEvent r ((Route.of r.uri.path).label r.uri.path)

theorem staysEntered_serveObserved (limits : ServerLimits) (now : Instant) (r : Request) :
    StaysEntered (entryOf r) (serveObserved limits now r) [] := by
  unfold serveObserved
  refine ⟨Or.inl ⟨rfl, rfl⟩, ?_⟩
  intro _
  have hentered : Entered (entryOf r) [⟨.log (entryOf r), ()⟩] := rfl
  refine (staysEntered_serveRoute limits now r hentered).bind ?_
  intro t response ht
  exact (staysEntered_measureAll _ ht).bind fun _ _ ht => ht

theorem staysEntered_serveLimited (limits : ServerLimits) (now : Instant) (hbody : Announced limits r) :
    StaysEntered (entryOf r) (serveLimited limits now r) [] := by
  unfold serveLimited
  split
  next n hn =>
    rw [if_neg (Nat.not_lt.2 (hbody n hn))]
    exact staysEntered_serveObserved _ now r
  next => exact staysEntered_serveObserved limits now r

/-! ### Served requests -/

variable {σ ε : Type} (limits : ServerLimits) (now : Instant) (freshId : String) (w : Surroundings σ ε) (s : σ)

/-- A request is entered once if there is time for it and its body is not too long. -/
theorem incoming_serveRecorded (htime : limits.requestTimeout ≠ 0) (hbody : Announced limits r) :
    incoming (serveRecorded limits now freshId w r s).asked = [entryOf (identify freshId r)] := by
  have hbody' : Announced limits (identify freshId r) := announced_identify.2 hbody
  have hkeeps := staysEntered_serveLimited limits now hbody'
  have hrun := hkeeps.runUntil w.answer (Query.wait limits.storeTimeout) limits.requestTimeout s
  simp only [serveRecorded, serve]
  rcases heq : (serveLimited limits now (identify freshId r)).runUntil (recorded w.answer)
    (Query.wait limits.storeTimeout) limits.requestTimeout (s, [])
    with ⟨e, t, q⟩ | ⟨response | _, s', t⟩
  · simp only [heq] at hrun
    obtain ⟨⟨rfl, rfl⟩ | ⟨hentered, hquiet⟩, s', hfault⟩ := hrun
    · -- The log takes every entry.
      cases hfault
    · exact hentered.incoming_snoc hquiet
  · simp only [heq] at hrun
    exact hrun
  · simp only [heq] at hrun
    obtain ⟨hlate, d', hd'⟩ := hrun
    cases d' with
    | done response => exact hd'
    | ask q next =>
      rcases hd'.1 with ⟨rfl, -⟩ | ⟨hentered, -⟩
      · simp only [waited, List.foldr_nil] at hlate
        omega
      · exact hentered

/-- Without time, or with a body that is too long, a request is not entered at all. -/
theorem incoming_serveRecorded_of_refused (h : limits.requestTimeout = 0 ∨ ¬ Announced limits r) :
    incoming (serveRecorded limits now freshId w r s).asked = [] := by
  simp only [serveRecorded, serve]
  rcases h with htime | hbody
  · rw [htime, runUntil_zero]
    rfl
  · have hbody' : ¬ Announced limits (identify freshId r) := fun h => hbody (announced_identify.1 h)
    have htooLong : ∃ n, declaredLength? (identify freshId r) = some n ∧ limits.maxBodyBytes < n := by
      simpa [Announced] using hbody'
    obtain ⟨n, hn, hlt⟩ := htooLong
    rw [serveLimited, hn]
    dsimp only
    rw [if_pos hlt]
    cases limits.requestTimeout with
    | zero => rfl
    | succ left => rfl

/-- **The log does not depend on secrets**: headers that differ in secrets are written alike, and so are requests
of one method, URI and identifier as they come in, whatever else is different about them, about the time at which
they come and about what they are answered. -/
theorem log_hides_secrets {h h' : Headers} (hsame : SameButSecrets h h') :
    redactHeaders h = redactHeaders h' ∧
      ∀ {σ ε τ δ : Type} (limits : ServerLimits) (now now' : Instant) (freshId freshId' : String)
        (w : Surroundings σ ε) (w' : Surroundings τ δ) (s : σ) (s' : τ) (r r' : Request),
        r.headers = h → r'.headers = h' → r'.method = r.method → r'.uri = r.uri →
        identifierOf freshId r = identifierOf freshId' r' →
        incoming (serveRecorded limits now freshId w r s).asked
          = incoming (serveRecorded limits now' freshId' w' r' s').asked := by
  refine ⟨hsame.redactHeaders_eq, ?_⟩
  rintro σ ε τ δ limits now now' freshId freshId' w w' s s' r r' rfl rfl hmethod huri hid
  by_cases hentered : limits.requestTimeout ≠ 0 ∧ Announced limits r
  · have hmethod' : (identify freshId' r').method = (identify freshId r).method := by
      rw [(sameRequest_identify freshId' r').method, (sameRequest_identify freshId r).method, hmethod]
    have huri' : (identify freshId' r').uri = (identify freshId r).uri := by
      rw [(sameRequest_identify freshId' r').uri, (sameRequest_identify freshId r).uri, huri]
    rw [incoming_serveRecorded limits now freshId w s hentered.1 hentered.2,
      incoming_serveRecorded limits now' freshId' w' s' hentered.1 (hsame.announced_iff.1 hentered.2),
      entryOf, entryOf, huri', (hsame.identified hid).incomingEvent_eq hmethod' huri']
  · rw [not_and_or, Classical.not_not] at hentered
    have hentered' : limits.requestTimeout = 0 ∨ ¬ Announced limits r' := by rwa [← hsame.announced_iff]
    rw [incoming_serveRecorded_of_refused limits now freshId w s hentered,
      incoming_serveRecorded_of_refused limits now' freshId' w' s' hentered']

def tokenSent : Request where
  uri := { rawPath := "/live" }
  headers := [("authorization", "Bearer a"), ("accept", "*/*"), ("cookie", "x"), ("etag", "1")]

def passwordSent : Request where
  uri := { rawPath := "/live" }
  headers := [("authorization", "Basic b"), ("accept", "*/*"), ("cookie", "y"), ("etag", "2")]
  body := "text"

theorem credentials_hidden : SameButSecrets tokenSent.headers passwordSent.headers ∧
    redactHeaders tokenSent.headers = redactHeaders passwordSent.headers ∧
      incoming (serveRecorded ⟨4, 1, 1⟩ ⟨0, 0⟩ "id" deserted tokenSent ()).asked
        = incoming (serveRecorded ⟨4, 1, 1⟩ ⟨5, 0⟩ "id" deserted passwordSent ()).asked := by
  have hsame : SameButSecrets tokenSent.headers passwordSent.headers := by
    simp [SameButSecrets, SameButSecret, tokenSent, passwordSent, Headers.grouped, Headers.all, Headers.erase,
      credentialHeaders, loggedHeaders]
  obtain ⟨hlogged, hentered⟩ := log_hides_secrets hsame
  exact ⟨hsame, hlogged, hentered _ _ _ _ _ _ _ _ _ _ _ rfl rfl rfl rfl rfl⟩

end Turnstile.Gateway
