import Turnstile.Access.Pipeline
import Turnstile.Proofs.Time.Instant
/-!
# The first failure decides

The pipeline makes eight checks one after the other and asks a verifier, a token store and a rate limiter
on the way. Here the checks are stated one by one, each as if it were alone: what it would find wrong
(`Situation.fault?`) and whom it would ask (`Situation.call?`). The pipeline's answer is that of the first
check that finds something wrong, whatever later checks would say, and the questions it asks are those of
the checks up to that one.
-/

namespace Turnstile.Access

open Time

/-! ### The checks -/

inductive Check where
  | bearer
  | signature
  | key
  | expiry
  | scope
  | record
  | enabled
  | budget
deriving DecidableEq, Repr

namespace Check

def all : List Check := [.bearer, .signature, .key, .expiry, .scope, .record, .enabled, .budget]

def before (k : Check) : List Check := all.takeWhile (· ≠ k)

theorem before_or_eq_or_before (j k : Check) : j ∈ k.before ∨ j = k ∨ k ∈ j.before := by
  cases j <;> cases k <;> decide

end Check

/-! ### Situations -/

/-- A request, and the answers that are ready for it: any claims, record or verdict, or any error, and
from the stores after any time. -/
structure Situation where
  timeout : Nat
  now : Instant
  authorization : Option String
  path : String
  verifier : String → Except VerifyError Claims
  store : String → Timed (Except StoreError TokenRecord)
  limiter : String → Int → Timed (Except RateLimitError Bool)

namespace Situation

variable (s : Situation)

/-- The token of the request, if it has one. -/
def token? : Option String := s.authorization.bind extractBearer

/-- The claims that the verifier finds in the token. -/
def claims? : Option Claims := s.token?.bind fun token => (s.verifier token).toOption

/-- The answer of the store about the key of the claims, if it comes in time. -/
def found? : Option (Except StoreError TokenRecord) :=
  s.claims?.bind fun c => (s.store c.apiKey).within? s.timeout

def record? : Option TokenRecord := s.found?.bind Except.toOption

/-- What a check finds wrong. One that has nothing to look at finds nothing wrong. -/
def fault? : Check → Option AccessDenied
  | .bearer => if s.token? = none then some (.missingCredential "missing bearer token") else none
  | .signature => s.token?.bind fun token =>
      match s.verifier token with
      | .ok _ => none
      | .error e => some (.invalidCredential e.message)
  | .key => s.claims?.bind fun c =>
      if c.apiKey = "" then some (.missingCredential "missing api_key claim") else none
  | .expiry => s.claims?.bind fun c =>
      if c.expiration.any (s.now < ·) then none else some (.invalidCredential "token expired")
  | .scope => s.claims?.bind fun c =>
      if c.allowedRoutes = [] ∨ isPathAllowed s.path c.allowedRoutes then none else some .forbidden
  | .record => s.claims?.bind fun _ =>
      match s.found? with
      | none => some (.tokenStore "timed out")
      | some (.ok _) => none
      | some (.error .notFound) => some (.missingCredential "unknown token: token not found")
      | some (.error .expired) => some (.missingCredential "unknown token: token expired")
      | some (.error e) => some (.tokenStore e.message)
  | .enabled => s.record?.bind fun r =>
      if r.rateLimit ≤ 0 then some (.missingCredential "token disabled") else none
  | .budget => s.claims?.bind fun c => s.record?.bind fun r =>
      match (s.limiter c.apiKey r.rateLimit).within? s.timeout with
      | none => some (.rateLimiter "timed out")
      | some (.ok true) => none
      | some (.ok false) => some .rateExceeded
      | some (.error e) => some (.rateLimiter e.message)

/-- Whom a check asks. -/
def call? : Check → Option Query
  | .signature => s.token?.map .verify
  | .record => s.claims?.map fun c => .fetch c.apiKey
  | .budget => s.claims?.bind fun c => s.record?.map fun r => .allow c.apiKey r.rateLimit
  | _ => none

/-- Answers a question, and adds it to those that have been asked. -/
def reply : (q : Query) → List Query → Except Empty (q.Answer × List Query)
  | .verify token, asked => .ok (s.verifier token, asked ++ [.verify token])
  | .fetch key, asked => .ok (s.store key, asked ++ [.fetch key])
  | .allow key limit, asked => .ok (s.limiter key limit, asked ++ [.allow key limit])

/-- What the pipeline answers, and what it has asked by then. -/
def outcome : Except Empty (Except AccessDenied Claims × List Query) :=
  (evaluate s.timeout s.now s.authorization s.path).run s.reply []

/-! ### One check after the other -/

variable {s : Situation} {token : String} {c : Claims} {r : TokenRecord}

theorem claims?_of_verified (ht : s.token? = some token) (hc : s.verifier token = .ok c) :
    s.claims? = some c := by
  simp [claims?, ht, hc, Except.toOption]

theorem claims?_of_refused {e : VerifyError} (ht : s.token? = some token)
    (he : s.verifier token = .error e) : s.claims? = none := by
  simp [claims?, ht, he, Except.toOption]

theorem found?_of_claims (hc : s.claims? = some c) :
    s.found? = (s.store c.apiKey).within? s.timeout := by
  simp [found?, hc]

/-- The checks on the claims alone, and those that follow only if these find nothing. -/
theorem checkClaims_eq (hc : s.claims? = some c) :
    checkClaims s.now s.path c
      = match s.fault? .key, s.fault? .expiry, s.fault? .scope with
        | some denied, _, _ => .error denied
        | none, some denied, _ => .error denied
        | none, none, some denied => .error denied
        | none, none, none => .ok () := by
  simp only [checkClaims, fault?, hc, Option.bind_some, Claims.isExpiredAt_eq, Claims.hasScope,
    String.isEmpty_iff]
  by_cases hkey : c.apiKey = ""
  · simp [hkey]
  · by_cases hexpiry : c.expiration.any (s.now < ·) = true
    · by_cases hscope : c.allowedRoutes = [] ∨ isPathAllowed s.path c.allowedRoutes = true
      · rcases hscope with hscope | hscope <;> simp [hkey, hexpiry, hscope]
      · rw [not_or] at hscope
        simp [hkey, hexpiry, hscope.1, hscope.2]
    · simp [hkey, hexpiry]

theorem recordOutcome_of_fault {denied : AccessDenied} (hc : s.claims? = some c)
    (hrecord : s.fault? .record = some denied) :
    recordOutcome ((s.store c.apiKey).within? s.timeout) = .error denied := by
  simp only [fault?, hc, Option.bind_some, found?_of_claims hc] at hrecord
  rcases hfound : (s.store c.apiKey).within? s.timeout with _ | (e | r)
  · rw [hfound] at hrecord
    cases hrecord
    rfl
  · rw [hfound] at hrecord
    cases e <;> cases hrecord <;> rfl
  · rw [hfound] at hrecord
    cases hrecord

theorem recordOutcome_of_no_fault (hc : s.claims? = some c) (hrecord : s.fault? .record = none) :
    ∃ r, s.record? = some r ∧ recordOutcome ((s.store c.apiKey).within? s.timeout) = .ok r := by
  simp only [fault?, hc, Option.bind_some, found?_of_claims hc] at hrecord
  simp only [record?, found?_of_claims hc]
  rcases hfound : (s.store c.apiKey).within? s.timeout with _ | (e | r)
  · rw [hfound] at hrecord
    cases hrecord
  · rw [hfound] at hrecord
    cases e <;> cases hrecord
  · exact ⟨r, rfl, rfl⟩

/-- What the budget check finds is what the pipeline makes of the limiter's answer. -/
theorem limitOutcome_eq (hc : s.claims? = some c) (hr : s.record? = some r) :
    limitOutcome ((s.limiter c.apiKey r.rateLimit).within? s.timeout)
      = match s.fault? .budget with
        | some denied => .error denied
        | none => .ok () := by
  simp only [fault?, hc, hr, Option.bind_some]
  rcases (s.limiter c.apiKey r.rateLimit).within? s.timeout with _ | (e | allowed)
  · rfl
  · rfl
  · cases allowed <;> rfl

/-! ### What the pipeline goes through -/

theorem outcome_of_no_token (ht : s.token? = none) :
    s.outcome = .ok (.error (.missingCredential "missing bearer token"), []) := by
  rw [token?] at ht
  simp [outcome, evaluate, ht, Dialogue.run]

theorem outcome_of_token (ht : s.token? = some token) :
    s.outcome = match s.verifier token with
      | .error e => .ok (.error (.invalidCredential e.message), [.verify token])
      | .ok c =>
        match checkClaims s.now s.path c with
        | .error denied => .ok (.error denied, [.verify token])
        | .ok () => (checkRecord s.timeout c).run s.reply [.verify token] := by
  rw [token?] at ht
  simp only [outcome, evaluate, ht, Dialogue.run, reply, List.nil_append]
  cases s.verifier token with
  | error e => rfl
  | ok c =>
    dsimp only
    rcases checkClaims s.now s.path c with denied | _ <;> rfl

theorem run_checkRecord (asked : List Query) :
    (checkRecord s.timeout c).run s.reply asked
      = match recordOutcome ((s.store c.apiKey).within? s.timeout) with
        | .error denied => .ok (.error denied, asked ++ [.fetch c.apiKey])
        | .ok r =>
          if r.rateLimit ≤ 0 then
            .ok (.error (.missingCredential "token disabled"), asked ++ [.fetch c.apiKey])
          else
            .ok ((limitOutcome ((s.limiter c.apiKey r.rateLimit).within? s.timeout)).map fun _ => c,
              asked ++ [.fetch c.apiKey, .allow c.apiKey r.rateLimit]) := by
  simp only [checkRecord, Dialogue.run, reply]
  cases recordOutcome ((s.store c.apiKey).within? s.timeout) with
  | error denied => rfl
  | ok r =>
    by_cases hlimit : r.rateLimit ≤ 0
    · simp [TokenRecord.isEnabled, hlimit, Dialogue.run, Int.not_lt.2 hlimit]
    · have henabled : r.isEnabled = true := by simpa [TokenRecord.isEnabled] using hlimit
      simp only [henabled, Bool.not_true, Bool.false_eq_true, if_false, hlimit, Dialogue.run, reply,
        List.append_assoc, List.cons_append, List.nil_append]
      cases limitOutcome ((s.limiter c.apiKey r.rateLimit).within? s.timeout) <;> rfl

/-- A check that finds something wrong, after others that do not, gives the pipeline's answer. -/
def DecidedBy (s : Situation) (k : Check) (denied : AccessDenied) : Prop :=
  s.fault? k = some denied ∧ (∀ j ∈ k.before, s.fault? j = none) ∧
    s.outcome = .ok (.error denied, (k.before ++ [k]).filterMap s.call?)

/-- Every check passes, and the pipeline answers with the claims that the verifier gave. -/
def Admitted (s : Situation) : Prop :=
  (∀ k, s.fault? k = none) ∧
    ∃ token c r, s.token? = some token ∧ s.verifier token = .ok c ∧ s.record? = some r ∧
      s.outcome = .ok (.ok c, [.verify token, .fetch c.apiKey, .allow c.apiKey r.rateLimit])

/-- Up to the claims: the bearer token and its signature. -/
theorem decided_of_no_claims (hc : s.claims? = none) : ∃ k denied, s.DecidedBy k denied := by
  rcases ht : s.token? with _ | token
  · refine ⟨.bearer, .missingCredential "missing bearer token", ?_, ?_, ?_⟩
    · simp [fault?, ht]
    · simp [Check.before, Check.all]
    · simp [Check.before, Check.all, List.filterMap_cons, call?, outcome_of_no_token ht]
  · have hbearer : s.fault? .bearer = none := by simp [fault?, ht]
    rcases hv : s.verifier token with e | c
    · refine ⟨.signature, .invalidCredential e.message, ?_, ?_, ?_⟩
      · simp [fault?, ht, hv]
      · simp [Check.before, Check.all, hbearer]
      · simp [Check.before, Check.all, List.filterMap_cons, call?, ht, outcome_of_token ht, hv]
    · rw [claims?_of_verified ht hv] at hc
      cases hc

/-- From the claims on: what they say, the record, and the budget. -/
theorem decided_of_claims (ht : s.token? = some token) (hv : s.verifier token = .ok c) :
    (∃ k denied, s.DecidedBy k denied) ∨ s.Admitted := by
  have hc : s.claims? = some c := claims?_of_verified ht hv
  have hbearer : s.fault? .bearer = none := by simp [fault?, ht]
  have hsignature : s.fault? .signature = none := by simp [fault?, ht, hv]
  have houtcome : s.outcome = match checkClaims s.now s.path c with
      | .error denied => .ok (.error denied, [.verify token])
      | .ok () => (checkRecord s.timeout c).run s.reply [.verify token] := by
    rw [outcome_of_token ht, hv]
  rw [checkClaims_eq hc] at houtcome
  rcases hkey : s.fault? .key with _ | denied
  case some =>
    refine Or.inl ⟨.key, denied, hkey, ?_, ?_⟩
    · simp [Check.before, Check.all, hbearer, hsignature]
    · simp [Check.before, Check.all, List.filterMap_cons, call?, ht, houtcome, hkey]
  rcases hexpiry : s.fault? .expiry with _ | denied
  case some =>
    refine Or.inl ⟨.expiry, denied, hexpiry, ?_, ?_⟩
    · simp [Check.before, Check.all, hbearer, hsignature, hkey]
    · simp [Check.before, Check.all, List.filterMap_cons, call?, ht, houtcome, hkey, hexpiry]
  rcases hscope : s.fault? .scope with _ | denied
  case some =>
    refine Or.inl ⟨.scope, denied, hscope, ?_, ?_⟩
    · simp [Check.before, Check.all, hbearer, hsignature, hkey, hexpiry]
    · simp [Check.before, Check.all, List.filterMap_cons, call?, ht, houtcome, hkey, hexpiry, hscope]
  -- The claims pass, so the record is asked for.
  simp only [hkey, hexpiry, hscope, run_checkRecord] at houtcome
  rcases hrecord : s.fault? .record with _ | denied
  case some =>
    rw [recordOutcome_of_fault hc hrecord] at houtcome
    refine Or.inl ⟨.record, denied, hrecord, ?_, ?_⟩
    · simp [Check.before, Check.all, hbearer, hsignature, hkey, hexpiry, hscope]
    · simp [Check.before, Check.all, List.filterMap_cons, call?, ht, hc, houtcome]
  obtain ⟨r, hr, hfound⟩ := recordOutcome_of_no_fault hc hrecord
  simp only [hfound, limitOutcome_eq hc hr] at houtcome
  by_cases hlimit : r.rateLimit ≤ 0
  · have henabled : s.fault? .enabled = some (.missingCredential "token disabled") := by
      simp [fault?, hr, hlimit]
    refine Or.inl ⟨.enabled, _, henabled, ?_, ?_⟩
    · simp [Check.before, Check.all, hbearer, hsignature, hkey, hexpiry, hscope, hrecord]
    · simp [Check.before, Check.all, List.filterMap_cons, call?, ht, hc, houtcome, hlimit]
  have henabled : s.fault? .enabled = none := by simp [fault?, hr, hlimit]
  rw [if_neg hlimit] at houtcome
  rcases hbudget : s.fault? .budget with _ | denied
  · refine Or.inr ⟨?_, token, c, r, ht, hv, hr, ?_⟩
    · intro k
      cases k <;> assumption
    · simp [houtcome, hbudget, Except.map]
  · refine Or.inl ⟨.budget, denied, hbudget, ?_, ?_⟩
    · simp [Check.before, Check.all, hbearer, hsignature, hkey, hexpiry, hscope, hrecord, henabled]
    · simp [Check.before, Check.all, List.filterMap_cons, call?, ht, hc, hr, houtcome, hbudget, Except.map]

theorem decided_or_admitted (s : Situation) :
    (∃ k denied, s.DecidedBy k denied) ∨ s.Admitted := by
  rcases ht : s.token? with _ | token
  · exact Or.inl (decided_of_no_claims (by simp [claims?, ht]))
  rcases hv : s.verifier token with e | c
  · exact Or.inl (decided_of_no_claims (claims?_of_refused ht hv))
  · exact decided_of_claims ht hv

/-- **The first failure decides.** If a check finds something wrong and those before it do not, that is
the answer, whatever the checks after it find, and the questions asked are those of the checks up to it.
If none does, the answer is what the verifier gave, and all three collaborators have been asked. -/
theorem first_failure_decides (s : Situation) :
    (∀ k denied, s.fault? k = some denied → (∀ j ∈ k.before, s.fault? j = none) →
      s.outcome = .ok (.error denied, (k.before ++ [k]).filterMap s.call?)) ∧
    ((∀ k, s.fault? k = none) →
      ∃ token c r, s.token? = some token ∧ s.verifier token = .ok c ∧ s.record? = some r ∧
        s.outcome = .ok (.ok c, [.verify token, .fetch c.apiKey, .allow c.apiKey r.rateLimit])) := by
  rcases decided_or_admitted s with ⟨j, found, hj, hbefore, houtcome⟩ | ⟨hnone, hadmitted⟩
  · constructor
    · intro k denied hk hkbefore
      -- Two checks that both find something wrong, each first, are one check.
      have hjk : j = k := by
        rcases Check.before_or_eq_or_before j k with hlt | heq | hgt
        · rw [hkbefore j hlt] at hj
          cases hj
        · exact heq
        · rw [hbefore k hgt] at hk
          cases hk
      subst hjk
      rw [hj] at hk
      cases hk
      exact houtcome
    · intro hnone
      rw [hnone j] at hj
      cases hj
  · constructor
    · intro k denied hk _
      rw [hnone k] at hk
      cases hk
    · intro _
      exact hadmitted

/-- An expired token outside its scope, whose record is disabled and comes too late. -/
def faulty : Situation where
  timeout := 2000
  now := { secs := 100 }
  authorization := some "Bearer t"
  path := "/api/v1/admin"
  verifier _ := .ok { apiKey := "k", allowedRoutes := ["/api/v1/users/*"], exp := 100 }
  store key :=
    { value := .ok { apiKey := key, rateLimit := 0, expiresAt := { secs := 50 } }, delay := 2001 }
  limiter _ limit := { value := .error (.invalidLimit limit) }

theorem expiry_decides_in_faulty :
    faulty.outcome = .ok (.error (.invalidCredential "token expired"), [.verify "t"]) :=
  (first_failure_decides faulty).1 .expiry (.invalidCredential "token expired") (by decide +kernel)
    (by decide +kernel)

end Situation

end Turnstile.Access
