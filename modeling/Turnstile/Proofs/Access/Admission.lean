import Turnstile.Access.Local
import Turnstile.Proofs.Rate.Counter
import Turnstile.Proofs.Token.Memory
/-!
# Who is admitted

A gateway of one process decides by its stores, which are the outcome of everything that has happened to
it. Here the decision is read off the history itself: the record in force is the one that was last written
and not removed since (`inForce`), the budget is used by those requests that had passed every other check
(`used`), and the stores reflect just that (`Reflects`), so that a request is admitted if and only if its
history says so. Histories have their latest step first.
-/

namespace Turnstile.Access

open Time Rate TokenTable

/-! ### Records in force -/

/-- The record that was last written for a key and not removed since. -/
def inForce (key : String) : List Step → Option TokenRecord
  | [] => none
  | x :: past =>
    match x.action with
    | .upsert r => if r.apiKey = key ∧ (r.check x.now).isOk then some r else inForce key past
    | .delete k => if k = key then none else inForce key past
    | .fetch _ | .evaluate _ _ => inForce key past

/-- A step that replaces or removes the record of a key. -/
def Step.Settles (x : Step) (key : String) : Prop :=
  match x.action with
  | .upsert r => r.apiKey = key ∧ r.check x.now = .ok ()
  | .delete k => k = key
  | .fetch _ | .evaluate _ _ => False

/-- A write for the key was accepted, and the steps since have left it alone. -/
def InForce (key : String) (past : List Step) (r : TokenRecord) : Prop :=
  ∃ later now earlier, past = later ++ ⟨now, .upsert r⟩ :: earlier ∧ r.apiKey = key ∧
    r.check now = .ok () ∧ ∀ x ∈ later, ¬ x.Settles key

theorem isOk_iff {ε : Type} {e : Except ε Unit} : e.isOk = true ↔ e = .ok () := by
  cases e with
  | error e => simp [Except.isOk, Except.toBool]
  | ok u => simp [Except.isOk, Except.toBool]

theorem inForce_upsert {now : Instant} {r : TokenRecord} (hcheck : r.check now = .ok ())
    (past : List Step) : inForce r.apiKey (⟨now, .upsert r⟩ :: past) = some r :=
  if_pos ⟨rfl, isOk_iff.2 hcheck⟩

theorem inForce_delete (now : Instant) (key : String) (past : List Step) :
    inForce key (⟨now, .delete key⟩ :: past) = none :=
  if_pos rfl

theorem inForce_of_not_settles {x : Step} {key : String} (h : ¬ x.Settles key) (past : List Step) :
    inForce key (x :: past) = inForce key past := by
  obtain ⟨now, action⟩ := x
  cases action with
  | upsert r => exact if_neg fun hsettles => h ⟨hsettles.1, isOk_iff.1 hsettles.2⟩
  | delete k => exact if_neg h
  | fetch | evaluate => rfl

theorem inForce_eq_some_iff {key : String} {past : List Step} {r : TokenRecord} :
    inForce key past = some r ↔ InForce key past r := by
  constructor
  · intro h
    induction past with
    | nil => cases h
    | cons x past ih =>
      by_cases hx : x.Settles key
      · obtain ⟨now, action⟩ := x
        cases action with
        | upsert r' =>
          obtain ⟨rfl, hcheck⟩ := hx
          rw [inForce_upsert hcheck] at h
          cases h
          exact ⟨[], now, past, rfl, rfl, hcheck, by simp⟩
        | delete k =>
          cases hx
          rw [inForce_delete] at h
          cases h
        | fetch | evaluate => cases hx
      · rw [inForce_of_not_settles hx] at h
        obtain ⟨later, now, earlier, rfl, hkey, hcheck, hlater⟩ := ih h
        refine ⟨x :: later, now, earlier, rfl, hkey, hcheck, ?_⟩
        intro y hy
        rcases List.mem_cons.1 hy with rfl | hy
        · exact hx
        · exact hlater y hy
  · rintro ⟨later, now, earlier, rfl, rfl, hcheck, hlater⟩
    induction later with
    | nil => exact inForce_upsert hcheck earlier
    | cons x later ih =>
      rw [List.cons_append, inForce_of_not_settles (hlater x List.mem_cons_self)]
      exact ih fun y hy => hlater y (List.mem_cons_of_mem x hy)

/-! ### Requests that have passed every other check -/

/-- The claims of a request that has a good token which is alive, and a path within its scope. -/
def presented? (g : Local) (now : Instant) (authorization : Option String) (path : String) :
    Option Claims := do
  let token ← authorization.bind extractBearer
  let c ← (g.keys.verify token).toOption
  if c.expiration.any (now < ·) ∧ (c.allowedRoutes = [] ∨ isPathAllowed path c.allowedRoutes) then some c
  else none

def Presents (g : Local) (now : Instant) (authorization : Option String) (path : String) (c : Claims) :
    Prop :=
  (∃ token, authorization.bind extractBearer = some token ∧ g.keys.verify token = .ok c) ∧
    (∃ expiry, c.expiration = some expiry ∧ now < expiry) ∧
    (c.allowedRoutes = [] ∨ isPathAllowed path c.allowedRoutes = true)

theorem toOption_eq_some_iff {ε α : Type} {e : Except ε α} {a : α} :
    e.toOption = some a ↔ e = .ok a := by
  cases e <;> simp [Except.toOption]

theorem presented?_eq_some_iff {g : Local} {now : Instant} {authorization : Option String} {path : String}
    {c : Claims} : presented? g now authorization path = some c ↔ Presents g now authorization path c := by
  simp only [presented?, Presents, Option.bind_eq_bind, Option.bind_eq_some_iff, toOption_eq_some_iff,
    Option.ite_none_right_eq_some, Option.any_eq_true, decide_eq_true_eq]
  constructor
  · rintro ⟨token, htoken, c', hv, ⟨hexpiry, hscope⟩, heq⟩
    cases heq
    exact ⟨⟨token, htoken, hv⟩, hexpiry, hscope⟩
  · rintro ⟨⟨token, htoken, hv⟩, hexpiry, hscope⟩
    exact ⟨token, htoken, c, hv, ⟨hexpiry, hscope⟩, rfl⟩

/-- The claims and the live record of a step that asks for a decision and has passed every check but the
last. -/
def entitled? (g : Local) (past : List Step) (x : Step) : Option (Claims × TokenRecord) :=
  match x.action with
  | .evaluate authorization path => do
    let c ← presented? g x.now authorization path
    let r ← aliveAt x.now (inForce c.apiKey past)
    return (c, r)
  | _ => none

theorem entitled?_eq_some_iff {g : Local} {past : List Step} {now : Instant}
    {authorization : Option String} {path : String} {c : Claims} {r : TokenRecord} :
    entitled? g past ⟨now, .evaluate authorization path⟩ = some (c, r) ↔
      Presents g now authorization path c ∧ InForce c.apiKey past r ∧ now < r.expiresAt := by
  rw [← presented?_eq_some_iff, ← inForce_eq_some_iff, ← aliveAt_eq_some_iff]
  simp only [entitled?, Option.bind_eq_bind, Option.bind_eq_some_iff, Option.pure_def, Option.some.injEq,
    Prod.mk.injEq]
  constructor
  · rintro ⟨c', hc, r', hr, rfl, rfl⟩
    exact ⟨hc, hr⟩
  · rintro ⟨hc, hr⟩
    exact ⟨c, hc, r, hr, rfl, rfl⟩

/-- How often the budget of a key has been used in the window with a start. -/
def used (g : Local) (key : String) (start : Int) : List Step → Nat
  | [] => 0
  | x :: past =>
    used g key start past +
      if (entitled? g past x).any (·.1.apiKey = key) ∧ windowStart x.now g.window = start then 1 else 0

/-! ### One decision -/

section Decision

variable {g : Local} {now : Instant} {authorization : Option String} {path : String} {c : Claims}
  {r : TokenRecord} {s : Stores}

theorem apiKey_ne_of_verify {keys : Jwt.KeySet} {token : String} (h : keys.verify token = .ok c) :
    c.apiKey ≠ "" := by
  unfold Jwt.KeySet.verify at h
  split at h
  · split at h
    · split at h
      · cases h
      · split at h
        · cases h
        · next hkey =>
          cases h
          rwa [String.isEmpty_iff] at hkey
    · cases h
  · cases h

theorem checkClaims_eq_ok_iff : checkClaims now path c = .ok () ↔
    c.apiKey ≠ "" ∧ (∃ expiry, c.expiration = some expiry ∧ now < expiry) ∧
      (c.allowedRoutes = [] ∨ isPathAllowed path c.allowedRoutes = true) := by
  rw [← Claims.isExpiredAt_eq_false_iff]
  unfold checkClaims
  split
  · next hkey => simp [String.isEmpty_iff.1 hkey]
  next hkey =>
  split
  · next hexpired => simp [hexpired]
  next hexpired =>
  split
  · next hscope =>
    simp only [Claims.hasScope, Bool.and_eq_true, Bool.not_eq_true', List.isEmpty_eq_false_iff] at hscope
    simp [hscope.1, hscope.2]
  next hscope =>
  rw [String.isEmpty_iff] at hkey
  simp only [Claims.hasScope, Bool.and_eq_true, Bool.not_eq_true', List.isEmpty_eq_false_iff] at hscope
  refine iff_of_true rfl ⟨hkey, by simpa using hexpired, ?_⟩
  by_cases hroutes : c.allowedRoutes = []
  · exact Or.inl hroutes
  · exact Or.inr (by simpa [hroutes] using hscope)

theorem apiKey_ne_of_presents (h : Presents g now authorization path c) : c.apiKey ≠ "" := by
  obtain ⟨⟨token, -, hv⟩, -⟩ := h
  exact apiKey_ne_of_verify hv

theorem run_evaluate_of_presents (h : Presents g now authorization path c) :
    (evaluate g.timeout now authorization path).run (g.answer now) s
      = (checkRecord g.timeout c).run (g.answer now) s := by
  have hkey := apiKey_ne_of_presents h
  obtain ⟨⟨token, htoken, hv⟩, hexpiry, hscope⟩ := h
  have hcheck : checkClaims now path c = .ok () := checkClaims_eq_ok_iff.2 ⟨hkey, hexpiry, hscope⟩
  simp only [evaluate, htoken, Dialogue.run, Local.answer, hv, hcheck]

/-- Good claims that do not pass their checks are turned away, and no store is asked. -/
theorem run_evaluate_of_refused {token : String} {denied : AccessDenied}
    (htoken : authorization.bind extractBearer = some token) (hv : g.keys.verify token = .ok c)
    (hcheck : checkClaims now path c = .error denied) :
    (evaluate g.timeout now authorization path).run (g.answer now) s = .ok (.error denied, s) := by
  simp only [evaluate, htoken, Dialogue.run, Local.answer, hv, hcheck]

theorem run_evaluate_of_not_presented (h : presented? g now authorization path = none) :
    ∃ denied, (evaluate g.timeout now authorization path).run (g.answer now) s
      = .ok (.error denied, s) := by
  rcases htoken : authorization.bind extractBearer with _ | token
  · exact ⟨.missingCredential "missing bearer token", by simp only [evaluate, htoken, Dialogue.run]⟩
  rcases hv : g.keys.verify token with e | c
  · exact ⟨.invalidCredential e.message, by simp only [evaluate, htoken, Dialogue.run, Local.answer, hv]⟩
  rcases hcheck : checkClaims now path c with denied | _
  · exact ⟨denied, run_evaluate_of_refused htoken hv hcheck⟩
  · exfalso
    have hpresents : Presents g now authorization path c :=
      ⟨⟨token, htoken, hv⟩, (checkClaims_eq_ok_iff.1 hcheck).2⟩
    rw [presented?_eq_some_iff.2 hpresents] at h
    cases h

/-- Without a live record the request is turned away, and nothing is counted. -/
theorem run_checkRecord_of_dead (hkey : c.apiKey ≠ "")
    (h : aliveAt now (s.tokens.get? c.apiKey) = none) :
    ∃ denied, (checkRecord g.timeout c).run (g.answer now) s
      = .ok (.error denied, { s with tokens := (s.tokens.fetch now c.apiKey).2 }) := by
  obtain ⟨e, he, hfound⟩ := fetch_of_dead hkey h
  refine ⟨.missingCredential ("unknown token: " ++ e.message), ?_⟩
  simp [checkRecord, Dialogue.run, Local.answer, hfound, recordOutcome, Timed.within?, he]

/-- With a live record the request is counted, and the count decides. -/
theorem run_checkRecord_of_alive {n : Int} {counters : CounterTable} (hkey : c.apiKey ≠ "")
    (h : aliveAt now (s.tokens.get? c.apiKey) = some r) (hlimit : 0 < r.rateLimit)
    (hcount : s.counters.increment g.stem now c.apiKey g.window = .ok (.ok n, counters)) :
    (checkRecord g.timeout c).run (g.answer now) s
      = .ok (if n ≤ r.rateLimit then .ok c else .error .rateExceeded, { s with counters }) := by
  have hallow : Rate.allow g.stem g.window s.counters now c.apiKey r.rateLimit
      = .ok (.ok (decide (n ≤ r.rateLimit)), counters) := by
    simp [allow, checkRequest, String.isEmpty_iff, hkey, Int.not_le.2 hlimit, hcount, verdict]
  simp only [checkRecord, Dialogue.run, Local.answer, fetch_of_alive hkey h, recordOutcome, Timed.within?,
    Nat.zero_le, if_true, TokenRecord.isEnabled, hlimit, decide_true, Bool.not_true, Bool.false_eq_true,
    if_false, hallow]
  by_cases hn : n ≤ r.rateLimit
  · simp [hn, limitOutcome, Dialogue.run]
  · simp [hn, limitOutcome, Dialogue.run]

end Decision

/-! ### Stores and histories -/

/-- An instant not before any step of a history. -/
def After (past : List Step) (x : Instant) : Prop := ∀ y ∈ past, y.now ≤ x

def Chronological : List Step → Prop
  | [] => True
  | x :: past => After past x.now ∧ Chronological past

/-- What the token store shows is what the history has put in force. -/
def Shows (past : List Step) (t : TokenTable) : Prop :=
  ∀ key x, key ≠ "" → After past x → aliveAt x (t.get? key) = aliveAt x (inForce key past)

structure Reflects (g : Local) (past : List Step) (s : Stores) : Prop where
  tokens : Shows past s.tokens
  counters : CounterTable.Tallies g.stem g.window (past.map (·.now)) (fun key start => used g key start past)
    s.counters

theorem reflects_nil (g : Local) : Reflects g [] {} where
  tokens _ _ _ _ := rfl
  counters := CounterTable.Tallies.empty

section Steps

variable {g : Local} {past : List Step} {now : Instant} {t : TokenTable} {s : Stores}

theorem After.of_cons {x : Step} {u : Instant} (h : After (x :: past) u) : x.now ≤ u ∧ After past u :=
  ⟨h x List.mem_cons_self, fun y hy => h y (List.mem_cons_of_mem x hy)⟩

theorem After.tolerates (h : After past now) : CounterTable.Tolerates (past.map (·.now)) now := by
  intro u hu
  obtain ⟨y, hy, rfl⟩ := List.mem_map.1 hu
  have := Instant.secs_le_of_le (h y hy)
  omega

theorem Shows.keep (h : Shows past t) {a : Action} (ha : ∀ key, ¬ Step.Settles ⟨now, a⟩ key) :
    Shows (⟨now, a⟩ :: past) t := by
  intro key x hkey hx
  rw [inForce_of_not_settles (ha key)]
  exact h key x hkey hx.of_cons.2

theorem Shows.fetch (h : Shows past t) {a : Action} (ha : ∀ key, ¬ Step.Settles ⟨now, a⟩ key)
    (key' : String) : Shows (⟨now, a⟩ :: past) (t.fetch now key').2 := by
  intro key x hkey hx
  rw [aliveAt_fetch t key key' hx.of_cons.1]
  exact h.keep ha key x hkey hx

theorem Shows.upsert (h : Shows past t) (r : TokenRecord) :
    Shows (⟨now, .upsert r⟩ :: past) (t.upsert now r).2 := by
  intro key x hkey hx
  by_cases hcheck : r.check now = .ok ()
  · rw [upsert_of_check hcheck]
    by_cases hr : key = r.apiKey
    · subst hr
      rw [inForce_upsert hcheck, Table.get?_insert_self]
    · have hsettles : ¬ Step.Settles ⟨now, .upsert r⟩ key := fun hsettles => hr hsettles.1.symm
      rw [inForce_of_not_settles hsettles, Table.get?_insert_of_ne _ _ hr]
      exact h key x hkey hx.of_cons.2
  · have hsettles : ¬ Step.Settles ⟨now, .upsert r⟩ key := fun hsettles => hcheck hsettles.2
    rw [upsert_of_check_ne hcheck, inForce_of_not_settles hsettles]
    exact h key x hkey hx.of_cons.2

theorem Shows.delete (h : Shows past t) (k : String) :
    Shows (⟨now, .delete k⟩ :: past) (t.delete k).2 := by
  intro key x hkey hx
  by_cases hk : key = k
  · subst hk
    rw [delete_of_ne hkey, inForce_delete, Table.get?_erase_self]
  · have hsettles : ¬ Step.Settles ⟨now, .delete k⟩ key := fun hsettles => hk hsettles.symm
    rw [inForce_of_not_settles hsettles]
    by_cases hempty : k = ""
    · subst hempty
      rw [delete_empty]
      exact h key x hkey hx.of_cons.2
    · rw [delete_of_ne hempty, Table.get?_erase_of_ne _ hk]
      exact h key x hkey hx.of_cons.2

/-- A step that has not passed every other check leaves the counts alone. -/
theorem Reflects.counters_of_not_entitled (h : Reflects g past s) {x : Step}
    (hx : entitled? g past x = none) :
    CounterTable.Tallies g.stem g.window ((x :: past).map (·.now))
      (fun key start => used g key start (x :: past)) s.counters := by
  have hused : (fun key start => used g key start (x :: past)) = fun key start => used g key start past := by
    funext key start
    simp [used, hx]
  rw [hused]
  exact h.counters.later x.now

theorem not_settles_evaluate (now : Instant) (authorization : Option String) (path key : String) :
    ¬ Step.Settles ⟨now, .evaluate authorization path⟩ key := id

/-- A request that has not passed every other check is turned away. -/
theorem Reflects.turned_away (h : Reflects g past s) (hafter : After past now)
    {authorization : Option String} {path : String}
    (hnone : entitled? g past ⟨now, .evaluate authorization path⟩ = none) :
    ∃ denied s', g.act now (.evaluate authorization path) s = .ok (.error denied, s') ∧
      Reflects g (⟨now, .evaluate authorization path⟩ :: past) s' := by
  have hsettles := not_settles_evaluate now authorization path
  have hcounters := h.counters_of_not_entitled hnone
  rcases hc : presented? g now authorization path with _ | c
  · obtain ⟨denied, hrun⟩ := run_evaluate_of_not_presented hc
    exact ⟨denied, s, hrun, h.tokens.keep hsettles, hcounters⟩
  · have hpresents : Presents g now authorization path c := presented?_eq_some_iff.1 hc
    have hkey : c.apiKey ≠ "" := apiKey_ne_of_presents hpresents
    have hdead : aliveAt now (inForce c.apiKey past) = none := by
      rw [Option.eq_none_iff_forall_ne_some]
      simpa [entitled?, hc] using hnone
    obtain ⟨denied, hrun⟩ :=
      run_checkRecord_of_dead (g := g) hkey ((h.tokens c.apiKey now hkey hafter).trans hdead)
    exact ⟨denied, _, (run_evaluate_of_presents hpresents).trans hrun, h.tokens.fetch hsettles c.apiKey,
      hcounters⟩

/-- A request that has is counted, and the count decides. -/
theorem Reflects.counted (h : Reflects g past s) (hwindow : 1 ≤ g.window.secs) (hafter : After past now)
    (hfits : CounterTable.Fits g.window now) {authorization : Option String} {path : String} {c : Claims}
    {r : TokenRecord}
    (hsome : entitled? g past ⟨now, .evaluate authorization path⟩ = some (c, r)) :
    ∃ s', g.act now (.evaluate authorization path) s
        = .ok (if used g c.apiKey (windowStart now g.window) past < r.rateLimit then .ok c
            else .error .rateExceeded, s') ∧
      Reflects g (⟨now, .evaluate authorization path⟩ :: past) s' := by
  obtain ⟨hpresents, hforce, hlive⟩ := entitled?_eq_some_iff.1 hsome
  have hkey : c.apiKey ≠ "" := apiKey_ne_of_presents hpresents
  have halive : aliveAt now (s.tokens.get? c.apiKey) = some r := by
    rw [h.tokens c.apiKey now hkey hafter]
    exact aliveAt_eq_some_iff.2 ⟨inForce_eq_some_iff.2 hforce, hlive⟩
  obtain ⟨_, _, _, _, _, hcheck, _⟩ := hforce
  obtain ⟨counters, hcount, htallies⟩ := h.counters.increment hwindow hfits hafter.tolerates c.apiKey
  have hrun := run_checkRecord_of_alive hkey halive (TokenRecord.rateLimit_pos_of_check hcheck) hcount
  have hbudget : ((used g c.apiKey (windowStart now g.window) past + 1 : Nat) : Int) ≤ r.rateLimit
      ↔ used g c.apiKey (windowStart now g.window) past < r.rateLimit := by omega
  simp only [hbudget] at hrun
  have hused : (fun key start => used g key start (⟨now, .evaluate authorization path⟩ :: past))
      = fun key start => used g key start past
        + if key = c.apiKey ∧ start = windowStart now g.window then 1 else 0 := by
    funext key start
    simp [used, hsome, eq_comm]
  refine ⟨_, (run_evaluate_of_presents hpresents).trans hrun,
    h.tokens.keep (not_settles_evaluate now authorization path), ?_⟩
  rw [hused]
  exact htallies

/-- A step goes through, and the stores go on reflecting the history. -/
theorem Reflects.step (h : Reflects g past s) (hwindow : 1 ≤ g.window.secs) (x : Step)
    (hafter : After past x.now) (hfits : CounterTable.Fits g.window x.now) :
    ∃ answer s', g.act x.now x.action s = .ok (answer, s') ∧ Reflects g (x :: past) s' := by
  obtain ⟨now, action⟩ := x
  cases action with
  | upsert r => exact ⟨_, _, rfl, h.tokens.upsert r, h.counters_of_not_entitled rfl⟩
  | delete key => exact ⟨_, _, rfl, h.tokens.delete key, h.counters_of_not_entitled rfl⟩
  | fetch key =>
    have hsettles : ∀ k, ¬ Step.Settles ⟨now, .fetch key⟩ k := fun _ h => h
    exact ⟨_, _, rfl, h.tokens.fetch hsettles key, h.counters_of_not_entitled rfl⟩
  | evaluate authorization path =>
    rcases hentitled : entitled? g past ⟨now, .evaluate authorization path⟩ with _ | ⟨c, r⟩
    · obtain ⟨denied, s', hact, hreflects⟩ := h.turned_away hafter hentitled
      exact ⟨.error denied, s', hact, hreflects⟩
    · obtain ⟨s', hact, hreflects⟩ := h.counted hwindow hafter hfits hentitled
      exact ⟨_, s', hact, hreflects⟩

/-- A run goes through, and its stores reflect it. -/
theorem exists_after (hwindow : 1 ≤ g.window.secs) (hclock : Chronological past)
    (hfits : ∀ x ∈ past, CounterTable.Fits g.window x.now) :
    ∃ s, g.after past = .ok s ∧ Reflects g past s := by
  induction past with
  | nil => exact ⟨{}, rfl, reflects_nil g⟩
  | cons x past ih =>
    obtain ⟨s, hs, hreflects⟩ := ih hclock.2 fun y hy => hfits y (List.mem_cons_of_mem x hy)
    obtain ⟨answer, s', hact, hreflects'⟩ :=
      hreflects.step hwindow x hclock.1 (hfits x List.mem_cons_self)
    refine ⟨s', ?_, hreflects'⟩
    simp only [Local.after, hs, hact]
    rfl

/-- **A history decides who is admitted.** After any run of a gateway whose clock never goes back, the
decision on a request lets it through with some claims if and only if it has a good token for them which
is alive, the path is within their scope, a record is in force for their key and alive, and fewer requests
than it allows have used the budget of the key in the window. -/
theorem admitted_iff (g : Local) (hwindow : 1 ≤ g.window.secs) (past : List Step) (now : Instant)
    (authorization : Option String) (path : String)
    (hclock : Chronological (⟨now, .evaluate authorization path⟩ :: past))
    (hfits : ∀ x ∈ (⟨now, .evaluate authorization path⟩ :: past : List Step),
      CounterTable.Fits g.window x.now) :
    ∃ s outcome s', g.after past = .ok s ∧
      g.act now (.evaluate authorization path) s = .ok (outcome, s') ∧
      ∀ c, outcome = .ok c ↔
        (∃ token, authorization.bind extractBearer = some token ∧ g.keys.verify token = .ok c) ∧
        (∃ expiry, c.expiration = some expiry ∧ now < expiry) ∧
        (c.allowedRoutes = [] ∨ isPathAllowed path c.allowedRoutes = true) ∧
        ∃ r, InForce c.apiKey past r ∧ now < r.expiresAt ∧
          used g c.apiKey (windowStart now g.window) past < r.rateLimit := by
  obtain ⟨s, hs, hreflects⟩ :=
    exists_after hwindow hclock.2 fun x hx => hfits x (List.mem_cons_of_mem _ hx)
  rcases hentitled : entitled? g past ⟨now, .evaluate authorization path⟩ with _ | ⟨c', r'⟩
  · obtain ⟨denied, s', hact, -⟩ := hreflects.turned_away hclock.1 hentitled
    refine ⟨s, _, s', hs, hact, fun c => iff_of_false (fun heq => by cases heq) ?_⟩
    rintro ⟨htoken, hexpiry, hscope, r, hforce, hlive, -⟩
    rw [entitled?_eq_some_iff.2 ⟨⟨htoken, hexpiry, hscope⟩, hforce, hlive⟩] at hentitled
    cases hentitled
  · obtain ⟨s', hact, -⟩ :=
      hreflects.counted hwindow hclock.1 (hfits _ List.mem_cons_self) hentitled
    refine ⟨s, _, s', hs, hact, fun c => ?_⟩
    constructor
    · intro heq
      split at heq
      next hbudget =>
        cases heq
        obtain ⟨⟨htoken, hexpiry, hscope⟩, hforce, hlive⟩ := entitled?_eq_some_iff.1 hentitled
        exact ⟨htoken, hexpiry, hscope, r', hforce, hlive, hbudget⟩
      next => cases heq
    · rintro ⟨htoken, hexpiry, hscope, r, hforce, hlive, hbudget⟩
      rw [entitled?_eq_some_iff.2 ⟨⟨htoken, hexpiry, hscope⟩, hforce, hlive⟩] at hentitled
      cases hentitled
      rw [if_pos hbudget]

end Steps

/-- A gateway with a shared secret of one letter. -/
def oneLetter : Local where
  keys := { algorithm := some (.hmac .sha256), key := some (.secret [115]) }
  window := { secs := 60 }

/-- A token of its key for `k` that expires at second 200. -/
def oneLetterToken : String :=
  "eyJ0eXAiOiJKV1QiLCJhbGciOiJIUzI1NiJ9.eyJhcGlfa2V5IjoiayIsImV4cCI6MjAwfQ." ++
    "uMydmERgR6rd2GX3MdgI0I5zzgAGQdQAkocfBVktECo"

theorem verify_oneLetterToken :
    (oneLetter.keys.verify oneLetterToken).toOption = some { apiKey := "k", exp := 200 } := by
  decide +kernel

/-- The same with the scope `/api/v1/a`. -/
def scopedToken : String :=
  "eyJ0eXAiOiJKV1QiLCJhbGciOiJIUzI1NiJ9." ++
    "eyJhcGlfa2V5IjoiayIsImFsbG93ZWRfcm91dGVzIjpbIi9hcGkvdjEvYSJdLCJleHAiOjIwMH0." ++
    "3Scr3lsAZq7FHqUvKfvcdPWsVpEfCSKAntj5QPHduYA"

def scopedClaims : Claims := { apiKey := "k", allowedRoutes := ["/api/v1/a"], exp := 200 }

theorem verify_scopedToken : (oneLetter.keys.verify scopedToken).toOption = some scopedClaims := by
  decide +kernel

/-- A run that stores a record of `k` with a budget of one. -/
def oneUpsert : List Step := [⟨{ secs := 10 }, .upsert ⟨"k", 1, { secs := 1000 }, []⟩⟩]

theorem inForce_oneUpsert : InForce "k" oneUpsert ⟨"k", 1, { secs := 1000 }, []⟩ :=
  ⟨[], { secs := 10 }, [], rfl, rfl, rfl, by simp⟩

/-- A token without a scope is let through, and one with a scope on the path within it but not on another. -/
theorem oneLetter_admits :
    (∃ s s', oneLetter.after oneUpsert = .ok s ∧
      oneLetter.act { secs := 100 } (.evaluate (some ("Bearer " ++ oneLetterToken)) "/api/v1/users") s
        = .ok (.ok { apiKey := "k", exp := 200 }, s')) ∧
    (∃ s s', oneLetter.after oneUpsert = .ok s ∧
      oneLetter.act { secs := 100 } (.evaluate (some ("Bearer " ++ scopedToken)) "/api/v1/a") s
        = .ok (.ok scopedClaims, s')) ∧
    ∃ s denied s', oneLetter.after oneUpsert = .ok s ∧
      oneLetter.act { secs := 100 } (.evaluate (some ("Bearer " ++ scopedToken)) "/api/v1/b") s
        = .ok (.error denied, s') := by
  have hadmitted (authorization : Option String) (path : String) :=
    admitted_iff oneLetter (by decide) oneUpsert { secs := 100 } authorization path
      (by simp [Chronological, After, oneUpsert]; decide) (by simp [CounterTable.Fits, oneUpsert]; decide)
  have hverified := toOption_eq_some_iff.1 verify_scopedToken
  have hscoped : (some ("Bearer " ++ scopedToken)).bind extractBearer = some scopedToken := by decide +kernel
  refine ⟨?_, ?_, ?_⟩
  · obtain ⟨s, outcome, s', hs, hact, hiff⟩ := hadmitted (some ("Bearer " ++ oneLetterToken)) "/api/v1/users"
    refine ⟨s, s', hs, ?_⟩
    rw [hact, (hiff { apiKey := "k", exp := 200 }).2]
    exact ⟨⟨oneLetterToken, by decide +kernel, toOption_eq_some_iff.1 verify_oneLetterToken⟩,
      ⟨{ secs := 200 }, rfl, by decide⟩, Or.inl rfl, _, inForce_oneUpsert, by decide, by decide +kernel⟩
  · obtain ⟨s, outcome, s', hs, hact, hiff⟩ := hadmitted (some ("Bearer " ++ scopedToken)) "/api/v1/a"
    refine ⟨s, s', hs, ?_⟩
    rw [hact, (hiff scopedClaims).2]
    exact ⟨⟨scopedToken, hscoped, hverified⟩, ⟨{ secs := 200 }, rfl, by decide⟩, Or.inr (by decide +kernel), _,
      inForce_oneUpsert, by decide, by decide +kernel⟩
  · obtain ⟨s, outcome, s', hs, hact, hiff⟩ := hadmitted (some ("Bearer " ++ scopedToken)) "/api/v1/b"
    cases outcome with
    | error denied => exact ⟨s, denied, s', hs, hact⟩
    | ok c =>
      obtain ⟨⟨token, htoken, hverify⟩, -, hscope, -⟩ := (hiff c).1 rfl
      cases hscoped.symm.trans htoken
      cases hverified.symm.trans hverify
      exact absurd hscope (by decide +kernel)

end Turnstile.Access
