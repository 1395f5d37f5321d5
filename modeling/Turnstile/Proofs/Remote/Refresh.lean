import Turnstile.Proofs.Interleaving
import Turnstile.Proofs.Remote.Records
import Turnstile.Remote.Callers
/-!
# Records that are refreshed on the server

A look-up that finds an expired record removes its key with a command of its own, and by then the key may hold
another record. So a record that has been written is held until it is overwritten or deleted, has expired, or
is removed by a look-up that had read the key before (`held_until_ended`). The last can happen while the record
is alive: the refreshed record is lost (`refreshed_lost`).
-/

namespace Turnstile.Remote

open Time Dialogue Interleaving TokenRecord Keyspace

variable {name : String} {r : TokenRecord} {k : Keyspace} {now : Instant}

/-! ### What a call asks -/

/-- The questions of a request, each with what has been answered before. -/
inductive Sends : TokenRequest → List (Exchange Query.Answer) → Query → Prop where
  | read (stem key : String) : Sends (.fetch stem key) [] (.command (.readFields (stem ++ key)))
  | age (stem key : String) (fields : List (String × String)) :
      Sends (.fetch stem key) [⟨.command (.readFields (stem ++ key)), .ok fields⟩] .clock
  | drop (stem key : String) (fields : List (String × String)) (found : TokenRecord) (now : Instant)
      (hread : ofFields key fields = .ok found) (hexpired : found.isExpiredAt now = true) :
      Sends (.fetch stem key) [⟨.command (.readFields (stem ++ key)), .ok fields⟩, ⟨.clock, now⟩]
        (.command (.remove (stem ++ key)))
  | check (stem : String) (r : TokenRecord) : Sends (.upsert stem r) [] .clock
  | write (stem : String) (r : TokenRecord) (now : Instant) (h : r.check now = .ok ()) :
      Sends (.upsert stem r) [⟨.clock, now⟩]
        (.command (.writeFields (stem ++ r.apiKey) r.toFields r.expiresAt.secs))
  | remove (stem key : String) : Sends (.delete stem key) [] (.command (.remove (stem ++ key)))

section Questions

variable {asked : List (Exchange Query.Answer)} {q : Query} {stem key : String}

theorem sends_of_fetch {next : q.Answer → Operation (Except StoreError TokenRecord)}
    (h : Reaches (fetch stem key) asked (.ask q next)) : Sends (.fetch stem key) asked q := by
  unfold fetch at h
  split at h
  · exact absurd h not_reaches_done
  · rcases h.of_ask with ⟨rfl, rfl⟩ | ⟨found, asked, rfl, hfound⟩
    · exact .read stem key
    · split at hfound
      · exact absurd hfound not_reaches_done
      · exact absurd hfound not_reaches_done
      · next fields _ =>
        split at hfound
        · exact absurd hfound not_reaches_done
        · next record hread =>
          rcases hfound.of_ask with ⟨rfl, rfl⟩ | ⟨now, asked, rfl, haged⟩
          · exact .age stem key fields
          · split at haged
            · next hexpired =>
              obtain ⟨rfl, rfl⟩ := haged.of_last fun _ => ⟨_, rfl⟩
              exact .drop stem key fields record now hread hexpired
            · exact absurd haged not_reaches_done

theorem sends_of_upsert {next : q.Answer → Operation (Except StoreError Unit)}
    (h : Reaches (upsert stem r) asked (.ask q next)) : Sends (.upsert stem r) asked q := by
  unfold upsert at h
  rcases h.of_ask with ⟨rfl, rfl⟩ | ⟨now, asked, rfl, hread⟩
  · exact .check stem r
  · split at hread
    · exact absurd hread not_reaches_done
    · next hcheck =>
      obtain ⟨rfl, rfl⟩ := hread.of_last fun written => by cases written <;> exact ⟨_, rfl⟩
      exact .write stem r now hcheck

theorem sends_of_delete {next : q.Answer → Operation (Except StoreError Unit)}
    (h : Reaches (delete stem key) asked (.ask q next)) : Sends (.delete stem key) asked q := by
  unfold delete at h
  split at h
  · exact absurd h not_reaches_done
  · obtain ⟨rfl, rfl⟩ := h.of_last fun removed => by cases removed <;> exact ⟨_, rfl⟩
    exact .remove stem key

theorem sends_of_reaches {request : TokenRequest} {next : q.Answer → Operation request.Answer}
    (h : Reaches request.operation asked (.ask q next)) : Sends request asked q := by
  cases request with
  | fetch stem key => exact sends_of_fetch h
  | upsert stem r => exact sends_of_upsert h
  | delete stem key => exact sends_of_delete h

end Questions

/-! ### What ends a record -/

abbrev Scene := State TokenRequest TokenRequest.Answer Query Query.Answer Server

abbrev Move := Event TokenRequest Instant Server.Act

/-- The events that may end a record under its key: the key is written again or deleted, it is dropped at its
deadline, or a look-up removes it at a reading of the clock at which the record has expired. -/
inductive Ends (name : String) (r : TokenRecord) (s : Scene) : Move → Prop where
  | upsert {i : Nat} {x : Instant} {stem : String} {r' : TokenRecord}
      (h : s.Asks i (.upsert stem r') (.command (.writeFields name r'.toFields r'.expiresAt.secs))) :
      Ends name r s (.serve i x)
  | delete {i : Nat} {x : Instant} {stem key : String}
      (h : s.Asks i (.delete stem key) (.command (.remove name))) : Ends name r s (.serve i x)
  | lapse (h : deadlineOf r ≤ s.shared.clock.instant) : Ends name r s (.act (.lapse name))
  | fetch {i : Nat} {x now expiry : Instant} {stem key : String}
      (h : s.Asks i (.fetch stem key) (.command (.remove name))) (hread : s.Heard i ⟨.clock, now⟩)
      (hexpiry : readExpiry r.toFields = .ok expiry) (hexpired : expiry ≤ now) : Ends name r s (.serve i x)

/-- The removal of a key by a look-up that had read it before some moment. -/
inductive Belated (before : Scene) (name : String) (s : Scene) : Move → Prop where
  | fetch {i : Nat} {x : Instant} {stem key : String} {fields : List (String × String)}
      (h : s.Asks i (.fetch stem key) (.command (.remove name)))
      (hread : before.Heard i ⟨.command (.readFields name), .ok fields⟩) : Belated before name s (.serve i x)

/-! ### What an event keeps -/

variable {before s : Scene} {i : Nat} {x : Instant}

/-- A key is held, and whoever has read it read the record, or had read it before. -/
structure Kept (before : Scene) (name : String) (r : TokenRecord) (s : Scene) : Prop where
  holds : Holds s.shared.keyspace name r
  read : ∀ i fields, s.Heard i ⟨.command (.readFields name), .ok fields⟩ →
    before.Heard i ⟨.command (.readFields name), .ok fields⟩ ∨ Carries fields r.toFields

theorem Keyspace.Holds.carries_of_reply (h : Holds k name r) {fields : List (String × String)}
    (hreply : (k.execute now (.readFields name)).1 = .ok fields) : Carries fields r.toFields := by
  obtain ⟨held, hget, hcarries⟩ := h
  simp only [execute, hget] at hreply
  cases hreply
  exact hcarries

theorem Kept.call (h : Kept before name r s) (request : TokenRequest) :
    Kept before name r (tokenStores.step s (.call request)) where
  holds := h.holds
  read i fields hread := h.read i fields (heard_of_call hread)

theorem Kept.act (h : Kept before name r s) {a : Server.Act}
    (hends : ¬ Ends name r s (.act a)) : Kept before name r (tokenStores.step s (.act a)) where
  holds := by
    cases a with
    | pass moment => exact h.holds
    | lapse dropped =>
      by_cases hname : name = dropped
      · subst hname
        exact h.holds.lapse (not_le.1 fun hpassed => hends (.lapse hpassed)) name
      · exact h.holds.congr (get?_lapse_of_ne hname)
  read := h.read

/-- An answer that leaves the key alone and tells nothing about it. -/
theorem Kept.of_other {s' : Scene} (h : Kept before name r s) (hholds : Holds s'.shared.keyspace name r)
    {q : Query} {a : q.Answer}
    (hlearned : ∀ j y, s'.Heard j y → s.Heard j y ∨ (j = i ∧ y = ⟨q, a⟩))
    (hother : q ≠ .command (.readFields name)) : Kept before name r s' where
  holds := hholds
  read j fields hread := by
    rcases hlearned j _ hread with hread | ⟨-, hy⟩
    · exact h.read j fields hread
    · exact absurd (congrArg Sigma.fst hy).symm hother

theorem keyspace_of_served {request : TokenRequest} {asked : List (Exchange Query.Answer)} {c : Command}
    (h : tokenStores.Served s i x request asked (.command c)) :
    (tokenStores.serve s i x).shared.keyspace = (s.shared.keyspace.execute s.shared.clock.instant c).2 := by
  rw [h.shared]
  rfl

/-- Whoever reads the key while it is held reads the record. -/
theorem Kept.of_read (h : Kept before name r s) {request : TokenRequest} {asked : List (Exchange Query.Answer)}
    {key : String}
    (hserved : tokenStores.Served s i x request asked (.command (.readFields key))) :
    Kept before name r (tokenStores.serve s i x) where
  holds := by
    rw [keyspace_of_served hserved, execute_readFields_snd]
    exact h.holds
  read j fields hread := by
    rcases hserved.learned j _ hread with hread | ⟨-, hy⟩
    · exact h.read j fields hread
    · have hname : name = key := by
        have hquestion := congrArg Sigma.fst hy
        injection hquestion with hcommand
        injection hcommand
      subst hname
      have hreply : Except.ok fields = (s.shared.keyspace.execute s.shared.clock.instant (.readFields name)).1 :=
        eq_of_heq (Sigma.mk.inj hy).2
      exact .inr (h.holds.carries_of_reply hreply.symm)

/-- A look-up that removes the key while it is held has seen the record expire, or is belated. -/
theorem Kept.of_drop (h : Kept before name r s) {stem key : String} {fields : List (String × String)}
    {found : TokenRecord}
    (hread : ofFields key fields = .ok found) (hexpired : found.isExpiredAt now = true)
    (hserved : tokenStores.Served s i x (.fetch stem key)
      [⟨.command (.readFields (stem ++ key)), .ok fields⟩, ⟨.clock, now⟩] (.command (.remove (stem ++ key))))
    (hends : ¬ Ends name r s (.serve i x)) (hbelated : ¬ Belated before name s (.serve i x)) :
    stem ++ key ≠ name := by
  rintro rfl
  rcases h.read i fields (hserved.heard _ (by simp)) with hbefore | hcarries
  · exact hbelated (.fetch hserved.asks hbefore)
  · have hexpiry : readExpiry r.toFields = .ok found.expiresAt :=
      hcarries.readExpiry.symm.trans (readExpiry_of_ofFields hread)
    have hread : s.Heard i ⟨.clock, now⟩ := hserved.heard _ (by simp)
    exact hends (.fetch hserved.asks hread hexpiry (by simpa [isExpiredAt] using hexpired))

theorem Kept.serve (h : Kept before name r s) (hsound : tokenStores.Sound s)
    (hends : ¬ Ends name r s (.serve i x)) (hbelated : ¬ Belated before name s (.serve i x)) :
    Kept before name r (tokenStores.step s (.serve i x)) := by
  show Kept before name r (tokenStores.serve s i x)
  rcases hsound.served i x with heq | ⟨request, asked, q, hserved⟩
  · rwa [heq]
  · have hasks := hserved.asks
    have hlearned := hserved.learned
    -- A command about another key leaves what the key holds as it is.
    have hother (c : Command) {key : String} (hc : c.key? = some key) (hname : key ≠ name) :
        Holds (s.shared.keyspace.execute s.shared.clock.instant c).2 name r :=
      h.holds.execute_of_ne (by rw [hc]; exact fun hkey => hname (Option.some.inj hkey)) _
    obtain ⟨next, hreaches⟩ := hserved.reaches
    cases sends_of_reaches hreaches with
    | read stem key => exact h.of_read hserved
    | age stem key fields => exact h.of_other (by rw [hserved.shared]; exact h.holds) hlearned (by simp)
    | drop stem key fields found now hread hexpired =>
      have hname := h.of_drop hread hexpired hserved hends hbelated
      refine h.of_other ?_ hlearned (by simp)
      rw [keyspace_of_served hserved]
      exact hother _ rfl hname
    | check stem r' => exact h.of_other (by rw [hserved.shared]; exact h.holds) hlearned (by simp)
    | write stem r' now hcheck =>
      have hname : stem ++ r'.apiKey ≠ name := by
        rintro rfl
        exact hends (.upsert hasks)
      refine h.of_other ?_ hlearned (by simp)
      rw [keyspace_of_served hserved]
      exact hother _ rfl hname
    | remove stem key =>
      have hname : stem ++ key ≠ name := by
        rintro rfl
        exact hends (.delete hasks)
      refine h.of_other ?_ hlearned (by simp)
      rw [keyspace_of_served hserved]
      exact hother _ rfl hname

theorem Kept.step {e : Move} (h : Kept before name r s) (hsound : tokenStores.Sound s)
    (hends : ¬ (Ends name r s e ∨ Belated before name s e)) : Kept before name r (tokenStores.step s e) := by
  rw [not_or] at hends
  cases e with
  | call request => exact h.call request
  | serve i x => exact h.serve hsound hends.1 hends.2
  | act a => exact h.act hends.1

/-! ### Records that have been written -/

/-- **A written record is held** under its key until it is overwritten, deleted or dropped at its deadline, or
removed by a look-up that sees it expired or had read the key before, whatever calls there are, however they
interleave and whatever clocks show. -/
theorem held_until_ended {server : Server} {past later : List Move}
    (hs : tokenStores.after { shared := server } past = s) {stem : String}
    (hwrite : s.Asks i (.upsert stem r) (.command (.writeFields (stem ++ r.apiKey) r.toFields r.expiresAt.secs)))
    (hwritten : (s.shared.keyspace.execute s.shared.clock.instant
      (.writeFields (stem ++ r.apiKey) r.toFields r.expiresAt.secs)).1 = .ok ())
    (hahead : s.shared.clock.instant < deadlineOf r)
    (hlater : tokenStores.Avoids
      (fun s' e => Ends (stem ++ r.apiKey) r s' e ∨ Belated s (stem ++ r.apiKey) s' e)
      (tokenStores.step s (.serve i x)) later) :
    Holds (tokenStores.after (tokenStores.step s (.serve i x)) later).shared.keyspace (stem ++ r.apiKey) r := by
  have hsound : tokenStores.Sound s := hs ▸ (sound_start tokenStores server).after past
  obtain ⟨asked, hserved⟩ := hsound.served_of_asks hwrite x
  have hstart : Kept s (stem ++ r.apiKey) r (tokenStores.step s (.serve i x)) := by
    constructor
    · show Holds (tokenStores.serve s i x).shared.keyspace _ r
      rw [keyspace_of_served hserved]
      exact holds_of_written hahead (Prod.ext hwritten rfl)
    · intro j fields hread
      rcases hserved.learned j _ hread with hread | ⟨-, hy⟩
      · exact .inl hread
      · cases congrArg Sigma.fst hy
  exact (keeps (hsound.step _) hstart (fun s' e hsound' h hends => h.step hsound' hends) hlater).holds

/-- Whoever removes a key, and for whatever reason: nothing is held under it then. -/
theorem not_holds_of_removed (hsound : tokenStores.Sound s) {request : TokenRequest}
    (h : s.Asks i request (.command (.remove name))) (x : Instant) :
    ¬ Holds (tokenStores.step s (.serve i x)).shared.keyspace name r := by
  obtain ⟨asked, hserved⟩ := hsound.served_of_asks h x
  rintro ⟨fields, hget, -⟩
  change (tokenStores.serve s i x).shared.keyspace.get? name = _ at hget
  rw [keyspace_of_served hserved] at hget
  change (s.shared.keyspace.erase name).get? name = _ at hget
  rw [Table.get?_erase_self] at hget
  cases hget

def refreshedRecord : TokenRecord := { apiKey := "k", rateLimit := 5, expiresAt := { secs := 3660 } }

/-- A server that holds a record of the same key for another tenth of a second. -/
def lapsing : Server where
  clock := { millis := 59900 }
  keyspace := (∅ : Keyspace).insert "token:k"
    { content := .fields [("rate_limit", "5"), ("expires_at", "1970-01-01T00:01:00Z")],
      deadline := some { secs := 60 } }

/-- A look-up reads the old record just before it expires and the clock just after. By then another call has
checked the new record and is about to write it. -/
def beforeRefresh : Scene :=
  tokenStores.after { shared := lapsing }
    [.serve 1 { secs := 60 }, .call (.upsert "token:" refreshedRecord), .serve 0 { secs := 60 },
      .act (.pass { millis := 60000 }), .serve 0 { secs := 59 }, .call (.fetch "token:" "k")]

theorem beforeRefresh_writes :
    beforeRefresh.Asks 1 (.upsert "token:" refreshedRecord)
      (.command (.writeFields "token:k" refreshedRecord.toFields 3660)) :=
  ⟨_, rfl, rfl, rfl⟩

/-- The refreshed record is held when the server has tried to drop the key and another look-up has read it. -/
theorem refreshed_held :
    Holds (tokenStores.after (tokenStores.step beforeRefresh (.serve 1 { secs := 60 }))
      [.act (.lapse "token:k"), .serve 2 { secs := 60 }, .call (.fetch "token:" "k")]).shared.keyspace
        "token:k" refreshedRecord := by
  have hasks : (tokenStores.after (tokenStores.step beforeRefresh (.serve 1 { secs := 60 }))
      [.call (.fetch "token:" "k")]).Asks 2 (.fetch "token:" "k") (.command (.readFields "token:k")) :=
    ⟨_, rfl, rfl, rfl⟩
  refine held_until_ended (r := refreshedRecord) rfl beforeRefresh_writes rfl (by decide)
    ⟨⟨⟨trivial, ?_⟩, ?_⟩, ?_⟩
  · rintro (h | h) <;> cases h
  · rintro (h | h)
    · cases h with
      | upsert h => cases (hasks.unique h).1
      | delete h => cases (hasks.unique h).1
      | fetch h => cases (hasks.unique h).2
    · cases h with
      | fetch h => cases (hasks.unique h).2
  · rintro (h | h)
    · cases h with
      | lapse h => exact absurd h (by decide)
    · cases h

/-- The refreshed record is lost: none of the events that may end it has happened, its deadline is an hour away,
and the look-up of the old record removes it. -/
theorem refreshed_lost :
    beforeRefresh.Asks 1 (.upsert "token:" refreshedRecord)
        (.command (.writeFields "token:k" refreshedRecord.toFields 3660)) ∧
      (beforeRefresh.shared.keyspace.execute beforeRefresh.shared.clock.instant
        (.writeFields "token:k" refreshedRecord.toFields 3660)).1 = .ok () ∧
      beforeRefresh.shared.clock.instant < deadlineOf refreshedRecord ∧
      tokenStores.Avoids (Ends "token:k" refreshedRecord)
        (tokenStores.step beforeRefresh (.serve 1 { secs := 60 })) [.serve 0 { secs := 60 }] ∧
      ¬ Holds (tokenStores.after (tokenStores.step beforeRefresh (.serve 1 { secs := 60 }))
        [.serve 0 { secs := 60 }]).shared.keyspace "token:k" refreshedRecord := by
  have hasks : (tokenStores.step beforeRefresh (.serve 1 { secs := 60 })).Asks 0 (.fetch "token:" "k")
      (.command (.remove "token:k")) := ⟨_, rfl, rfl, rfl⟩
  refine ⟨beforeRefresh_writes, rfl, by decide, ⟨trivial, ?_⟩, ?_⟩
  · intro h
    cases h with
    | upsert h => cases (hasks.unique h).1
    | delete h => cases (hasks.unique h).1
    | fetch _ hread hexpiry hexpired =>
      have hstored : readExpiry refreshedRecord.toFields = .ok { secs := 3660 } :=
        readExpiry_of_lookup (r := refreshedRecord) rfl (by decide) (by decide)
      cases hstored.symm.trans hexpiry
      -- The only reading of the clock is that at which the old record had expired.
      obtain ⟨c, hc, hread⟩ := hread
      cases hc
      rcases hread with _ | ⟨_, _ | ⟨_, hread⟩⟩
      · exact absurd hexpired (by decide)
      · cases hread
  · have hsound : tokenStores.Sound beforeRefresh := (sound_start tokenStores lapsing).after _
    exact not_holds_of_removed (hsound.step _) hasks _

end Turnstile.Remote
