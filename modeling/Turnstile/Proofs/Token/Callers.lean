import Turnstile.Proofs.Interleaving
import Turnstile.Proofs.Token.Memory
import Turnstile.Token.Callers
/-!
# Records that are refreshed in time

A record that has been put into the store stays there until it is put aside on purpose or has expired, however
many look-ups of an older record are still under way (`kept_until_ended`). A call that nobody interrupts does
what the store's operation does (`run_fetch`, `run_upsert`, `run_delete`).
-/

namespace Turnstile.TokenTable

open Time Dialogue Interleaving

variable {t : TokenTable} {now : Instant} {key : String} {r : TokenRecord}

/-! ### Calls that nobody interrupts -/

/-- Answers from the store alone, at an instant. -/
def answerAt (now : Instant) (q : Step) (t : TokenTable) : Except Empty (q.Answer × TokenTable) :=
  .ok (answer now q t)

theorem run_fetch (t : TokenTable) (now : Instant) (key : String) :
    (program (.fetch key)).run (answerAt now) t = .ok (t.fetch now key) := by
  by_cases hempty : key.isEmpty = true
  · simp only [program, fetch, hempty, if_true, Dialogue.run]
  · simp only [program, fetch, hempty, Bool.false_eq_true, if_false, Dialogue.run, answerAt, answer]
    cases t.get? key with
    | none => rfl
    | some r =>
      by_cases hexpired : r.isExpiredAt now = true
      · simp only [hexpired, if_true, Dialogue.run, answerAt, answer]
      · simp only [hexpired, Bool.false_eq_true, if_false, Dialogue.run]

theorem run_upsert (t : TokenTable) (now : Instant) (r : TokenRecord) :
    (program (.upsert r)).run (answerAt now) t = .ok (t.upsert now r) := by
  simp only [program, upsert, Dialogue.run, answerAt, answer]
  cases r.check now with
  | error e => rfl
  | ok _ => rfl

theorem run_delete (t : TokenTable) (now : Instant) (key : String) :
    (program (.delete key)).run (answerAt now) t = .ok (t.delete key) := by
  by_cases hempty : key.isEmpty = true
  · simp only [program, delete, hempty, if_true, Dialogue.run]
  · simp only [program, delete, hempty, Bool.false_eq_true, if_false, Dialogue.run, answerAt, answer]

/-! ### What a call asks -/

/-- The questions of a request, each with what has been answered before. -/
inductive Comes : Request → List (Exchange Step.Answer) → Step → Prop where
  | find (key : String) : Comes (.fetch key) [] (.find key)
  | age (key : String) (found : Option TokenRecord) : Comes (.fetch key) [⟨.find key, found⟩] .clock
  | dropExpired (key : String) (found : TokenRecord) (now : Instant) (h : found.isExpiredAt now = true) :
      Comes (.fetch key) [⟨.find key, some found⟩, ⟨.clock, now⟩] (.dropExpired key now)
  | check (r : TokenRecord) : Comes (.upsert r) [] .clock
  | put (r : TokenRecord) (now : Instant) (h : r.check now = .ok ()) : Comes (.upsert r) [⟨.clock, now⟩] (.put r)
  | remove (key : String) : Comes (.delete key) [] (.remove key)

section Questions

variable {asked : List (Exchange Step.Answer)} {q : Step}

theorem comes_of_fetch {next : q.Answer → Dialogue Step Step.Answer (Except StoreError TokenRecord)}
    (h : Reaches (program (.fetch key)) asked (.ask q next)) : Comes (.fetch key) asked q := by
  simp only [program] at h
  split at h
  · exact absurd h not_reaches_done
  · rcases h.of_ask with ⟨rfl, rfl⟩ | ⟨found, asked, rfl, hfound⟩
    · exact .find key
    · rcases hfound.of_ask with ⟨rfl, rfl⟩ | ⟨now, asked, rfl, hread⟩
      · exact .age key found
      · cases found with
        | none => exact absurd hread not_reaches_done
        | some r =>
          dsimp only at hread
          split at hread
          · next hexpired =>
            obtain ⟨rfl, rfl⟩ := hread.of_last fun _ => ⟨_, rfl⟩
            exact .dropExpired key r now hexpired
          · exact absurd hread not_reaches_done

theorem comes_of_upsert {next : q.Answer → Dialogue Step Step.Answer (Except StoreError Unit)}
    (h : Reaches (program (.upsert r)) asked (.ask q next)) : Comes (.upsert r) asked q := by
  simp only [program] at h
  rcases h.of_ask with ⟨rfl, rfl⟩ | ⟨now, asked, rfl, hread⟩
  · exact .check r
  · split at hread
    · exact absurd hread not_reaches_done
    · next hcheck =>
      obtain ⟨rfl, rfl⟩ := hread.of_last fun _ => ⟨_, rfl⟩
      exact .put r now hcheck

theorem comes_of_delete {next : q.Answer → Dialogue Step Step.Answer (Except StoreError Unit)}
    (h : Reaches (program (.delete key)) asked (.ask q next)) : Comes (.delete key) asked q := by
  simp only [program] at h
  split at h
  · exact absurd h not_reaches_done
  · obtain ⟨rfl, rfl⟩ := h.of_last fun _ => ⟨_, rfl⟩
    exact .remove key

theorem comes_of_reaches {request : Request} {next : q.Answer → Dialogue Step Step.Answer request.Answer}
    (h : Reaches (program request) asked (.ask q next)) : Comes request asked q := by
  cases request with
  | fetch key => exact comes_of_fetch h
  | upsert r => exact comes_of_upsert h
  | delete key => exact comes_of_delete h

end Questions

/-! ### What ends a record -/

abbrev Scene := State Request Request.Answer Step Step.Answer TokenTable

abbrev Move := Event Request Instant Empty

/-- The events that may put a record aside: another record is put under its key, its key is deleted, or a
look-up of its key drops it at a reading of the clock at which it has expired. -/
inductive Ends (r : TokenRecord) (s : Scene) : Move → Prop where
  | upsert {i : Nat} {x : Instant} {r' : TokenRecord} (h : s.Asks i (.upsert r') (.put r'))
      (hkey : r'.apiKey = r.apiKey) : Ends r s (.serve i x)
  | delete {i : Nat} {x : Instant} (h : s.Asks i (.delete r.apiKey) (.remove r.apiKey)) : Ends r s (.serve i x)
  | fetch {i : Nat} {x now : Instant} (h : s.Asks i (.fetch r.apiKey) (.dropExpired r.apiKey now))
      (hread : s.Heard i ⟨.clock, now⟩) (hexpired : r.expiresAt ≤ now) : Ends r s (.serve i x)

theorem get?_dropExpired_of_ne {key' : String} (h : key ≠ key') :
    (t.dropExpired key' now).get? key = t.get? key := by
  unfold dropExpired
  split
  · split
    · exact Table.get?_erase_of_ne t h
    · rfl
  · rfl

/-- A look under the lock that is held alone spares a record that is alive by then. -/
theorem dropExpired_of_alive (hget : t.get? key = some r) (halive : now < r.expiresAt) :
    t.dropExpired key now = t := by
  have hexpired : r.isExpiredAt now = false := by simpa [TokenRecord.isExpiredAt] using halive
  simp [dropExpired, hget, hexpired]

/-- An event that does not end a record leaves it where it is. -/
theorem get?_step {s : Scene} {e : Move} (hsound : callers.Sound s) (hget : s.shared.get? r.apiKey = some r)
    (hends : ¬ Ends r s e) : (callers.step s e).shared.get? r.apiKey = some r := by
  cases e with
  | call request => exact hget
  | act w => exact w.elim
  | serve i x =>
    show (callers.serve s i x).shared.get? r.apiKey = some r
    rcases hsound.served i x with heq | ⟨request, asked, q, hserved⟩
    · rwa [heq]
    · rw [hserved.shared]
      have hasks := hserved.asks
      obtain ⟨next, hreaches⟩ := hserved.reaches
      cases comes_of_reaches hreaches with
      | find key => exact hget
      | age key found => exact hget
      | check r' => exact hget
      | dropExpired key found now h =>
        show (s.shared.dropExpired key now).get? r.apiKey = some r
        by_cases hkey : r.apiKey = key
        · subst hkey
          have hread : s.Heard i ⟨.clock, now⟩ := hserved.heard _ (by simp)
          have halive : now < r.expiresAt := not_le.1 fun hexpired => hends (.fetch hasks hread hexpired)
          rwa [dropExpired_of_alive hget halive]
        · rwa [get?_dropExpired_of_ne hkey]
      | put r' now h =>
        have hkey : r.apiKey ≠ r'.apiKey := fun hkey => hends (.upsert hasks hkey.symm)
        exact (Table.get?_insert_of_ne s.shared r' hkey).trans hget
      | remove key =>
        have hkey : r.apiKey ≠ key := by
          rintro rfl
          exact hends (.delete hasks)
        exact (Table.get?_erase_of_ne s.shared hkey).trans hget

/-- **A refreshed record is kept**: once a call has put a record into the store, it is there until one of the
events that may put it aside, whatever calls there are, however they interleave and whatever clocks show. -/
theorem kept_until_ended {past later : List Move} {i : Nat} {x : Instant}
    (hput : (callers.after { shared := t } past).Asks i (.upsert r) (.put r))
    (hlater : callers.Avoids (Ends r) (callers.after { shared := t } (.serve i x :: past)) later) :
    (callers.after (callers.after { shared := t } (.serve i x :: past)) later).shared.get? r.apiKey
      = some r := by
  have hsound : callers.Sound (callers.after { shared := t } past) := (sound_start callers t).after past
  obtain ⟨asked, hserved⟩ := hsound.served_of_asks hput x
  have hstart : (callers.after { shared := t } (.serve i x :: past)).shared.get? r.apiKey = some r :=
    (congrArg (Table.get? · r.apiKey) hserved.shared).trans (Table.get?_insert_self _ r.apiKey r)
  exact keeps (hsound.step _) hstart (fun s e => get?_step) hlater

def lapsed : TokenRecord := { apiKey := "k", rateLimit := 1, expiresAt := { secs := 20 } }

def refreshed : TokenRecord := { apiKey := "k", rateLimit := 1, expiresAt := { secs := 100 } }

/-- A look-up has found the lapsed record and read the clock when another call is about to put the refreshed
one. -/
def pendingDrop : List Move :=
  [.serve 1 { secs := 20 }, .call (.upsert refreshed), .serve 0 { secs := 20 }, .serve 0 { secs := 20 },
    .call (.fetch "k")]

/-- The look-up drops what has expired only then, and spares the refreshed record. -/
theorem refreshed_kept :
    (callers.after (callers.after { shared := (∅ : TokenTable).insert "k" lapsed }
      (.serve 1 { secs := 20 } :: pendingDrop)) [.serve 0 { secs := 20 }]).shared.get? "k"
        = some refreshed := by
  have hasks : (callers.after { shared := (∅ : TokenTable).insert "k" lapsed }
      (.serve 1 { secs := 20 } :: pendingDrop)).Asks 0 (.fetch "k") (.dropExpired "k" { secs := 20 }) :=
    ⟨_, rfl, rfl, rfl⟩
  refine kept_until_ended (r := refreshed) ⟨_, rfl, rfl, rfl⟩ ⟨trivial, ?_⟩
  intro h
  cases h with
  | upsert h _ => cases (hasks.unique h).1
  | delete h => cases (hasks.unique h).1
  | fetch h _ hexpired =>
    cases (hasks.unique h).2
    exact absurd hexpired (by decide)

end Turnstile.TokenTable
