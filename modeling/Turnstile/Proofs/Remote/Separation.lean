import Turnstile.Proofs.Interleaving
import Turnstile.Proofs.Rate.Counter
import Turnstile.Proofs.Remote.Records
import Turnstile.Remote.Callers
/-!
# Counters of different keys

The name of a counter tells its key and its window, although keys may hold the characters that names are put together
with. So whatever is counted for other keys, the counters of a key are spared (`counters_apart`): they stay as they
are, or are dropped once their deadline has passed. In memory it is an increment that drops them; on a server it is
the server, while increments of any number of stores go on.
-/

namespace Turnstile

/-! ### What is spared -/

/-- An entry that is left alone, unless it is dropped because it is dead. -/
inductive Spared {α : Type} (dead : α → Prop) : Option α → Option α → Prop where
  | kept (o : Option α) : Spared dead o o
  | dropped {a : α} (h : dead a) : Spared dead (some a) none

namespace Spared

variable {α : Type} {dead dead' : α → Prop} {o o' o'' : Option α}

theorem trans (h : Spared dead o o') (h' : Spared dead o' o'') : Spared dead o o'' := by
  cases h with
  | kept => exact h'
  | dropped hdead =>
    cases h' with
    | kept => exact .dropped hdead

theorem mono (h : Spared dead o o') (himp : ∀ a, dead a → dead' a) : Spared dead' o o' := by
  cases h with
  | kept => exact .kept _
  | dropped hdead => exact .dropped (himp _ hdead)

theorem of_eq (h : o' = o) : Spared dead o o' := h ▸ .kept o'

end Spared

open Time Rate

/-! ### In memory -/

namespace CounterTable

variable {stem key name : String} {t : CounterTable} {x : Increment}

theorem spared_prune (t : CounterTable) (now : Instant) (name : String) :
    Spared (fun c => c.expiresAt ≤ now) (t.get? name) ((t.prune now).get? name) := by
  rw [get?_prune]
  cases t.get? name with
  | none => exact .kept none
  | some c =>
    by_cases halive : now < c.expiresAt
    · exact .of_eq (if_pos (by simpa using halive))
    · rw [Option.filter_some, if_neg (by simpa using halive)]
      exact .dropped (not_lt.1 halive)

/-- One increment: a counter under any other name is spared, also when the increment faults. -/
theorem spared_after_cons (past : List Increment) (hname : name ≠ counterKey stem x.key x.window x.now) :
    Spared (fun c => c.expiresAt ≤ x.now) ((after stem past).get? name) ((after stem (x :: past)).get? name) := by
  have hprune := spared_prune (after stem past) x.now name
  rcases increment_cases (after stem past) stem x.now x.key x.window with ⟨-, heq⟩ | ⟨-, -, -, heq⟩ |
    ⟨ttl, dies, -, -, heq⟩
  · rw [after, heq]
    exact .kept _
  · rw [after, heq]
    exact hprune
  · rw [after, heq]
    dsimp only
    rw [Table.get?_insert_of_ne _ _ hname]
    exact hprune

/-- Any number of increments for other keys. -/
theorem spared_after (past : List Increment) {later : List Increment} (hlater : ∀ x ∈ later, x.key ≠ key)
    (window : Duration) (now : Instant) :
    Spared (fun c => ∃ x ∈ later, c.expiresAt ≤ x.now)
      ((after stem past).get? (counterKey stem key window now))
      ((after stem (later ++ past)).get? (counterKey stem key window now)) := by
  induction later with
  | nil => exact .kept _
  | cons x later ih =>
    have hname : counterKey stem key window now ≠ counterKey stem x.key x.window x.now := by
      intro heq
      exact hlater x List.mem_cons_self (counterKey_eq_iff.1 heq).1.symm
    have hbefore := ih fun y hy => hlater y (List.mem_cons_of_mem x hy)
    refine (hbefore.mono ?_).trans ((spared_after_cons (later ++ past) hname).mono ?_)
    · rintro c ⟨y, hy, hdead⟩
      exact ⟨y, List.mem_cons_of_mem x hy, hdead⟩
    · intro c hdead
      exact ⟨x, List.mem_cons_self, hdead⟩

end CounterTable

/-! ### On a server -/

namespace Remote

open Dialogue Interleaving Keyspace

variable {stem key name : String}

/-- An increment looks at a clock, and its one command counts under the name of its counter. -/
theorem asked_by_increment {window : Duration} {asked : List (Exchange Query.Answer)} {q : Query}
    {next : q.Answer → Operation (Except CounterError Int)}
    (h : Reaches (increment stem key window) asked (.ask q next)) :
    q = .clock ∨ ∃ now ttl, q = .command (.count (counterKey stem key window now) ttl) := by
  unfold increment at h
  split at h
  · exact absurd h not_reaches_done
  · rcases h.of_ask with ⟨-, rfl⟩ | ⟨now, asked, -, hlooked⟩
    · exact .inl rfl
    · split at hlooked
      · exact absurd hlooked not_reaches_done
      · next ttl _ =>
        obtain ⟨-, rfl⟩ := hlooked.of_last fun counted => by cases counted <;> exact ⟨_, rfl⟩
        exact .inr ⟨now, ttl, rfl⟩

theorem spared_lapse (k : Keyspace) (now : Instant) (dropped name : String) :
    Spared (fun slot => ∃ d, slot.deadline = some d ∧ d ≤ now) (k.get? name) ((k.lapse now dropped).get? name) := by
  rcases get?_lapse_cases k now dropped name with heq | ⟨hnone, content, deadline, hget, hpassed⟩
  · exact .of_eq heq
  · rw [hnone, hget]
    exact .dropped ⟨deadline, rfl, hpassed⟩

theorem Moment.instant_le_later (m m' : Moment) : m.instant ≤ (m.later m').instant := by
  unfold later
  split
  · next hle =>
    apply not_lt.1
    intro hlt
    exact absurd (Instant.ofMillis_lt_ofMillis_iff.1 hlt) (by omega)
  · exact le_refl _

abbrev CounterScene := State CountRequest (fun _ => Except CounterError Int) Query Query.Answer Server

abbrev CounterMove := Event CountRequest Instant Server.Act

variable {s : CounterScene}

/-- The event answers a question of an increment for a key. -/
inductive AnswersFor (key : String) (s : CounterScene) : CounterMove → Prop where
  | serve {i : Nat} {x : Instant} {r : CountRequest} {q : Query} (h : s.Asks i r q) (hkey : r.key = key) :
      AnswersFor key s (.serve i x)

/-- The deadline of a key has passed on the server. -/
def Lapsed (s : CounterScene) (slot : Slot) : Prop :=
  ∃ d, slot.deadline = some d ∧ d ≤ s.shared.clock.instant

/-- One event: a counter of a key is spared unless an increment for the key is answered. -/
theorem spared_step (hsound : (counterStores stem).Sound s) {e : CounterMove} (he : ¬ AnswersFor key s e)
    (window : Duration) (now : Instant) :
    Spared (Lapsed ((counterStores stem).step s e)) (s.shared.keyspace.get? (counterKey stem key window now))
      (((counterStores stem).step s e).shared.keyspace.get? (counterKey stem key window now)) := by
  cases e with
  | call r => exact .kept _
  | serve i x =>
    apply Spared.of_eq
    simp only [Interleaving.step]
    rcases hsound.served i x with heq | ⟨r, asked, q, hserved⟩
    · rw [heq]
    · obtain ⟨next, hreaches⟩ := hserved.reaches
      rw [hserved.shared]
      rcases asked_by_increment hreaches with rfl | ⟨reading, ttl, rfl⟩
      · rfl
      · have hname : counterKey stem r.key r.window reading ≠ counterKey stem key window now := by
          intro heq
          exact he (.serve hserved.asks (counterKey_eq_iff.1 heq).1)
        have hcommand : (Command.count (counterKey stem r.key r.window reading) ttl).key?
            ≠ some (counterKey stem key window now) := fun h => hname (Option.some.inj h)
        exact get?_execute_of_ne _ _ _ hcommand
  | act w =>
    cases w with
    | pass moment => exact .kept _
    | lapse dropped => exact spared_lapse s.shared.keyspace s.shared.clock.instant dropped _

/-- What has lapsed once has lapsed for good. -/
theorem Lapsed.step {slot : Slot} (h : Lapsed s slot) (e : CounterMove) :
    Lapsed ((counterStores stem).step s e) slot := by
  obtain ⟨d, hd, hpassed⟩ := h
  have hclock : s.shared.clock.instant ≤ ((counterStores stem).step s e).shared.clock.instant := by
    cases e with
    | call r => exact le_refl _
    | serve i x =>
      simp only [Interleaving.step]
      rcases (counterStores stem).serve_cases s i x with heq | ⟨c, q, next, -, -, heq⟩
      · rw [heq]
      · rw [heq]
        cases q <;> exact le_refl _
    | act w =>
      cases w with
      | pass moment => exact s.shared.clock.instant_le_later moment
      | lapse dropped => exact le_refl _
  exact ⟨d, hd, hpassed.trans hclock⟩

/-- Any number of events in which no increment for a key is answered. -/
theorem spared_events (hsound : (counterStores stem).Sound s) {later : List CounterMove}
    (hlater : (counterStores stem).Avoids (AnswersFor key) s later) (window : Duration) (now : Instant) :
    Spared (Lapsed ((counterStores stem).after s later))
      (s.shared.keyspace.get? (counterKey stem key window now))
      (((counterStores stem).after s later).shared.keyspace.get? (counterKey stem key window now)) := by
  refine keeps (m := counterStores stem) (P := fun s' => Spared (Lapsed s')
    (s.shared.keyspace.get? (counterKey stem key window now))
    (s'.shared.keyspace.get? (counterKey stem key window now))) hsound (.kept _) ?_ hlater
  intro s' e hsound' hspared he
  exact (hspared.mono fun slot hlapsed => hlapsed.step e).trans (spared_step hsound' he window now)

/-! ### Both stores -/

/-- A scene that has come about on some server by calls to counter stores under one stem. -/
def Arises (stem : String) (s : CounterScene) : Prop :=
  ∃ server past, s = (counterStores stem).after { shared := server } past

theorem Arises.sound (h : Arises stem s) : (counterStores stem).Sound s := by
  obtain ⟨server, past, rfl⟩ := h
  exact (sound_start (counterStores stem) server).after past

/-- **Counters of different keys are apart.** Two counters under one stem have one name just if they count one key in
windows with one start, whatever characters the keys hold and however long the windows are. While nothing is counted
for a key, its counters are spared, in memory and on a server that any number of stores count on. -/
theorem counters_apart (stem key : String) :
    (∀ (key' : String) (window window' : Duration) (now now' : Instant),
      counterKey stem key window now = counterKey stem key' window' now' ↔
        key = key' ∧ windowStart now window = windowStart now' window') ∧
    (∀ past later : List CounterTable.Increment, (∀ x ∈ later, x.key ≠ key) →
      ∀ (window : Duration) (now : Instant),
        Spared (fun c => ∃ x ∈ later, c.expiresAt ≤ x.now)
          ((CounterTable.after stem past).get? (counterKey stem key window now))
          ((CounterTable.after stem (later ++ past)).get? (counterKey stem key window now))) ∧
    ∀ (s : CounterScene) (later : List CounterMove),
      Arises stem s → (counterStores stem).Avoids (AnswersFor key) s later →
        ∀ (window : Duration) (now : Instant),
          Spared (Lapsed ((counterStores stem).after s later))
            (s.shared.keyspace.get? (counterKey stem key window now))
            (((counterStores stem).after s later).shared.keyspace.get? (counterKey stem key window now)) := by
  refine ⟨?_, ?_, ?_⟩
  · intro key' window window' now now'
    exact counterKey_eq_iff
  · intro past later hlater window now
    exact CounterTable.spared_after past hlater window now
  · intro s later harises havoids window now
    exact spared_events harises.sound havoids window now

/-- A key is counted once. -/
def countedOnce (key : String) : CounterTable.Increment := ⟨{ secs := 7 }, key, .ofSecs 60⟩

/-- A key is counted once by a call with a number. -/
def countedBy (i : Nat) (key : String) : List CounterMove :=
  [.serve i { secs := 7 }, .serve i { secs := 7 }, .call ⟨key, .ofSecs 60⟩]

/-- A server on which a key has been counted. -/
def countedScene : CounterScene :=
  (counterStores "req_limit:").after { shared := { clock := { millis := 7000 } } } (countedBy 0 "k")

/-- A counter is spared while a key is counted that reads like the name of it. -/
theorem colonKey_apart :
    counterKey "req_limit:" "k" (.ofSecs 60) { secs := 7 } ≠ counterKey "req_limit:" "k:0" (.ofSecs 60) { secs := 7 } ∧
      Spared (fun c => ∃ x ∈ [countedOnce "k:0"], c.expiresAt ≤ x.now)
        ((CounterTable.after "req_limit:" [countedOnce "k"]).get?
          (counterKey "req_limit:" "k" (.ofSecs 60) { secs := 7 }))
        ((CounterTable.after "req_limit:" [countedOnce "k:0", countedOnce "k"]).get?
          (counterKey "req_limit:" "k" (.ofSecs 60) { secs := 7 })) ∧
      Spared (Lapsed ((counterStores "req_limit:").after countedScene (countedBy 1 "k:0")))
        (countedScene.shared.keyspace.get? (counterKey "req_limit:" "k" (.ofSecs 60) { secs := 7 }))
        (((counterStores "req_limit:").after countedScene (countedBy 1 "k:0")).shared.keyspace.get?
          (counterKey "req_limit:" "k" (.ofSecs 60) { secs := 7 })) := by
  obtain ⟨hnames, hmemory, hserver⟩ := counters_apart "req_limit:" "k"
  have havoids : (counterStores "req_limit:").Avoids (AnswersFor "k") countedScene (countedBy 1 "k:0") := by
    refine ⟨⟨⟨trivial, ?_⟩, ?_⟩, ?_⟩
    · rintro ⟨⟩
    · rintro ⟨⟨c, hc, rfl, -⟩, hkey⟩
      cases hc
      exact absurd hkey (by decide)
    · rintro ⟨⟨c, hc, rfl, -⟩, hkey⟩
      cases hc
      exact absurd hkey (by decide)
  refine ⟨?_, ?_, ?_⟩
  · intro heq
    exact absurd ((hnames _ _ _ _ _).1 heq).1 (by decide)
  · exact hmemory [countedOnce "k"] [countedOnce "k:0"] (by decide) (.ofSecs 60) { secs := 7 }
  · exact hserver countedScene (countedBy 1 "k:0") ⟨_, _, rfl⟩ havoids (.ofSecs 60) { secs := 7 }

end Remote

end Turnstile
