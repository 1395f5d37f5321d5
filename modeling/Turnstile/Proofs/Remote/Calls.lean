import Turnstile.Proofs.Interleaving
import Turnstile.Proofs.Remote.Keyspace
import Turnstile.Remote.Fleet
/-!
# Calls on one server

However the calls of any number of gateways are interleaved and given up, a call has been refused, has yet
to look at the clock, has sent its command or has been answered by a count of its own, and the server holds
counters only. `Sound` says so of a state, and every event preserves it.
-/

namespace Turnstile.Remote.Fleet

open Time Rate

variable {f : Fleet} {s : State}

/-! ### What a call asks -/

/-- The lifetime of a counter in milliseconds. -/
def ttl (f : Fleet) : Nat := f.windowSecs * 1000 + 1000

def nameOf (f : Fleet) (key : String) (now : Instant) : String := counterKey f.stem key f.window now

/-- What is left to be done when the server has replied. -/
def replied (f : Fleet) (key name : String) : Except String Int → Operation (Except RateLimitError Bool)
  | .ok n => .done (.ok (decide (n ≤ f.limit key)))
  | .error reason => .done (.error (.counter (.backend ("INCR " ++ name ++ ": " ++ reason))))

/-- What is left to be done when the clock has been looked at. -/
def sent (f : Fleet) (key : String) (now : Instant) : Operation (Except RateLimitError Bool) :=
  .ask (.command (.count (f.nameOf key now) f.ttl)) (f.replied key (f.nameOf key now))

theorem window_ne_zero (f : Fleet) : f.window ≠ .zero := by
  intro h
  have hsecs : f.windowSecs = 0 := congrArg Duration.secs h
  have hpos := f.windowSecs_pos
  omega

theorem ttlMillis?_window (f : Fleet) : ttlMillis? f.window = some f.ttl := by
  have hle := f.windowSecs_le
  have httl : (counterTtl f.window).toMillis = f.ttl := by
    have hshort : ¬ Text.maxNat64 < f.windowSecs + 1 := by
      unfold Text.maxNat64
      omega
    simp [counterTtl, window, ttlPadding, Duration.ofSecs, Duration.saturatingAdd, hshort, Duration.toMillis,
      ttl]
    omega
  have hfits : ¬ Text.maxInt64 < f.ttl := by
    unfold Text.maxInt64 ttl
    omega
  simp [ttlMillis?, httl, f.window_ne_zero, hfits]

/-- A call that is not refused at once looks at the clock and sends its command. -/
theorem allow_eq (f : Fleet) (key : String) :
    allow f.stem f.window key (f.limit key) = .ask .clock (f.sent key) ∨
      ∃ e, allow f.stem f.window key (f.limit key) = .done (.error e) := by
  cases hcheck : checkRequest key (f.limit key) with
  | error e => exact .inr ⟨e, by simp only [allow, hcheck]⟩
  | ok u =>
    refine .inl ?_
    simp only [allow, hcheck, increment, f.window_ne_zero, if_false, ttlMillis?_window]
    refine congrArg (Dialogue.ask Query.clock) (funext fun now => ?_)
    refine congrArg (Dialogue.ask (Query.command (.count (f.nameOf key now) f.ttl))) (funext fun reply => ?_)
    cases reply with
    | ok n => rfl
    | error reason => rfl

/-! ### Calls and the counts that answer them -/

/-- The call has been answered by a count under the name that it asked for. -/
def AnsweredBy (f : Fleet) (c : Call) (x : Count) : Prop :=
  c.rest = .done (.ok (decide (x.reply ≤ f.limit c.key))) ∧ ∃ now, x.name = f.nameOf c.key now

/-- How far a call has come. -/
inductive Stage (f : Fleet) (counts : List Count) (i : Nat) (c : Call) : Prop
  | refused (e : RateLimitError) (h : c.rest = .done (.error e))
  | begun (h : c.rest = .ask .clock (f.sent c.key))
  | sent (now : Instant) (h : c.rest = f.sent c.key now)
  | answered (x : Count) (hx : x ∈ counts) (hcall : x.call = i) (h : f.AnsweredBy c x)

structure Sound (f : Fleet) (s : State) : Prop where
  counters : ∀ name slot, s.keyspace.get? name = some slot → ∃ n, 1 ≤ n ∧ slot.content = .count n
  calls : ∀ (i : Nat) (c : Call), s.calls[i]? = some c → Stage f s.counts i c
  counts : ∀ x ∈ s.counts, ∃ c : Call, s.calls[x.call]? = some c ∧ f.AnsweredBy c x
  endings : ∀ (i : Nat) (c : Call), s.calls[i]? = some c → ∀ a, c.ending = some (.finished a) →
    c.rest = .done a

theorem Stage.mono {counts counts' : List Count} {i : Nat} {c : Call} (h : Stage f counts i c)
    (hsub : ∀ x ∈ counts, x ∈ counts') : Stage f counts' i c := by
  cases h with
  | refused e h => exact .refused e h
  | begun h => exact .begun h
  | sent now h => exact .sent now h
  | answered x hx hcall h => exact .answered x (hsub x hx) hcall h

/-! ### Events at the gateways -/

/-- What is done to calls by the gateways themselves: an answer that has come stays. -/
structure Local (f : Fleet) (act : Call → Call) : Prop where
  stage : ∀ counts i c, Stage f counts i c → Stage f counts i (act c)
  answered : ∀ c x, f.AnsweredBy c x → f.AnsweredBy (act c) x
  ending : ∀ c : Call, (∀ a, c.ending = some (.finished a) → c.rest = .done a) →
    ∀ a, (act c).ending = some (.finished a) → (act c).rest = .done a

theorem look_cases (now : Instant) (c : Call) :
    c.look now = c ∨ ∃ next, c.ending = none ∧ c.rest = .ask .clock next ∧
      c.look now = { c with rest := next now } := by
  unfold Call.look
  split
  · next next hending hrest => exact .inr ⟨next, hending, hrest, rfl⟩
  · exact .inl rfl

theorem local_look (f : Fleet) (now : Instant) : Local f (Call.look now) where
  stage counts i c h := by
    rcases look_cases now c with heq | ⟨next, -, hrest, heq⟩
    · rwa [heq]
    · rw [heq]
      cases h with
      | refused e h => cases hrest.symm.trans h
      | begun h =>
        cases hrest.symm.trans h
        exact .sent now rfl
      | sent now' h => cases hrest.symm.trans h
      | answered x hx hcall h => cases hrest.symm.trans h.1
  answered c x h := by
    rcases look_cases now c with heq | ⟨next, -, hrest, -⟩
    · rwa [heq]
    · cases hrest.symm.trans h.1
  ending c h a ha := by
    rcases look_cases now c with heq | ⟨next, hending, -, heq⟩
    · rw [heq] at ha ⊢
      exact h a ha
    · rw [heq] at ha
      cases hending.symm.trans ha

/-- What only ends calls leaves what they have to do alone. -/
theorem local_of_rest {act : Call → Call} (hrest : ∀ c, (act c).rest = c.rest)
    (hkey : ∀ c, (act c).key = c.key)
    (hending : ∀ (c : Call) a, (act c).ending = some (.finished a) →
      c.ending = some (.finished a) ∨ c.rest = .done a) : Local f act where
  stage counts i c h := by
    cases h with
    | refused e h => exact .refused e (by rw [hrest, h])
    | begun h => exact .begun (by rw [hrest, hkey, h])
    | sent now h => exact .sent now (by rw [hrest, hkey, h])
    | answered x hx hcall h => exact .answered x hx hcall (by unfold AnsweredBy; rwa [hrest, hkey])
  answered c x h := by
    unfold AnsweredBy
    rwa [hrest, hkey]
  ending c h a ha := by
    rw [hrest]
    rcases hending c a ha with hended | hdone
    · exact h a hended
    · exact hdone

theorem local_finish (f : Fleet) : Local f Call.finish := by
  refine local_of_rest ?_ ?_ ?_
  · intro c
    unfold Call.finish
    split <;> rfl
  · intro c
    unfold Call.finish
    split <;> rfl
  · intro c a ha
    unfold Call.finish at ha
    split at ha
    · next answer hending hdone =>
      cases ha
      exact .inr hdone
    · exact .inl ha

theorem local_giveUp (f : Fleet) : Local f Call.giveUp := by
  refine local_of_rest ?_ ?_ ?_
  · intro c
    unfold Call.giveUp
    split <;> rfl
  · intro c
    unfold Call.giveUp
    split <;> rfl
  · intro c a ha
    unfold Call.giveUp at ha
    split at ha
    · cases ha
    · exact .inl ha

theorem of_getElem?_modify {α : Type} {l : List α} {act : α → α} {i j : Nat} {b : α}
    (h : (l.modify i act)[j]? = some b) :
    (i ≠ j ∧ l[j]? = some b) ∨ (i = j ∧ ∃ a, l[j]? = some a ∧ b = act a) := by
  rw [List.getElem?_modify] at h
  obtain ⟨a, ha, h⟩ := Option.map_eq_some_iff.1 h
  split at h
  · next hi =>
    cases h
    exact .inr ⟨hi, a, ha, rfl⟩
  · next hi =>
    cases h
    exact .inl ⟨hi, ha⟩

theorem Sound.modify (h : Sound f s) {act : Call → Call} (hact : Local f act) (i : Nat) :
    Sound f { s with calls := s.calls.modify i act } where
  counters := h.counters
  calls j c hc := by
    rcases of_getElem?_modify hc with ⟨-, hc⟩ | ⟨-, c₀, hc₀, rfl⟩
    · exact h.calls j c hc
    · exact hact.stage _ _ _ (h.calls j c₀ hc₀)
  counts x hx := by
    obtain ⟨c, hc, hanswered⟩ := h.counts x hx
    dsimp only
    rw [List.getElem?_modify, hc]
    by_cases hi : i = x.call
    · exact ⟨act c, by simp [hi], hact.answered c x hanswered⟩
    · exact ⟨c, by simp [hi], hanswered⟩
  endings j c hc := by
    rcases of_getElem?_modify hc with ⟨-, hc⟩ | ⟨-, c₀, hc₀, rfl⟩
    · exact h.endings j c hc
    · exact hact.ending c₀ (h.endings j c₀ hc₀)

theorem Sound.call (h : Sound f s) (key : String) : Sound f (f.step s (.call key)) where
  counters := h.counters
  calls i c hc := by
    rcases eq_of_getElem?_snoc hc with hc | rfl
    · exact h.calls i c hc
    · rcases f.allow_eq key with heq | ⟨e, heq⟩
      · exact .begun heq
      · exact .refused e heq
  counts x hx := by
    obtain ⟨c, hc, hanswered⟩ := h.counts x hx
    obtain ⟨hlt, -⟩ := List.getElem?_eq_some_iff.1 hc
    exact ⟨c, (List.getElem?_append_left hlt).trans hc, hanswered⟩
  endings i c hc a ha := by
    rcases eq_of_getElem?_snoc hc with hc | rfl
    · exact h.endings i c hc a ha
    · cases ha

/-! ### Events at the server -/

/-- The numbers and deadlines that a count can leave under a name. -/
def Bumps (f : Fleet) (s : State) (name : String) (n : Int) (deadline : Option Instant) : Prop :=
  (s.keyspace.get? name = none ∧ n = 1 ∧ deadline = some (.ofMillis (s.clock.millis + f.ttl))) ∨
    ∃ m, s.keyspace.get? name = some { content := .count m, deadline } ∧ 1 ≤ m ∧ n = m + 1

/-- The state in which a call has been answered by a count. -/
def counted (f : Fleet) (s : State) (i : Nat) (key name : String) (n : Int) (deadline : Option Instant) :
    State where
  clock := s.clock
  keyspace := s.keyspace.insert name { content := .count n, deadline }
  calls := s.calls.modify i fun c => { c with rest := .done (.ok (decide (n ≤ f.limit key))) }
  counts := s.counts ++ [{ call := i, name, moment := s.clock, reply := n }]

theorem deadline_le_maxInt64 (f : Fleet) (m : Moment) : m.millis + f.ttl ≤ Text.maxInt64 := by
  have hcalendar := m.inCalendar
  have hle := f.windowSecs_le
  obtain ⟨hdiv, -, hmod⟩ := fdiv_fmod_spec m.millis (show (0 : Int) < 1000 by decide)
  simp only [Instant.inCalendar, Bool.and_eq_true, decide_eq_true_eq] at hcalendar
  obtain ⟨-, hmax⟩ := hcalendar
  unfold Instant.maxSecs at hmax
  simp only [ttl, Text.maxInt64]
  omega

theorem serve_of_command {i : Nat} {c : Call} {command : Command}
    {next : Except String command.Reply → Operation (Except RateLimitError Bool)}
    (hc : s.calls[i]? = some c) (hrest : c.rest = .ask (.command command) next) :
    s.serve i =
      (let (reply, keyspace) := s.keyspace.execute s.clock.instant command
       { s with
          keyspace
          calls := s.calls.modify i fun c' => { c' with rest := next reply }
          counts := s.counts ++ Count.of i s.clock command reply }) := by
  obtain ⟨key, rest, ending⟩ := c
  dsimp only at hrest
  subst hrest
  simp only [State.serve, hc]

theorem serve_of_no_command {i : Nat}
    (h : ∀ c : Call, s.calls[i]? = some c → ∀ command next, c.rest ≠ .ask (.command command) next) :
    s.serve i = s := by
  unfold State.serve
  split
  · next hc => exact absurd rfl (h _ hc _ _)
  · rfl

/-- The server answers a call by a count, or refuses to count, or there is nothing to serve. -/
theorem Sound.serve_cases (h : Sound f s) (i : Nat) :
    s.serve i = s ∨ ∃ c now, s.calls[i]? = some c ∧ c.rest = f.sent c.key now ∧
      ((∃ n deadline, Bumps f s (f.nameOf c.key now) n deadline ∧
          s.serve i = f.counted s i c.key (f.nameOf c.key now) n deadline) ∨
        ∃ e, s.serve i = { s with calls := s.calls.modify i fun c' => { c' with rest := .done (.error e) } }) := by
  by_cases hsent : ∃ c now, s.calls[i]? = some c ∧ c.rest = f.sent c.key now
  · obtain ⟨c, now, hc, hrest⟩ := hsent
    have heq := serve_of_command hc hrest
    refine .inr ⟨c, now, hc, hrest, ?_⟩
    rcases hslot : s.keyspace.get? (f.nameOf c.key now) with _ | ⟨content, deadline⟩
    · refine .inl ⟨1, _, .inl ⟨hslot, rfl, rfl⟩, ?_⟩
      have hpos : 0 < f.ttl := Nat.succ_pos _
      rw [heq, Moment.instant, Keyspace.execute_count_of_none hslot hpos (deadline_le_maxInt64 f s.clock)]
      rfl
    · obtain ⟨n, hpos, hn⟩ := h.counters _ _ hslot
      cases hn
      by_cases hfull : n < Text.maxInt64
      · refine .inl ⟨n + 1, deadline, .inr ⟨n, hslot, hpos, rfl⟩, ?_⟩
        rw [heq, Keyspace.execute_count_of_some hslot hpos hfull]
        rfl
      · refine .inr ⟨.counter (.backend ("INCR " ++ f.nameOf c.key now ++ ": " ++ Keyspace.overflow)), ?_⟩
        rw [heq, Keyspace.execute_count_of_full hslot hfull]
        simp [Count.of, replied]
  · refine .inl (serve_of_no_command fun c hc command next hrest => ?_)
    cases h.calls i c hc with
    | refused e h => cases hrest.symm.trans h
    | begun h => cases hrest.symm.trans h
    | sent now h => exact hsent ⟨c, now, hc, h⟩
    | answered x hx hcall h => cases hrest.symm.trans h.1

/-- The answer of the server to a call that had sent its command. -/
theorem Sound.reply (h : Sound f s) {i : Nat} {c : Call} {now : Instant} (hc : s.calls[i]? = some c)
    (hrest : c.rest = f.sent c.key now) {keyspace : Keyspace} {answer : Except RateLimitError Bool}
    (new : List Count)
    (hcounters : ∀ name slot, keyspace.get? name = some slot → ∃ n, 1 ≤ n ∧ slot.content = .count n)
    (hstage : Stage f (s.counts ++ new) i { c with rest := .done answer })
    (hnew : ∀ x ∈ new, x.call = i ∧ f.AnsweredBy { c with rest := .done answer } x) :
    Sound f { s with
      keyspace
      calls := s.calls.modify i fun c' => { c' with rest := .done answer }
      counts := s.counts ++ new } where
  counters := hcounters
  calls j c' hc' := by
    rcases of_getElem?_modify hc' with ⟨-, hc'⟩ | ⟨rfl, c₀, hc₀, rfl⟩
    · exact (h.calls j c' hc').mono fun x hx => List.mem_append_left _ hx
    · cases hc.symm.trans hc₀
      exact hstage
  counts x hx := by
    dsimp only
    rw [List.getElem?_modify]
    rcases List.mem_append.1 hx with hx | hx
    · obtain ⟨c₀, hc₀, hanswered⟩ := h.counts x hx
      -- An answered call has no command left, so it is not the one that is served.
      have hi : i ≠ x.call := by
        rintro rfl
        cases hc.symm.trans hc₀
        cases hrest.symm.trans hanswered.1
      exact ⟨c₀, by simp [hc₀, hi], hanswered⟩
    · obtain ⟨rfl, hanswered⟩ := hnew x hx
      exact ⟨_, by simp [hc], hanswered⟩
  endings j c' hc' a ha := by
    rcases of_getElem?_modify hc' with ⟨-, hc'⟩ | ⟨rfl, c₀, hc₀, rfl⟩
    · exact h.endings j c' hc' a ha
    · cases hc.symm.trans hc₀
      cases hrest.symm.trans (h.endings i c hc a ha)

theorem Bumps.pos {name : String} {n : Int} {deadline : Option Instant} (h : Bumps f s name n deadline) :
    1 ≤ n := by
  rcases h with ⟨-, rfl, -⟩ | ⟨m, -, hpos, rfl⟩
  · exact Int.le_refl 1
  · omega

theorem Sound.counted (h : Sound f s) {i : Nat} {c : Call} {now : Instant} (hc : s.calls[i]? = some c)
    (hrest : c.rest = f.sent c.key now) {n : Int} {deadline : Option Instant}
    (hbumps : Bumps f s (f.nameOf c.key now) n deadline) :
    Sound f (f.counted s i c.key (f.nameOf c.key now) n deadline) := by
  have hanswered : f.AnsweredBy { c with rest := .done (.ok (decide (n ≤ f.limit c.key))) }
      { call := i, name := f.nameOf c.key now, moment := s.clock, reply := n } := ⟨rfl, now, rfl⟩
  refine h.reply hc hrest _ ?_ ?_ ?_
  · intro name slot hslot
    by_cases hname : name = f.nameOf c.key now
    · subst hname
      rw [Table.get?_insert_self] at hslot
      cases hslot
      exact ⟨n, hbumps.pos, rfl⟩
    · rw [Table.get?_insert_of_ne _ _ hname] at hslot
      exact h.counters name slot hslot
  · exact .answered _ (List.mem_append_right _ List.mem_cons_self) rfl hanswered
  · intro x hx
    cases List.mem_singleton.1 hx
    exact ⟨rfl, hanswered⟩

theorem Sound.serve (h : Sound f s) (i : Nat) : Sound f (s.serve i) := by
  rcases h.serve_cases i with heq | ⟨c, now, hc, hrest, ⟨n, deadline, hbumps, heq⟩ | ⟨e, heq⟩⟩
  · rwa [heq]
  · rw [heq]
    exact h.counted hc hrest hbumps
  · rw [heq]
    have hreply := h.reply hc hrest [] h.counters (.refused e rfl) (by simp)
    rwa [List.append_nil] at hreply

theorem Sound.lapse (h : Sound f s) (name : String) : Sound f (f.step s (.lapse name)) where
  counters _ slot hslot := h.counters _ slot (Keyspace.get?_of_get?_lapse hslot)
  calls := h.calls
  counts := h.counts
  endings := h.endings

theorem Sound.step (h : Sound f s) (e : Event) : Sound f (f.step s e) := by
  cases e with
  | call key => exact h.call key
  | look i now => exact h.modify (local_look f now) i
  | serve i => exact h.serve i
  | finish i => exact h.modify (local_finish f) i
  | giveUp i => exact h.modify (local_giveUp f) i
  | pass moment => exact ⟨h.counters, h.calls, h.counts, h.endings⟩
  | lapse name => exact h.lapse name

theorem sound_after (f : Fleet) (start : Moment) (past : List Event) : Sound f (f.after start past) := by
  induction past with
  | nil => exact ⟨fun _ _ h => (by cases h), fun _ _ h => (by cases h), fun _ h => (by cases h),
      fun _ _ h => (by cases h)⟩
  | cons e past ih => exact ih.step e

end Turnstile.Remote.Fleet
