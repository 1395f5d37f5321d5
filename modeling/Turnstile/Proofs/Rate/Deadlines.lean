import Turnstile.Proofs.Rate.Counter
/-!
# Windows without a deadline

A window that is empty, or for which the calendar has no deadline, should be refused. The window is looked at before
the clock is, and refused only if it is too long for any instant: between this bound and the end of the calendar an
increment faults (`increment_promised_iff`). No counter ever counts more than the increments so far.
-/

namespace Turnstile.CounterTable

open Time Rate

variable {stem key : String} {window ttl : Duration} {t t' : CounterTable} {now : Instant} {n : Nat}
  {answer : Except CounterError Int}

/-! ### Lifetimes -/

/-- The length of a window and a second more, in nanoseconds. -/
def lifetime (window : Duration) : Nat := window.toNanos + 1000000000

/-- The instant at which a counter that is created now dies, be it in the calendar or not. -/
def deadline (window : Duration) (now : Instant) : Instant := now.later (lifetime window)

theorem toNanos_counterTtl (window : Duration) :
    (counterTtl window).toNanos = min (lifetime window) Duration.max.toNanos := by
  unfold counterTtl Duration.saturatingAdd ttlPadding Duration.ofSecs lifetime
  dsimp only
  split
  · next hlong =>
    rw [Nat.min_eq_right]
    simp only [Duration.toNanos, Duration.max]
    omega
  · next hshort =>
    rw [Nat.min_eq_left]
    · simp only [Duration.toNanos]
      omega
    · simp only [Duration.toNanos, Duration.max]
      omega

theorem ttl?_eq (window : Duration) :
    ttl? window = if window = .zero ∨ maxTtl.toNanos < lifetime window then none
      else some (counterTtl window) := by
  have hmax : maxTtl.toNanos < Duration.max.toNanos := by decide
  simp only [ttl?, toNanos_counterTtl, lt_min_iff, hmax, and_true]

theorem ttl?_eq_none_iff : ttl? window = none ↔ window = .zero ∨ maxTtl.toNanos < lifetime window := by
  rw [ttl?_eq, ite_eq_left_iff, or_iff_not_imp_left]
  simp

theorem ttl?_eq_some_iff : ttl? window = some ttl ↔
    window ≠ .zero ∧ lifetime window ≤ maxTtl.toNanos ∧ counterTtl window = ttl := by
  rw [ttl?_eq]
  simp [and_assoc]

/-- The deadline of a window that is not refused. -/
theorem add?_of_ttl? (hnow : now.IsProper) (h : ttl? window = some ttl) :
    now.add? ttl = if (deadline window now).secs ≤ Instant.maxSecs then some (deadline window now) else none := by
  obtain ⟨-, hshort, rfl⟩ := ttl?_eq_some_iff.1 h
  have hnanos : (counterTtl window).toNanos = lifetime window := by
    rw [toNanos_counterTtl]
    exact Nat.min_eq_left (hshort.trans (by decide))
  have hsecs : (counterTtl window).secs ≠ 0 := by
    have hpadded := secs_le_counterTtl window
    unfold Text.maxNat64 at hpadded
    omega
  rw [Instant.add?_eq_later hnow hsecs, hnanos]
  rfl

/-- A window that is too long for any instant has no deadline at this one. -/
theorem lt_deadline_of_long (hnow : now.IsProper) (h : maxTtl.toNanos < lifetime window) :
    Instant.maxSecs < (deadline window now).secs := by
  have hmin := (Instant.inCalendar_iff.1 hnow.inCalendar).1
  simp only [maxTtl, Duration.toNanos] at h
  simp only [deadline, Instant.later, Instant.minSecs, Instant.maxSecs] at hmin ⊢
  omega

/-! ### Answers -/

/-- The calendar has no deadline for the window, but the window is neither empty nor longer than every lifetime. -/
structure Overlooked (window : Duration) (now : Instant) : Prop where
  nonempty : window ≠ .zero
  beyond : Instant.maxSecs < (deadline window now).secs
  short : lifetime window ≤ maxTtl.toNanos

/-- What is promised of an increment: a window that is empty or has no deadline in the calendar is refused and the
counters stay, and in every other one the request is counted. -/
def Promised (t : CounterTable) (now : Instant) (window : Duration)
    (outcome : Except Fault (Except CounterError Int × CounterTable)) : Prop :=
  if window = .zero ∨ Instant.maxSecs < (deadline window now).secs then
    outcome = .ok (.error .invalidWindow, t)
  else ∃ count t', outcome = .ok (.ok count, t')

theorem increment_of_overlooked (hnow : now.IsProper) (h : Overlooked window now) (t : CounterTable)
    (stem key : String) : t.increment stem now key window = .error .deadlineOutOfCalendar := by
  have httl : ttl? window = some (counterTtl window) := ttl?_eq_some_iff.2 ⟨h.nonempty, h.short, rfl⟩
  have hadd := add?_of_ttl? hnow httl
  rw [if_neg (not_le.2 h.beyond)] at hadd
  simp only [increment, httl, hadd]

theorem promised_of_not_overlooked (hnow : now.IsProper) (h : ¬ Overlooked window now) (t : CounterTable)
    (stem key : String) : Promised t now window (t.increment stem now key window) := by
  unfold Promised
  rcases increment_cases t stem now key window with ⟨hrefused, heq⟩ | ⟨ttl, httl, hadd, heq⟩ |
    ⟨ttl, dies, httl, hadd, heq⟩
  · have hno : window = .zero ∨ Instant.maxSecs < (deadline window now).secs :=
      (ttl?_eq_none_iff.1 hrefused).imp_right (lt_deadline_of_long hnow)
    rw [if_pos hno]
    exact heq
  · obtain ⟨hnonempty, hshort, -⟩ := ttl?_eq_some_iff.1 httl
    rw [add?_of_ttl? hnow httl, ite_eq_right_iff] at hadd
    exact absurd ⟨hnonempty, by simpa using hadd, hshort⟩ h
  · obtain ⟨hnonempty, -, -⟩ := ttl?_eq_some_iff.1 httl
    rw [add?_of_ttl? hnow httl, Option.ite_none_right_eq_some] at hadd
    have hyes : ¬ (window = .zero ∨ Instant.maxSecs < (deadline window now).secs) :=
      not_or.2 ⟨hnonempty, not_lt.2 hadd.1⟩
    rw [if_neg hyes]
    exact ⟨_, _, heq⟩

/-! ### Counts -/

/-- Every counter has counted a request, and none more than `n`. -/
def Within (n : Nat) (t : CounterTable) : Prop := ∀ name, ∀ c ∈ t.get? name, 1 ≤ c.count ∧ c.count ≤ n

theorem Within.prune (h : Within n t) (now : Instant) : Within n (t.prune now) := by
  intro name c hc
  rw [get?_prune, Option.mem_def, Option.filter_eq_some_iff] at hc
  exact h name c hc.1

theorem Within.mono (h : Within n t) : Within (n + 1) t := by
  intro name c hc
  obtain ⟨hpos, hle⟩ := h name c hc
  exact ⟨hpos, by omega⟩

/-- One increment: what it counts is one more than before at the most. -/
theorem Within.increment (h : Within n t) (hcounted : t.increment stem now key window = .ok (answer, t')) :
    Within (n + 1) t' ∧ ∀ count, answer = .ok count → 1 ≤ count ∧ count ≤ n + 1 := by
  rcases increment_cases t stem now key window with ⟨-, heq⟩ | ⟨-, -, -, heq⟩ | ⟨ttl, dies, -, -, heq⟩
  · cases hcounted.symm.trans heq
    refine ⟨h.mono, ?_⟩
    intro count hcount
    cases hcount
  · cases hcounted.symm.trans heq
  · cases hcounted.symm.trans heq
    have hcount : 1 ≤ (counted dies ((t.prune now).get? (counterKey stem key window now))).count ∧
        (counted dies ((t.prune now).get? (counterKey stem key window now))).count ≤ n + 1 := by
      cases hget : (t.prune now).get? (counterKey stem key window now) with
      | none => simp [counted]
      | some c =>
        have hbefore := h.prune now _ c hget
        simp only [counted, Option.getD_some]
        omega
    refine ⟨?_, ?_⟩
    · intro name c hc
      by_cases hname : name = counterKey stem key window now
      · subst hname
        rw [Table.get?_insert_self] at hc
        cases hc
        exact hcount
      · rw [Table.get?_insert_of_ne _ _ hname] at hc
        exact (h.prune now).mono name c hc
    · intro count hanswer
      cases hanswer
      exact hcount

/-- A whole history: the counters hold no more than its increments. -/
theorem within_after (stem : String) (past : List Increment) : Within past.length (after stem past) := by
  induction past with
  | nil =>
    intro name c hc
    cases hc
  | cons x past ih =>
    rw [after]
    split
    · next hcounted => exact (ih.increment hcounted).1
    · exact (ih.prune x.now).mono

/-- **An increment does what is promised just if the window is not overlooked.** For an overlooked window it faults.
What has come before does not matter for this, whatever the windows were; where a request is counted, the count is
at least one and at most the number of increments. -/
theorem increment_promised_iff (stem : String) (past : List Increment) (hnow : now.IsProper) (key : String)
    (window : Duration) :
    (Promised (after stem past) now window ((after stem past).increment stem now key window) ↔
        ¬ Overlooked window now) ∧
      (Overlooked window now →
        (after stem past).increment stem now key window = .error .deadlineOutOfCalendar) ∧
      ∀ count t', (after stem past).increment stem now key window = .ok (.ok count, t') →
        1 ≤ count ∧ count ≤ past.length + 1 := by
  refine ⟨⟨?_, ?_⟩, ?_, ?_⟩
  · intro hpromised hoverlooked
    rw [increment_of_overlooked hnow hoverlooked, Promised, if_pos (Or.inr hoverlooked.beyond)] at hpromised
    cases hpromised
  · intro hseen
    exact promised_of_not_overlooked hnow hseen _ stem key
  · intro hoverlooked
    exact increment_of_overlooked hnow hoverlooked _ stem key
  · intro count t' hcounted
    exact ((within_after stem past).increment hcounted).2 count rfl

/-- A window of 285 thousand years, longer than what is left of the calendar. -/
def longWindow : Duration := .ofSecs 9000000000000

/-- In the year 2024. -/
def trialInstant : Instant := { secs := 1714564842 }

theorem overlooked_longWindow : Overlooked longWindow trialInstant := ⟨by decide, by decide, by decide⟩

theorem isProper_trialInstant : trialInstant.IsProper := ⟨by decide, by decide⟩

/-- A minute and a fault have come before: a minute is counted in again, the longest window of all is refused, and the
long one faults. -/
theorem promised_after_fault :
    let t := after "req_limit:" [⟨trialInstant, "k", longWindow⟩, ⟨trialInstant, "k", .ofSecs 60⟩]
    Promised t trialInstant (.ofSecs 60) (t.increment "req_limit:" trialInstant "k" (.ofSecs 60)) ∧
      Promised t trialInstant .max (t.increment "req_limit:" trialInstant "k" .max) ∧
      t.increment "req_limit:" trialInstant "k" longWindow = .error .deadlineOutOfCalendar := by
  have hminute : ¬ Overlooked (.ofSecs 60) trialInstant := fun h => absurd h.beyond (by decide)
  have hmax : ¬ Overlooked .max trialInstant := fun h => absurd h.short (by decide)
  refine ⟨?_, ?_, ?_⟩
  · exact (increment_promised_iff _ _ isProper_trialInstant "k" _).1.2 hminute
  · exact (increment_promised_iff _ _ isProper_trialInstant "k" _).1.2 hmax
  · exact (increment_promised_iff _ _ isProper_trialInstant "k" _).2.1 overlooked_longWindow

/-- **A window that is too long for the calendar is not refused.** Without any counters yet, an increment in it
faults. -/
theorem long_window_faults :
    Instant.maxSecs < (deadline longWindow trialInstant).secs ∧
      (∅ : CounterTable).increment "req_limit:" trialInstant "k" longWindow = .error .deadlineOutOfCalendar ∧
      ¬ Promised ∅ trialInstant longWindow
        ((∅ : CounterTable).increment "req_limit:" trialInstant "k" longWindow) := by
  have hbeyond := overlooked_longWindow.beyond
  have hfault : (∅ : CounterTable).increment "req_limit:" trialInstant "k" longWindow
      = .error .deadlineOutOfCalendar :=
    increment_of_overlooked isProper_trialInstant overlooked_longWindow ∅ "req_limit:" "k"
  refine ⟨hbeyond, hfault, ?_⟩
  rw [hfault, Promised, if_pos (Or.inr hbeyond)]
  intro h
  cases h

end Turnstile.CounterTable
