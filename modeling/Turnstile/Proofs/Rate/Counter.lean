import Turnstile.Proofs.Rate.Window
import Turnstile.Proofs.Time.Instant
import Turnstile.Rate.Limiter
/-!
# Counters count

One increment adds one to the counter of its key and window and leaves all others as they are, except that
dead ones are dropped. A counter outlives its window by more than a second, so as long as no reading of
the clock lies more than a second before an earlier one, a counter that is dropped is never asked for
again, and the table holds the exact counts (`Tallies.increment`).
-/

namespace Turnstile.CounterTable

open Time Rate

variable {stem key : String} {window : Duration} {t : CounterTable} {now : Instant}

/-! ### Deadlines -/

/-- The instant lies in the calendar, and so does the deadline of a counter that is created at it. -/
def Fits (window : Duration) (now : Instant) : Prop :=
  Instant.minSecs ≤ now.secs ∧ (now.add? (counterTtl window)).isSome

/-- A lifetime is longer than its window by a second, and not longer than the longest one. -/
theorem secs_of_ttl? {ttl : Duration} (h : ttl? window = some ttl) :
    window.secs + 1 ≤ ttl.secs ∧ ttl.secs ≤ maxTtl.secs := by
  obtain ⟨hshort, rfl⟩ : ¬ (window = .zero ∨ maxTtl.toNanos < (counterTtl window).toNanos) ∧
      counterTtl window = ttl := by simpa [ttl?] using h
  have hsecs := secs_le_counterTtl window
  simp only [maxTtl, Duration.toNanos] at hshort ⊢
  unfold Text.maxNat64 at hsecs
  omega

/-- A deadline that is given to a counter lies a second and more beyond the window of its first request. -/
theorem later_of_add? {ttl : Duration} {deadline : Instant} (httl : ttl? window = some ttl)
    (hadd : now.add? ttl = some deadline) : now.secs + window.secs + 1 ≤ deadline.secs := by
  have hlonger := (secs_of_ttl? httl).1
  have hlater := Instant.secs_le_of_add? hadd
  omega

theorem Fits.deadline (h : Fits window now) (hwindow : 1 ≤ window.secs) :
    ∃ deadline, now.add? (counterTtl window) = some deadline ∧
      ttl? window = some (counterTtl window) ∧ now.secs + window.secs + 1 ≤ deadline.secs := by
  obtain ⟨hmin, hadd⟩ := h
  obtain ⟨deadline, hadd⟩ := Option.isSome_iff_exists.1 hadd
  have httl := secs_le_counterTtl window
  have hnanos := nanos_counterTtl_lt window
  have hlater := Instant.secs_le_of_add? hadd
  have hmax := Instant.secs_le_maxSecs_of_add? hadd (by unfold Text.maxNat64 at httl; omega)
  unfold Text.maxNat64 at httl
  unfold Instant.minSecs at hmin
  unfold Instant.maxSecs at hmax
  have hcounted : ttl? window = some (counterTtl window) := by
    unfold ttl?
    dsimp only
    rw [if_neg]
    rw [not_or]
    constructor
    · rintro rfl
      simp [Duration.zero] at hwindow
    · simp only [maxTtl, Duration.toNanos]
      omega
  exact ⟨deadline, hadd, hcounted, later_of_add? hcounted hadd⟩

/-! ### One increment -/

theorem get?_prune (t : CounterTable) (now : Instant) (name : String) :
    (t.prune now).get? name = (t.get? name).filter fun c => now < c.expiresAt :=
  t.get?_filter _ name

/-- A counter after one more request, created with a deadline if there is none. -/
def counted (deadline : Instant) (o : Option Counter) : Counter :=
  let c := o.getD { count := 0, expiresAt := deadline }
  { c with count := c.count + 1 }

/-- What an increment does: the window is refused, or there is no deadline to give to a counter, or the request is
counted. -/
theorem increment_cases (t : CounterTable) (stem : String) (now : Instant) (key : String) (window : Duration) :
    (ttl? window = none ∧ t.increment stem now key window = .ok (.error .invalidWindow, t)) ∨
      (∃ ttl, ttl? window = some ttl ∧ now.add? ttl = none ∧
        t.increment stem now key window = .error .deadlineOutOfCalendar) ∨
      ∃ ttl deadline, ttl? window = some ttl ∧ now.add? ttl = some deadline ∧
        t.increment stem now key window =
          (let name := counterKey stem key window now
           let c := counted deadline ((t.prune now).get? name)
           .ok (.ok c.count, (t.prune now).insert name c)) := by
  unfold increment
  cases httl : ttl? window with
  | none => exact Or.inl ⟨rfl, rfl⟩
  | some ttl =>
    cases hadd : now.add? ttl with
    | none => exact Or.inr (Or.inl ⟨ttl, rfl, hadd, by simp only [hadd]⟩)
    | some deadline => exact Or.inr (Or.inr ⟨ttl, deadline, rfl, hadd, by simp only [hadd, counted]⟩)

/-- What an increment does when its deadline is in the calendar. -/
theorem increment_eq (t : CounterTable) (hwindow : 1 ≤ window.secs) (hfits : Fits window now)
    (stem key : String) :
    ∃ deadline, now.add? (counterTtl window) = some deadline ∧
      now.secs + window.secs + 1 ≤ deadline.secs ∧
      t.increment stem now key window =
        (let name := counterKey stem key window now
         let c := counted deadline ((t.prune now).get? name)
         .ok (.ok c.count, (t.prune now).insert name c)) := by
  obtain ⟨deadline, hadd, httl, hlater⟩ := hfits.deadline hwindow
  exact ⟨deadline, hadd, hlater, by simp only [increment, httl, hadd, counted]⟩

/-! ### Runs -/

/-- No earlier reading of the clock lies more than a second after this one. -/
def Tolerates (readings : List Instant) (t : Instant) : Prop := ∀ u ∈ readings, u.secs ≤ t.secs + 1

/-- A counter that has counted `n` requests in the window of an instant, or none where there were none. -/
def Tallied (window : Duration) (t : Instant) (n : Nat) : Option Counter → Prop
  | none => n = 0
  | some c => 0 < n ∧ c.count = n ∧
      ∀ u : Instant, windowStart u window = windowStart t window → u.secs + 1 < c.expiresAt.secs

/-- A counter that may still be asked for is alive. -/
theorem Tallied.filter_alive {x : Instant} {n : Nat} {o : Option Counter} (h : Tallied window x n o)
    (hx : now.secs ≤ x.secs + 1) : o.filter (fun c => now < c.expiresAt) = o := by
  cases o with
  | none => rfl
  | some c =>
    obtain ⟨-, -, hlife⟩ := h
    have hlater : x.secs + 1 < c.expiresAt.secs := hlife x rfl
    have halive : now < c.expiresAt := Instant.lt_of_secs_lt (by omega)
    simp [halive]

theorem Tallied.counted {n : Nat} {o : Option Counter} {deadline : Instant} (h : Tallied window now n o)
    (hwindow : 1 ≤ window.secs) (hlater : now.secs + window.secs + 1 ≤ deadline.secs) :
    Tallied window now (n + 1) (some (CounterTable.counted deadline o)) := by
  refine ⟨Nat.succ_pos n, ?_⟩
  cases o with
  | none =>
    have hn : n = 0 := h
    refine ⟨by simp [CounterTable.counted, hn], fun u hu => ?_⟩
    -- The window ends at the latest as long after its first request as it lasts.
    have hend : u.secs < now.secs + windowSecs window := lt_add_of_windowStart_eq (windowSecs_pos hwindow) hu
    have hlength : windowSecs window ≤ window.secs := windowSecs_le window
    simp only [CounterTable.counted, Option.getD_none]
    omega
  | some old =>
    obtain ⟨-, hcount, hlife⟩ := h
    exact ⟨by simp [CounterTable.counted, hcount], hlife⟩

/-- The table holds what has been counted, for every window that may still be asked for. -/
def Tallies (stem : String) (window : Duration) (readings : List Instant) (tally : String → Int → Nat)
    (t : CounterTable) : Prop :=
  ∀ key x, Tolerates readings x →
    Tallied window x (tally key (windowStart x window)) (t.get? (counterKey stem key window x))

section Tallies

variable {readings : List Instant} {tally : String → Int → Nat}

theorem Tallies.empty : Tallies stem window readings (fun _ _ => 0) ∅ := fun _ _ _ => rfl

theorem Tallies.later (h : Tallies stem window readings tally t) (now : Instant) :
    Tallies stem window (now :: readings) tally t :=
  fun key x hx => h key x fun u hu => hx u (List.mem_cons_of_mem now hu)

/-- Dropping the dead counters loses none that may still be asked for. -/
theorem Tallies.prune (h : Tallies stem window readings tally t) (now : Instant) :
    Tallies stem window (now :: readings) tally (t.prune now) := by
  intro key x hx
  have htallied := h.later now key x hx
  rw [get?_prune, htallied.filter_alive (hx now List.mem_cons_self)]
  exact htallied

/-- One request more: its counter has counted it too, and the table holds that from then on. -/
theorem Tallies.insert (h : Tallies stem window (now :: readings) tally t) (hwindow : 1 ≤ window.secs)
    (hnow : Tolerates readings now) {deadline : Instant} (hlater : now.secs + window.secs + 1 ≤ deadline.secs)
    (key : String) :
    (counted deadline (t.get? (counterKey stem key window now))).count
        = ((tally key (windowStart now window) + 1 : Nat) : Int) ∧
      Tallies stem window (now :: readings)
        (fun k w => tally k w + if k = key ∧ w = windowStart now window then 1 else 0)
        (t.insert (counterKey stem key window now)
          (counted deadline (t.get? (counterKey stem key window now)))) := by
  have hself : Tolerates (now :: readings) now := by
    intro u hu
    rcases List.mem_cons.1 hu with rfl | hu
    · omega
    · exact hnow u hu
  have hnext := (h key now hself).counted hwindow hlater
  refine ⟨hnext.2.1, ?_⟩
  intro k x hx
  dsimp only
  by_cases hname : counterKey stem k window x = counterKey stem key window now
  · obtain ⟨rfl, hstart⟩ := counterKey_eq_iff.1 hname
    rw [hname, Table.get?_insert_self, hstart, if_pos ⟨rfl, rfl⟩]
    refine ⟨hnext.1, hnext.2.1, fun u hu => hnext.2.2 u ?_⟩
    rw [hu, hstart]
  · have hne : ¬ (k = key ∧ windowStart x window = windowStart now window) :=
      fun heq => hname (counterKey_eq_iff.2 heq)
    rw [Table.get?_insert_of_ne _ _ hname, if_neg hne]
    exact h k x hx

/-- One increment: it returns what has been counted with it, and the table holds that from then on. -/
theorem Tallies.increment (h : Tallies stem window readings tally t) (hwindow : 1 ≤ window.secs)
    (hfits : Fits window now) (hnow : Tolerates readings now) (key : String) :
    ∃ t', t.increment stem now key window
        = .ok (.ok ((tally key (windowStart now window) + 1 : Nat) : Int), t') ∧
      Tallies stem window (now :: readings)
        (fun k w => tally k w + if k = key ∧ w = windowStart now window then 1 else 0) t' := by
  obtain ⟨deadline, -, hlater, heq⟩ := increment_eq t hwindow hfits stem key
  obtain ⟨hcount, htallies⟩ := (h.prune now).insert hwindow hnow hlater key
  refine ⟨_, ?_, htallies⟩
  rw [heq, ← hcount]

end Tallies

end Turnstile.CounterTable
