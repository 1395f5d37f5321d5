import Turnstile.Proofs.Rate.Counter
/-!
# The limiter counts exactly

A history of inquiries tells what the limiter of one process answers next: an inquiry that names a key and a
limit is one more request of the key in the window of its instant, and passes if there are no more of them
than the limit (`allow_after`). The clock may step back by a second between inquiries. Histories have their
latest inquiry first.
-/

namespace Turnstile.Rate

open Time CounterTable

variable {stem : String} {window : Duration} {past : List Inquiry} {x : Inquiry} {t : CounterTable}

/-- Readings of a clock, the latest first, none of which lies more than a second before an earlier one.
Whole seconds are compared, so a reading may lie back by anything less than two. -/
def Steady : List Instant → Prop := List.Pairwise fun later earlier => earlier.secs ≤ later.secs + 1

/-- Whether an inquiry is one that is counted. -/
def Inquiry.counts (x : Inquiry) : Bool := x.key ≠ "" && 0 < x.limit

/-- How many requests of a key have been counted in the window with a start. -/
def spent (window : Duration) (key : String) (start : Int) (past : List Inquiry) : Nat :=
  past.countP fun x => x.counts && x.key = key && windowStart x.now window = start

theorem spent_cons (x : Inquiry) (key : String) (start : Int) :
    spent window key start (x :: past) = spent window key start past +
      if x.counts = true ∧ x.key = key ∧ windowStart x.now window = start then 1 else 0 := by
  simp only [spent, List.countP_cons, Bool.and_eq_true, decide_eq_true_eq, and_assoc]

/-! ### One inquiry -/

/-- What is wrong with an inquiry that is not counted. -/
def Inquiry.fault (x : Inquiry) : RateLimitError :=
  if x.key = "" then .emptyKey else .invalidLimit x.limit

theorem checkRequest_eq (x : Inquiry) :
    checkRequest x.key x.limit = if x.counts then .ok () else .error x.fault := by
  by_cases hkey : x.key = ""
  · simp [checkRequest, Inquiry.counts, Inquiry.fault, hkey]
  · by_cases hlimit : x.limit ≤ 0
    · simp [checkRequest, Inquiry.counts, Inquiry.fault, hkey, hlimit, Int.not_lt.2 hlimit]
    · simp [checkRequest, Inquiry.counts, hkey, hlimit, Int.not_le.1 hlimit]

/-- An inquiry that is not counted leaves the counters alone. -/
theorem allow_of_not_counts (hcounts : x.counts = false) :
    allow stem window t x.now x.key x.limit = .ok (.error x.fault, t) := by
  simp [allow, checkRequest_eq, hcounts]

/-- The counters hold what the history has counted. -/
def Counted (stem : String) (window : Duration) (past : List Inquiry) (t : CounterTable) : Prop :=
  Tallies stem window (past.map (·.now)) (fun key start => spent window key start past) t

theorem Counted.of_not_counts (h : Counted stem window past t) (hcounts : x.counts = false) :
    Counted stem window (x :: past) t := by
  have hspent : (fun key start => spent window key start (x :: past))
      = fun key start => spent window key start past := by
    funext key start
    simp [spent_cons, hcounts]
  unfold Counted
  rw [hspent]
  exact h.later x.now

/-- An inquiry that is counted is answered by the count, and the counters hold it from then on. -/
theorem Counted.allow (h : Counted stem window past t) (hwindow : 1 ≤ window.secs)
    (hfits : Fits window x.now) (hclock : Tolerates (past.map (·.now)) x.now) (hcounts : x.counts = true) :
    ∃ t', Rate.allow stem window t x.now x.key x.limit
        = .ok (.ok (decide ((spent window x.key (windowStart x.now window) (x :: past) : Int) ≤ x.limit)), t')
      ∧ Counted stem window (x :: past) t' := by
  obtain ⟨t', hincrement, htallies⟩ := h.increment hwindow hfits hclock x.key
  have hspent : (fun key start => spent window key start (x :: past))
      = fun key start => spent window key start past
        + if key = x.key ∧ start = windowStart x.now window then 1 else 0 := by
    funext key start
    simp [spent_cons, hcounts, eq_comm]
  refine ⟨t', ?_, ?_⟩
  · simp [Rate.allow, checkRequest_eq, hcounts, hincrement, verdict, spent_cons]
  · unfold Counted
    rw [hspent]
    exact htallies

/-! ### Histories -/

/-- The answer that a history calls for. -/
def dueAnswer (window : Duration) (past : List Inquiry) (x : Inquiry) : Except RateLimitError Bool :=
  if x.key = "" then .error .emptyKey
  else if x.limit ≤ 0 then .error (.invalidLimit x.limit)
  else .ok (decide ((spent window x.key (windowStart x.now window) (x :: past) : Int) ≤ x.limit))

theorem dueAnswer_of_not_counts (hcounts : x.counts = false) : dueAnswer window past x = .error x.fault := by
  by_cases hkey : x.key = ""
  · simp [dueAnswer, Inquiry.fault, hkey]
  · have hlimit : x.limit ≤ 0 := by simpa [Inquiry.counts, hkey] using hcounts
    simp [dueAnswer, Inquiry.fault, hkey, hlimit]

theorem dueAnswer_of_counts (hcounts : x.counts = true) :
    dueAnswer window past x
      = .ok (decide ((spent window x.key (windowStart x.now window) (x :: past) : Int) ≤ x.limit)) := by
  obtain ⟨hkey, hlimit⟩ : x.key ≠ "" ∧ 0 < x.limit := by simpa [Inquiry.counts] using hcounts
  rw [dueAnswer, if_neg hkey, if_neg (Int.not_le.2 hlimit)]

/-- One inquiry: it gets the answer due, and the counters go on holding what has been counted. -/
theorem Counted.step (h : Counted stem window past t) (hwindow : 1 ≤ window.secs)
    (hfits : Fits window x.now) (hclock : Tolerates (past.map (·.now)) x.now) :
    ∃ t', Rate.allow stem window t x.now x.key x.limit = .ok (dueAnswer window past x, t') ∧
      Counted stem window (x :: past) t' := by
  cases hcounts : x.counts with
  | false =>
    rw [dueAnswer_of_not_counts hcounts]
    exact ⟨t, allow_of_not_counts hcounts, h.of_not_counts hcounts⟩
  | true =>
    rw [dueAnswer_of_counts hcounts]
    exact h.allow hwindow hfits hclock hcounts

theorem tolerates_of_steady (h : Steady ((x :: past).map (·.now))) :
    Tolerates (past.map (·.now)) x.now :=
  (List.pairwise_cons.1 h).1

/-- A history goes through, and the counters hold what it has counted. -/
theorem exists_countersAfter (stem : String) (hwindow : 1 ≤ window.secs)
    (hclock : Steady (past.map (·.now))) (hfits : ∀ x ∈ past, Fits window x.now) :
    ∃ t, countersAfter stem window past = .ok t ∧ Counted stem window past t := by
  induction past with
  | nil => exact ⟨∅, rfl, Tallies.empty⟩
  | cons x past ih =>
    obtain ⟨t, hafter, hcounted⟩ :=
      ih (List.pairwise_cons.1 hclock).2 fun y hy => hfits y (List.mem_cons_of_mem x hy)
    obtain ⟨t', hallow, hcounted'⟩ :=
      hcounted.step hwindow (hfits x List.mem_cons_self) (tolerates_of_steady hclock)
    refine ⟨t', ?_, hcounted'⟩
    rw [countersAfter, hafter]
    simp only [hallow, Except.map]

/-- **The limiter counts exactly, also when the clock steps back by a second.** After any history of
inquiries, an inquiry with a key and a positive limit is answered with yes just if no more requests of the
key than the limit have been counted in its window, itself included; any other inquiry is an error, and
none of its kind has been counted. -/
theorem allow_after (stem : String) (hwindow : 1 ≤ window.secs) (past : List Inquiry) (x : Inquiry)
    (hclock : Steady ((x :: past).map (·.now))) (hfits : ∀ y ∈ x :: past, Fits window y.now) :
    ∃ t t', countersAfter stem window past = .ok t ∧
      allow stem window t x.now x.key x.limit
        = .ok (if x.key = "" then .error .emptyKey
            else if x.limit ≤ 0 then .error (.invalidLimit x.limit)
            else .ok (decide ((spent window x.key (windowStart x.now window) (x :: past) : Int) ≤ x.limit)),
          t') := by
  obtain ⟨t, hafter, hcounted⟩ := exists_countersAfter stem hwindow (List.pairwise_cons.1 hclock).2
    fun y hy => hfits y (List.mem_cons_of_mem x hy)
  obtain ⟨t', hallow, -⟩ :=
    hcounted.step hwindow (hfits x List.mem_cons_self) (tolerates_of_steady hclock)
  exact ⟨t, t', hafter, hallow⟩

/-- The clock steps back by a second, over the end of a window and again: both inquiries before still count
for their windows. -/
theorem allow_after_step_back :
    ∃ t t', countersAfter "req_limit:" (.ofSecs 60)
        [⟨{ secs := 119, nanos := 5 }, "k", 2⟩, ⟨{ secs := 120 }, "k", 2⟩, ⟨{ secs := 119 }, "k", 2⟩] = .ok t ∧
      allow "req_limit:" (.ofSecs 60) t { secs := 120, nanos := 7 } "k" 1 = .ok (.ok false, t') := by
  have hwindow : 1 ≤ (Duration.ofSecs 60).secs := by decide
  obtain ⟨t, t', hafter, hallow⟩ := allow_after "req_limit:" hwindow
    [⟨{ secs := 119, nanos := 5 }, "k", 2⟩, ⟨{ secs := 120 }, "k", 2⟩, ⟨{ secs := 119 }, "k", 2⟩]
    ⟨{ secs := 120, nanos := 7 }, "k", 1⟩ (by unfold Steady; decide) (by unfold Fits; decide)
  refine ⟨t, t', hafter, ?_⟩
  rw [hallow]
  rfl

end Turnstile.Rate
