import Turnstile.Proofs.Rate.Limiter
/-!
# Bursts

Windows are aligned, so around the end of one the limiter lets through what the windows on both sides allow. An
interval as long as a window meets no third one (`windowStart_within`), and in each of them no more requests of a key
are granted than its limit (`granted_of_window_le`). So twice the limit bounds what is granted in any such interval,
wherever it begins (`granted_within_le`).

Nothing is assumed of the calendar here: an inquiry whose counter would have no deadline is not granted, and the
history goes on, also where it has faulted.
-/

namespace Turnstile.Rate

open Time CounterTable

variable {stem key : String} {window : Duration} {past : List Inquiry} {x : Inquiry} {t : CounterTable}

/-! ### Inquiries that are metered -/

/-- The inquiry names a key and a limit, and a counter that is created for it can be given a deadline. -/
def Inquiry.isMetered (window : Duration) (x : Inquiry) : Bool :=
  x.counts && ((ttl? window).bind x.now.add?).isSome

def metered (window : Duration) (past : List Inquiry) : List Inquiry := past.filter (·.isMetered window)

theorem spent_metered_cons (x : Inquiry) (past : List Inquiry) (key : String) (start : Int) :
    spent window key start (metered window (x :: past)) = spent window key start (metered window past) +
      if x.isMetered window = true ∧ x.key = key ∧ windowStart x.now window = start then 1 else 0 := by
  cases hmetered : x.isMetered window with
  | false => simp [metered, hmetered]
  | true =>
    have hcounts : x.counts = true := (Bool.and_eq_true_iff.1 hmetered).1
    have hcons : metered window (x :: past) = x :: metered window past :=
      List.filter_cons_of_pos hmetered
    simp only [hcons, spent_cons, hcounts, true_and]

theorem allow_of_isMetered (hmetered : x.isMetered window = true) (t : CounterTable) (stem : String) :
    ∃ deadline, x.now.secs + window.secs + 1 ≤ deadline.secs ∧
      allow stem window t x.now x.key x.limit =
        (let name := counterKey stem x.key window x.now
         let c := counted deadline ((t.prune x.now).get? name)
         .ok (.ok (decide (c.count ≤ x.limit)), (t.prune x.now).insert name c)) := by
  obtain ⟨hcounts, hdeadline⟩ := Bool.and_eq_true_iff.1 hmetered
  obtain ⟨deadline, hbind⟩ := Option.isSome_iff_exists.1 hdeadline
  obtain ⟨ttl, httl, hadd⟩ := Option.bind_eq_some_iff.1 hbind
  refine ⟨deadline, later_of_add? httl hadd, ?_⟩
  simp only [allow, checkRequest_eq, hcounts, if_true, increment, httl, hadd]
  rfl

/-- An inquiry that is not metered is refused and changes nothing, or it faults. -/
theorem allow_of_not_isMetered (hmetered : x.isMetered window = false) (t : CounterTable) (stem : String) :
    (∃ e, allow stem window t x.now x.key x.limit = .ok (.error e, t)) ∨
      allow stem window t x.now x.key x.limit = .error .deadlineOutOfCalendar := by
  cases hcounts : x.counts with
  | false => exact Or.inl ⟨x.fault, allow_of_not_counts hcounts⟩
  | true =>
    simp only [allow, checkRequest_eq, hcounts, if_true]
    rcases increment_cases t stem x.now x.key window with ⟨-, heq⟩ | ⟨-, -, -, heq⟩ |
      ⟨ttl, deadline, httl, hadd, -⟩
    · rw [heq]
      exact Or.inl ⟨_, rfl⟩
    · rw [heq]
      exact Or.inr rfl
    · simp [Inquiry.isMetered, hcounts, httl, hadd] at hmetered

/-! ### One inquiry -/

/-- What is left of the counters after a history holds what it has metered. -/
def Metered (stem : String) (window : Duration) (past : List Inquiry) : Prop :=
  Tallies stem window (past.map (·.now)) (fun key start => spent window key start (metered window past))
    (countersLeft stem window past)

/-- An inquiry is granted after a history if it is metered and no more than its limit are with it in its window. -/
def IsGranted (window : Duration) (past : List Inquiry) (x : Inquiry) : Prop :=
  x.isMetered window = true ∧
    (spent window x.key (windowStart x.now window) (metered window (x :: past)) : Int) ≤ x.limit

instance (window : Duration) (past : List Inquiry) (x : Inquiry) : Decidable (IsGranted window past x) :=
  inferInstanceAs (Decidable (_ ∧ _))

/-- One inquiry: it is granted as the count says, and the counters go on holding what has been metered. -/
theorem Metered.step (h : Metered stem window past) (hwindow : 1 ≤ window.secs)
    (hclock : Tolerates (past.map (·.now)) x.now) :
    granted stem window (x :: past)
        = (if IsGranted window past x then x :: granted stem window past else granted stem window past) ∧
      Metered stem window (x :: past) := by
  unfold Metered at h ⊢
  cases hmetered : x.isMetered window with
  | false =>
    have hspent : (fun key start => spent window key start (metered window (x :: past)))
        = fun key start => spent window key start (metered window past) := by
      funext key start
      simp [spent_metered_cons, hmetered]
    have hnot : ¬ IsGranted window past x := by simp [IsGranted, hmetered]
    rcases allow_of_not_isMetered hmetered (countersLeft stem window past) stem with ⟨e, hallow⟩ | hallow
    · constructor
      · rw [if_neg hnot, granted, hallow]
      · simp only [countersLeft, hallow, List.map_cons, hspent]
        exact h.later x.now
    · constructor
      · rw [if_neg hnot, granted, hallow]
      · simp only [countersLeft, hallow, List.map_cons, hspent]
        exact h.prune x.now
  | true =>
    obtain ⟨deadline, hlater, hallow⟩ := allow_of_isMetered hmetered (countersLeft stem window past) stem
    obtain ⟨hcount, htallies⟩ := (h.prune x.now).insert hwindow hclock hlater x.key
    have hspent : (fun key start => spent window key start (metered window (x :: past)))
        = fun key start => spent window key start (metered window past)
          + if key = x.key ∧ start = windowStart x.now window then 1 else 0 := by
      funext key start
      simp [spent_metered_cons, hmetered, eq_comm]
    have hiff : IsGranted window past x ↔ (counted deadline
        (((countersLeft stem window past).prune x.now).get? (counterKey stem x.key window x.now))).count
          ≤ x.limit := by
      rw [hcount, IsGranted, spent_metered_cons]
      simp [hmetered]
    constructor
    · by_cases hle : IsGranted window past x
      · rw [if_pos hle, granted, hallow]
        simp only [hiff.1 hle, decide_true]
      · rw [if_neg hle, granted, hallow]
        simp only [mt hiff.2 hle, decide_false]
    · simp only [countersLeft, hallow, List.map_cons, hspent]
      exact htallies

/-! ### Histories -/

theorem metered_countersLeft (stem : String) (hwindow : 1 ≤ window.secs) (hclock : Steady (past.map (·.now))) :
    Metered stem window past := by
  induction past with
  | nil => exact Tallies.empty
  | cons x past ih =>
    exact ((ih (List.pairwise_cons.1 hclock).2).step hwindow (tolerates_of_steady hclock)).2

/-- The granted inquiries of a history are those that were granted when they came. -/
theorem granted_cons (stem : String) (hwindow : 1 ≤ window.secs) (hclock : Steady ((x :: past).map (·.now))) :
    granted stem window (x :: past)
      = if IsGranted window past x then x :: granted stem window past else granted stem window past := by
  have hpast := metered_countersLeft stem hwindow (List.pairwise_cons.1 hclock).2
  exact (hpast.step hwindow (tolerates_of_steady hclock)).1

/-- How many inquiries for a key have been granted in the window with a start. -/
def grantedIn (stem : String) (window : Duration) (key : String) (start : Int) (past : List Inquiry) : Nat :=
  (granted stem window past).countP fun x => x.key = key && windowStart x.now window = start

theorem grantedIn_cons (stem : String) (hwindow : 1 ≤ window.secs)
    (hclock : Steady ((x :: past).map (·.now))) (key : String) (start : Int) :
    grantedIn stem window key start (x :: past) = grantedIn stem window key start past +
      if IsGranted window past x ∧ x.key = key ∧ windowStart x.now window = start then 1 else 0 := by
  unfold grantedIn
  rw [granted_cons stem hwindow hclock]
  by_cases hgranted : IsGranted window past x
  · simp [hgranted, List.countP_cons]
  · simp [hgranted]

theorem grantedIn_le_spent (stem : String) (hwindow : 1 ≤ window.secs) (hclock : Steady (past.map (·.now)))
    (key : String) (start : Int) :
    grantedIn stem window key start past ≤ spent window key start (metered window past) := by
  induction past with
  | nil => exact Nat.le_refl 0
  | cons x past ih =>
    have hpast := ih (List.pairwise_cons.1 hclock).2
    rw [grantedIn_cons stem hwindow hclock, spent_metered_cons]
    by_cases hgranted : IsGranted window past x ∧ x.key = key ∧ windowStart x.now window = start
    · rw [if_pos hgranted, if_pos ⟨hgranted.1.1, hgranted.2⟩]
      omega
    · rw [if_neg hgranted]
      omega

/-- In no window more inquiries for a key are granted than its limit. -/
theorem granted_of_window_le (stem : String) (window : Duration) {limit : Int} (hwindow : 1 ≤ window.secs)
    (hclock : Steady (past.map (·.now))) (hlimit : 0 < limit) (hkey : ∀ x ∈ past, x.key = key → x.limit = limit)
    (start : Int) : (grantedIn stem window key start past : Int) ≤ limit := by
  induction past with
  | nil => exact Int.le_of_lt hlimit
  | cons x past ih =>
    have hsteady := (List.pairwise_cons.1 hclock).2
    have hpast := ih hsteady fun y hy => hkey y (List.mem_cons_of_mem x hy)
    rw [grantedIn_cons stem hwindow hclock]
    by_cases hgranted : IsGranted window past x ∧ x.key = key ∧ windowStart x.now window = start
    · -- The count that granted this one includes all that were granted in the window before.
      obtain ⟨⟨hmetered, hle⟩, rfl, rfl⟩ := hgranted
      have hbefore := grantedIn_le_spent stem hwindow hsteady x.key (windowStart x.now window)
      rw [spent_metered_cons, if_pos ⟨hmetered, rfl, rfl⟩, hkey x List.mem_cons_self rfl] at hle
      split
      · omega
      · omega
    · rw [if_neg hgranted]
      omega

/-! ### Intervals as long as a window -/

/-- An interval as long as a window meets the window of its first instant and the next one, and no other. -/
theorem windowStart_within {secs : Nat} (hsecs : windowSecs (.ofSecs secs) = secs) (hpos : 1 ≤ secs) {a u : Instant}
    (hfrom : a ≤ u) (hto : u < a.later (Duration.ofSecs secs).toNanos) :
    windowStart u (.ofSecs secs) = windowStart a (.ofSecs secs) ∨
      windowStart u (.ofSecs secs) = windowStart a (.ofSecs secs) + secs := by
  have h : 0 < windowSecs (.ofSecs secs) := by omega
  have hlast : u.secs ≤ a.secs + secs := by
    have hle := Instant.secs_le_of_le (le_of_lt hto)
    simp only [Instant.later, Duration.toNanos, Duration.ofSecs] at hle
    omega
  have hfirst := Instant.secs_le_of_le hfrom
  have ha := windowStart_le (t := a) h
  have ha' := lt_windowStart_add (t := a) h
  have hu := windowStart_le (t := u) h
  have hu' := lt_windowStart_add (t := u) h
  obtain ⟨m, hm⟩ := windowSecs_dvd_windowStart h a
  obtain ⟨n, hn⟩ := windowSecs_dvd_windowStart h u
  rw [hsecs] at ha' hu' hm hn
  -- Both starts are multiples of the length, and they are less than two lengths apart.
  have hlower : m < n + 1 := by
    apply Int.lt_of_mul_lt_mul_left (a := (secs : Int)) _ (by omega)
    rw [Int.mul_add, ← hm, ← hn]
    omega
  have hupper : n < m + 2 := by
    apply Int.lt_of_mul_lt_mul_left (a := (secs : Int)) _ (by omega)
    rw [Int.mul_add, ← hm, ← hn]
    omega
  have hcases : n = m ∨ n = m + 1 := by omega
  rcases hcases with rfl | rfl
  · left
    rw [hm, hn]
  · right
    rw [hm, hn, Int.mul_add, Int.mul_one]

/-- A window for which nothing is metered grants nothing. -/
theorem granted_of_ttl?_none (stem : String) (hwindow : 1 ≤ window.secs) (hclock : Steady (past.map (·.now)))
    (httl : ttl? window = none) : granted stem window past = [] := by
  induction past with
  | nil => rfl
  | cons x past ih =>
    have hnot : ¬ IsGranted window past x := by simp [IsGranted, Inquiry.isMetered, httl]
    rw [granted_cons stem hwindow hclock, if_neg hnot]
    exact ih (List.pairwise_cons.1 hclock).2

/-- A window that is not refused is as long as its seconds. -/
theorem windowSecs_of_ttl? {secs : Nat} (h : ttl? (.ofSecs secs) ≠ none) : windowSecs (.ofSecs secs) = secs := by
  obtain ⟨ttl, httl⟩ := Option.ne_none_iff_exists'.1 h
  have hshort := secs_of_ttl? httl
  simp only [Duration.ofSecs, maxTtl] at hshort
  simp only [windowSecs, Duration.ofSecs, Text.maxInt64]
  omega

theorem countP_le_add {α : Type} {p q r : α → Bool} (h : ∀ x, p x = true → q x = true ∨ r x = true) (l : List α) :
    l.countP p ≤ l.countP q + l.countP r := by
  induction l with
  | nil => simp
  | cons x l ih =>
    simp only [List.countP_cons]
    by_cases hp : p x = true
    · rcases h x hp with hx | hx
      · rw [if_pos hp, if_pos hx]
        omega
      · rw [if_pos hp, if_pos hx]
        omega
    · rw [if_neg hp]
      omega

/-- **Bursts are bounded by twice the limit.** Whatever else is inquired about, and also when the clock steps back by a
second, no interval as long as a window holds more than twice its limit of granted inquiries for a key that always
has the one limit. -/
theorem granted_within_le (stem : String) {secs : Nat} (hsecs : 1 ≤ secs) {limit : Int} (hlimit : 0 < limit)
    (past : List Inquiry) (hclock : Steady (past.map (·.now))) (key : String)
    (hkey : ∀ x ∈ past, x.key = key → x.limit = limit) (a : Instant) :
    (((granted stem (.ofSecs secs) past).countP fun x =>
        x.key = key ∧ a ≤ x.now ∧ x.now < a.later (Duration.ofSecs secs).toNanos : Nat) : Int) ≤ 2 * limit := by
  by_cases httl : ttl? (.ofSecs secs) = none
  · rw [granted_of_ttl?_none stem hsecs hclock httl, List.countP_nil]
    omega
  · have hlength := windowSecs_of_ttl? httl
    have hfirst := granted_of_window_le stem (.ofSecs secs) hsecs hclock hlimit hkey
      (windowStart a (.ofSecs secs))
    have hsecond := granted_of_window_le stem (.ofSecs secs) hsecs hclock hlimit hkey
      (windowStart a (.ofSecs secs) + secs)
    have hboth : ((granted stem (.ofSecs secs) past).countP fun x =>
        x.key = key ∧ a ≤ x.now ∧ x.now < a.later (Duration.ofSecs secs).toNanos)
          ≤ grantedIn stem (.ofSecs secs) key (windowStart a (.ofSecs secs)) past
            + grantedIn stem (.ofSecs secs) key (windowStart a (.ofSecs secs) + secs) past := by
      apply countP_le_add
      intro x hx
      simp only [Bool.and_eq_true, decide_eq_true_eq] at hx ⊢
      obtain ⟨rfl, hfrom, hto⟩ := hx
      rcases windowStart_within hlength hsecs hfrom hto with hstart | hstart
      · exact Or.inl ⟨rfl, hstart⟩
      · exact Or.inr ⟨rfl, hstart⟩
    omega

/-- Around the end of a minute: the latest inquiry comes first. -/
def aroundTheMinute : List Inquiry :=
  [⟨{ secs := 178 }, "k", 2⟩, ⟨{ secs := 121 }, "k", 2⟩, ⟨{ secs := 120 }, "other", 1⟩, ⟨{ secs := 120 }, "k", 2⟩,
    ⟨{ secs := 119, nanos := 900000000 }, "k", 2⟩, ⟨{ secs := 119, nanos := 600000000 }, "k", 2⟩,
    ⟨{ secs := 119, nanos := 500000000 }, "k", 2⟩]

/-- The bound is reached: a limit of two, and four are granted within a minute. -/
theorem aroundTheMinute_reaches :
    let taken := ((granted "req_limit:" (.ofSecs 60) aroundTheMinute).countP fun x =>
      x.key = "k" ∧ ({ secs := 119, nanos := 500000000 } : Instant) ≤ x.now ∧
        x.now < Instant.later { secs := 119, nanos := 500000000 } (Duration.ofSecs 60).toNanos)
    (taken : Int) ≤ 2 * 2 ∧ taken = 4 := by
  constructor
  · exact granted_within_le "req_limit:" (by decide) (by decide) aroundTheMinute (by unfold Steady; decide) "k"
      (by decide) { secs := 119, nanos := 500000000 }
  · decide +kernel

end Turnstile.Rate
