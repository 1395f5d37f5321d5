import Mathlib.Data.List.Nodup
import Turnstile.Proofs.Rate.Deadlines
/-!
# Counters of recent requests

The counters that a process keeps are those of recent requests. As long as the clock does not go back, a history in
windows of one length leaves a counter for each key and window whose first request is less than the window and a
second old, and none besides (`counters_recent`). Such a counter has counted all requests of its key in its window
and dies when its lifetime has passed since the first of them, whatever came later.

The invariant is `Remembers`. What carries it is that a counter outlives its window (`lt_expiry`): one that has been
dropped is not asked for again, so a counter that is created is that of a first request. Histories have their latest
increment first.
-/

namespace Turnstile.CounterTable

open Time Rate

variable {stem name : String} {window : Duration} {t : CounterTable} {now later : Instant} {x y : Increment}
  {past : List Increment}

/-! ### First requests -/

namespace Increment

/-- What a request is counted for: its key in the window that it lies in. -/
def account (x : Increment) : String × Int := (x.key, windowStart x.now x.window)

def counterName (stem : String) (x : Increment) : String := counterKey stem x.key x.window x.now

/-- When a counter dies that the request creates: after the length of the window and a second. -/
def expiry (x : Increment) : Instant := deadline x.window x.now

theorem counterName_eq_iff : x.counterName stem = y.counterName stem ↔ x.account = y.account := by
  rw [counterName, counterName, counterKey_eq_iff, account, account, Prod.mk.injEq]

/-- A request is younger than the counter of any that was counted with it. -/
theorem lt_expiry (hwindow : 1 ≤ y.window.secs) (hlength : x.window = y.window) (hone : x.account = y.account) :
    x.now < y.expiry := by
  have hstart : windowStart x.now y.window = windowStart y.now y.window := by
    rw [← hlength]
    exact (congrArg Prod.snd hone).trans (by rw [account, hlength])
  have hend : x.now.secs < y.now.secs + windowSecs y.window :=
    lt_add_of_windowStart_eq (windowSecs_pos hwindow) hstart
  have hshort := windowSecs_le y.window
  apply Instant.lt_of_secs_lt
  simp only [expiry, deadline, Instant.later, lifetime, Duration.toNanos]
  omega

end Increment

open Increment

/-- The requests of a history that were the first ones counted for something. -/
def openings : List Increment → List Increment
  | [] => []
  | x :: past => if x.account ∈ past.map account then openings past else x :: openings past

theorem mem_openings_cons :
    y ∈ openings (x :: past) ↔ y ∈ openings past ∨ y = x ∧ x.account ∉ past.map account := by
  rw [openings]
  split
  · next hopened => simp [hopened]
  · next hnew => simp [hnew, or_comm]

theorem openings_sublist (past : List Increment) : (openings past).Sublist past := by
  induction past with
  | nil => exact List.Sublist.refl []
  | cons x past ih =>
    rw [openings]
    split
    · exact ih.cons x
    · exact ih.cons_cons x

/-- Whatever has been counted was counted first for some request. -/
theorem exists_opening {a : String × Int} (h : a ∈ past.map account) : ∃ y ∈ openings past, y.account = a := by
  induction past with
  | nil => cases h
  | cons x past ih =>
    by_cases hopened : a ∈ past.map account
    · obtain ⟨y, hy, hone⟩ := ih hopened
      exact ⟨y, mem_openings_cons.2 (Or.inl hy), hone⟩
    · rcases List.mem_cons.1 h with rfl | hbefore
      · exact ⟨x, mem_openings_cons.2 (Or.inr ⟨rfl, hopened⟩), rfl⟩
      · exact absurd hbefore hopened

/-- No two first requests were counted for the same. -/
theorem nodup_openings (past : List Increment) : ((openings past).map account).Nodup := by
  induction past with
  | nil => exact List.nodup_nil
  | cons x past ih =>
    rw [openings]
    split
    · exact ih
    · next hnew =>
      rw [List.map_cons, List.nodup_cons]
      refine ⟨?_, ih⟩
      intro hmem
      exact hnew (((openings_sublist past).map account).subset hmem)

theorem eq_of_account_eq (hx : x ∈ openings past) (hy : y ∈ openings past) (hone : x.account = y.account) : x = y :=
  List.inj_on_of_nodup_map (nodup_openings past) hx hy hone

/-! ### What is remembered -/

/-- The counter that a first request has led to in a history. -/
def counterOf (past : List Increment) (x : Increment) : Counter where
  count := (past.map account).count x.account
  expiresAt := x.expiry

theorem counterOf_cons (x y : Increment) (past : List Increment) :
    counterOf (x :: past) y =
      { counterOf past y with count := (counterOf past y).count + if x.account = y.account then 1 else 0 } := by
  simp only [counterOf, List.map_cons, List.count_cons, beq_iff_eq]
  split <;> simp

theorem counterOf_cons_of_ne (h : x.account ≠ y.account) : counterOf (x :: past) y = counterOf past y := by
  rw [counterOf_cons, if_neg h]
  rfl

/-- The first requests of a history that are less than their window and a second old. -/
def recent (now : Instant) (past : List Increment) : List Increment :=
  (openings past).filter fun x => now < x.expiry

theorem mem_recent : y ∈ recent now past ↔ y ∈ openings past ∧ now < y.expiry := by
  rw [recent, List.mem_filter, decide_eq_true_eq]

/-- The table holds the counters of the recent first requests and nothing else. -/
def Remembers (stem : String) (now : Instant) (past : List Increment) (t : CounterTable) : Prop :=
  ∀ name c, t.get? name = some c ↔ ∃ y ∈ recent now past, name = y.counterName stem ∧ c = counterOf past y

theorem remembers_empty (stem : String) (now : Instant) : Remembers stem now [] ∅ := by
  intro name c
  constructor
  · intro h
    cases h
  · rintro ⟨y, hy, -⟩
    cases hy

/-- Time passes, and the dead counters are dropped. -/
theorem Remembers.prune (h : Remembers stem now past t) (hlater : now ≤ later) :
    Remembers stem later past (t.prune later) := by
  intro name c
  rw [get?_prune, Option.filter_eq_some_iff, h name c, decide_eq_true_eq]
  constructor
  · rintro ⟨⟨y, hy, hname, rfl⟩, halive⟩
    exact ⟨y, mem_recent.2 ⟨(mem_recent.1 hy).1, halive⟩, hname, rfl⟩
  · rintro ⟨y, hy, hname, rfl⟩
    obtain ⟨hopening, halive⟩ := mem_recent.1 hy
    exact ⟨⟨y, mem_recent.2 ⟨hopening, hlater.trans_lt halive⟩, hname, rfl⟩, halive⟩

/-- The counter of a request after it: that of the first request that was counted for the same. -/
theorem Remembers.counted (h : Remembers stem x.now past t) (hwindow : 1 ≤ window.secs)
    (hlength : ∀ z ∈ x :: past, z.window = window) :
    ∃ y ∈ recent x.now (x :: past), y.account = x.account ∧
      CounterTable.counted x.expiry (t.get? (x.counterName stem)) = counterOf (x :: past) y := by
  have hx := hlength x List.mem_cons_self
  by_cases hopened : x.account ∈ past.map account
  · obtain ⟨y, hy, hone⟩ := exists_opening hopened
    have hsame : y.window = window := hlength y (List.mem_cons_of_mem x ((openings_sublist past).subset hy))
    have halive : x.now < y.expiry := lt_expiry (by rwa [hsame]) (hx.trans hsame.symm) hone.symm
    have hget : t.get? (x.counterName stem) = some (counterOf past y) :=
      (h _ _).2 ⟨y, mem_recent.2 ⟨hy, halive⟩, counterName_eq_iff.2 hone.symm, rfl⟩
    refine ⟨y, mem_recent.2 ⟨mem_openings_cons.2 (Or.inl hy), halive⟩, hone, ?_⟩
    rw [hget, counterOf_cons, if_pos hone.symm]
    rfl
  · have hget : t.get? (x.counterName stem) = none := by
      apply Option.eq_none_iff_forall_ne_some.2
      intro c hc
      obtain ⟨y, hy, hname, -⟩ := (h _ c).1 hc
      have hmem : y ∈ past := (openings_sublist past).subset (mem_recent.1 hy).1
      exact hopened (List.mem_map.2 ⟨y, hmem, (counterName_eq_iff.1 hname).symm⟩)
    refine ⟨x, mem_recent.2 ⟨mem_openings_cons.2 (Or.inr ⟨rfl, hopened⟩), lt_expiry (by rwa [hx]) rfl rfl⟩, rfl, ?_⟩
    rw [hget, counterOf_cons, if_pos rfl, counterOf, List.count_eq_zero_of_not_mem hopened]
    rfl

/-- One more request: its counter is that of a first request, and all others stay as they are. -/
theorem Remembers.insert (h : Remembers stem x.now past t) (hwindow : 1 ≤ window.secs)
    (hlength : ∀ z ∈ x :: past, z.window = window) :
    Remembers stem x.now (x :: past)
      (t.insert (x.counterName stem) (CounterTable.counted x.expiry (t.get? (x.counterName stem)))) := by
  obtain ⟨y, hy, hone, hcounted⟩ := h.counted hwindow hlength
  rw [hcounted]
  intro name c
  by_cases hname : name = x.counterName stem
  · rw [hname, Table.get?_insert_self]
    constructor
    · intro hc
      exact ⟨y, hy, counterName_eq_iff.2 hone.symm, (Option.some.inj hc).symm⟩
    · rintro ⟨z, hz, hzname, rfl⟩
      have hzone : z.account = y.account := (counterName_eq_iff.1 hzname).symm.trans hone.symm
      rw [eq_of_account_eq (mem_recent.1 hz).1 (mem_recent.1 hy).1 hzone]
  · rw [Table.get?_insert_of_ne _ _ hname, h name c]
    have hother {z : Increment} (hz : name = z.counterName stem) : x.account ≠ z.account := by
      intro heq
      exact hname (hz.trans (counterName_eq_iff.2 heq.symm))
    constructor
    · rintro ⟨z, hz, hzname, rfl⟩
      obtain ⟨hopening, halive⟩ := mem_recent.1 hz
      exact ⟨z, mem_recent.2 ⟨mem_openings_cons.2 (Or.inl hopening), halive⟩, hzname,
        (counterOf_cons_of_ne (hother hzname)).symm⟩
    · rintro ⟨z, hz, hzname, rfl⟩
      obtain ⟨hopening, halive⟩ := mem_recent.1 hz
      rcases mem_openings_cons.1 hopening with hopening | ⟨rfl, -⟩
      · exact ⟨z, mem_recent.2 ⟨hopening, halive⟩, hzname, counterOf_cons_of_ne (hother hzname)⟩
      · exact absurd rfl (hother hzname)

/-- A table that remembers has as many counters as there are recent first requests. -/
theorem Remembers.size_eq (h : Remembers stem now past t) : t.size = (recent now past).length := by
  have hnames : ((recent now past).map (counterName stem)).Nodup := by
    have hrecent : ((recent now past).map account).Nodup :=
      (nodup_openings past).sublist (List.filter_sublist.map account)
    refine hrecent.of_map.map_on ?_
    intro y hy z hz heq
    exact List.inj_on_of_nodup_map hrecent hy hz (counterName_eq_iff.1 heq)
  have hperm : (t.entries.map (·.1)).Perm ((recent now past).map (counterName stem)) := by
    refine (List.perm_ext_iff_of_nodup t.nodup hnames).2 ?_
    intro name
    rw [List.mem_map, List.mem_map]
    constructor
    · rintro ⟨⟨name, c⟩, hmem, rfl⟩
      obtain ⟨y, hy, hname, -⟩ := (h name c).1 (t.get?_eq_some_iff.2 hmem)
      exact ⟨y, hy, hname.symm⟩
    · rintro ⟨y, hy, rfl⟩
      exact ⟨_, t.get?_eq_some_iff.1 ((h _ _).2 ⟨y, hy, rfl, rfl⟩), rfl⟩
  have hlength := hperm.length_eq
  rwa [List.length_map, List.length_map] at hlength

/-! ### Histories -/

/-- A history in windows of one length, at readings of a clock that does not go back, whose counters can be given
deadlines. -/
structure Orderly (window : Duration) (past : List Increment) : Prop where
  window_eq : ∀ x ∈ past, x.window = window
  clock : past.Pairwise fun later earlier => earlier.now ≤ later.now
  proper : ∀ x ∈ past, x.now.IsProper
  fits : ∀ x ∈ past, x.expiry.secs ≤ Instant.maxSecs

theorem Orderly.tail (h : Orderly window (x :: past)) : Orderly window past where
  window_eq y hy := h.window_eq y (List.mem_cons_of_mem x hy)
  clock := (List.pairwise_cons.1 h.clock).2
  proper y hy := h.proper y (List.mem_cons_of_mem x hy)
  fits y hy := h.fits y (List.mem_cons_of_mem x hy)

/-- A request whose counter can be given a deadline is counted. -/
theorem increment_of_fits (hwindow : 1 ≤ x.window.secs) (hnow : x.now.IsProper)
    (hfits : x.expiry.secs ≤ Instant.maxSecs) (t : CounterTable) (stem : String) :
    t.increment stem x.now x.key x.window =
      (let c := counted x.expiry ((t.prune x.now).get? (x.counterName stem))
       .ok (.ok c.count, (t.prune x.now).insert (x.counterName stem) c)) := by
  have hnonempty : x.window ≠ .zero := by
    intro hzero
    rw [hzero] at hwindow
    exact absurd hwindow (by decide)
  have hshort : lifetime x.window ≤ maxTtl.toNanos := by
    apply not_lt.1
    intro hlong
    exact absurd hfits (not_le.2 (lt_deadline_of_long hnow hlong))
  have httl : ttl? x.window = some (counterTtl x.window) := ttl?_eq_some_iff.2 ⟨hnonempty, hshort, rfl⟩
  have hadd : x.now.add? (counterTtl x.window) = some x.expiry := (add?_of_ttl? hnow httl).trans (if_pos hfits)
  simp only [increment, httl, hadd, counted, counterName]

/-- A whole history: what is left of the counters at any later reading of the clock. -/
theorem remembers_prune_after (stem : String) (hwindow : 1 ≤ window.secs) (h : Orderly window past)
    (hnow : ∀ x ∈ past, x.now ≤ now) : Remembers stem now past ((after stem past).prune now) := by
  induction past generalizing now with
  | nil => exact (remembers_empty stem now).prune (le_refl now)
  | cons x past ih =>
    have hx := h.window_eq x List.mem_cons_self
    have hbefore : Remembers stem x.now past ((after stem past).prune x.now) :=
      ih h.tail (List.pairwise_cons.1 h.clock).1
    have hcounted := increment_of_fits (by rwa [hx]) (h.proper x List.mem_cons_self)
      (h.fits x List.mem_cons_self) (after stem past) stem
    rw [after, hcounted]
    exact (hbefore.insert hwindow h.window_eq).prune (hnow x List.mem_cons_self)

/-- **The counters are those of recent requests.** However the keys of a history follow one another, its latest
increment is counted together with all others of its key and window, and then there is exactly one counter for each
key and window whose first request is less than the window and a second old: it dies when that time has passed since
the first request, and it has counted all requests of the key in the window. So there are no more counters than
requests in that time. -/
theorem counters_recent (stem : String) (hwindow : 1 ≤ window.secs) (h : Orderly window (x :: past)) :
    ∃ t, (after stem past).increment stem x.now x.key window
        = .ok (.ok (((x :: past).map account).count x.account : Nat), t) ∧
      after stem (x :: past) = t ∧
      (∀ name c, t.get? name = some c ↔
        ∃ y ∈ recent x.now (x :: past), name = y.counterName stem ∧ c = counterOf (x :: past) y) ∧
      t.size = (recent x.now (x :: past)).length ∧
      t.size ≤ (x :: past).countP fun y => x.now < y.expiry := by
  have hx := h.window_eq x List.mem_cons_self
  have hbefore : Remembers stem x.now past ((after stem past).prune x.now) :=
    remembers_prune_after stem hwindow h.tail (List.pairwise_cons.1 h.clock).1
  have hcounted := increment_of_fits (by rwa [hx]) (h.proper x List.mem_cons_self)
    (h.fits x List.mem_cons_self) (after stem past) stem
  obtain ⟨y, -, hone, hcounter⟩ := hbefore.counted hwindow h.window_eq
  have hremembers := hbefore.insert hwindow h.window_eq
  refine ⟨_, ?_, ?_, hremembers, hremembers.size_eq, ?_⟩
  · rw [← hx, hcounted, hcounter, counterOf, hone]
  · rw [after, hcounted]
  · rw [hremembers.size_eq, recent, ← List.countP_eq_length_filter]
    exact (openings_sublist (x :: past)).countP_le

/-- Requests over three minutes, the latest first. -/
def threeMinutes : List Increment :=
  [⟨{ secs := 180 }, "k", .ofSecs 60⟩, ⟨{ secs := 150 }, "k", .ofSecs 60⟩, ⟨{ secs := 121 }, "k", .ofSecs 60⟩,
    ⟨{ secs := 120 }, "k:60", .ofSecs 60⟩, ⟨{ secs := 119, nanos := 500000000 }, "k", .ofSecs 60⟩,
    ⟨{ secs := 119 }, "k", .ofSecs 60⟩]

/-- The counter of the first minute is dropped as soon as its time is over, and the second request of the next minute
has not made its counter live longer. -/
theorem threeMinutes_recent :
    Orderly (.ofSecs 60) threeMinutes ∧
      (after "req_limit:" threeMinutes).size = 3 ∧
      (after "req_limit:" threeMinutes).get? (counterKey "req_limit:" "k" (.ofSecs 60) { secs := 121 })
        = some { count := 2, expiresAt := { secs := 182 } } := by
  have horderly : Orderly (.ofSecs 60) threeMinutes := by
    refine ⟨by decide, by decide, ?_, by decide⟩
    intro x hx
    have hproper : ∀ x ∈ threeMinutes, Instant.inCalendar x.now.secs = true ∧ x.now.nanos < 2000000000 := by decide
    exact ⟨(hproper x hx).1, (hproper x hx).2⟩
  obtain ⟨t, -, rfl, hget, hsize, -⟩ := counters_recent "req_limit:" (by decide) horderly
  have hthree : (recent { secs := 180 } threeMinutes).length = 3 := by decide
  have hsecond : ⟨{ secs := 121 }, "k", .ofSecs 60⟩ ∈ recent { secs := 180 } threeMinutes := by decide
  have hcounter : ({ count := 2, expiresAt := { secs := 182 } } : Counter)
      = counterOf threeMinutes ⟨{ secs := 121 }, "k", .ofSecs 60⟩ := by decide
  exact ⟨horderly, hsize.trans hthree, (hget _ _).2 ⟨_, hsecond, rfl, hcounter⟩⟩

end Turnstile.CounterTable
