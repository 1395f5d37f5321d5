import Turnstile.Proofs.Rate.Window
import Turnstile.Proofs.Remote.Calls
/-!
# One budget on one server

A counter on the server keeps the deadline of the count that created it, and while no count comes after
that deadline the counts of a window are replied one, two, three and so on. So just the first calls up to
the limit are told that they may pass, whatever the clocks of the gateways show (`shared_budget`).

The invariant is `Ranked`, which ties the number that a counter holds to the counts made under its name.
-/

namespace Turnstile.Remote.Fleet

open Time Rate

variable {f : Fleet} {s : State}

/-! ### Deadlines -/

/-- A counter that is there after an event was there before with the same deadline, or the event is the
count that created it. -/
theorem Sound.slot_of_step (h : Sound f s) (e : Event) {name : String} {slot : Slot}
    (hslot : (f.step s e).keyspace.get? name = some slot) :
    (∃ old, s.keyspace.get? name = some old ∧ slot.deadline = old.deadline) ∨
      (s.keyspace.get? name = none ∧ slot.deadline = some (.ofMillis (s.clock.millis + f.ttl)) ∧
        ∃ i, e = .serve i ∧
          (f.step s e).counts = s.counts ++ [{ call := i, name, moment := s.clock, reply := 1 }]) := by
  cases e with
  | call key => exact .inl ⟨slot, hslot, rfl⟩
  | look i now => exact .inl ⟨slot, hslot, rfl⟩
  | finish i => exact .inl ⟨slot, hslot, rfl⟩
  | giveUp i => exact .inl ⟨slot, hslot, rfl⟩
  | pass moment => exact .inl ⟨slot, hslot, rfl⟩
  | lapse dropped => exact .inl ⟨slot, Keyspace.get?_of_get?_lapse hslot, rfl⟩
  | serve i =>
    simp only [Fleet.step] at hslot ⊢
    rcases h.serve_cases i with heq | ⟨c, now, -, -, ⟨n, deadline, hbumps, heq⟩ | ⟨e, heq⟩⟩
    · rw [heq] at hslot
      exact .inl ⟨slot, hslot, rfl⟩
    · rw [heq] at hslot ⊢
      by_cases hname : name = f.nameOf c.key now
      · subst hname
        simp only [Fleet.counted, Table.get?_insert_self] at hslot
        cases hslot
        rcases hbumps with ⟨hfree, rfl, rfl⟩ | ⟨m, hfound, -⟩
        · exact .inr ⟨hfree, rfl, i, rfl, rfl⟩
        · exact .inl ⟨_, hfound, rfl⟩
      · simp only [Fleet.counted, Table.get?_insert_of_ne _ _ hname] at hslot
        exact .inl ⟨slot, hslot, rfl⟩
    · rw [heq] at hslot
      exact .inl ⟨slot, hslot, rfl⟩

/-- A counter was created by a count under its name, and since then it has been there with the deadline
that this count gave it. -/
theorem deadline_since_created (f : Fleet) (start : Moment) (past : List Event) {name : String} {slot : Slot}
    (hslot : (f.after start past).keyspace.get? name = some slot) :
    ∃ later i earlier, past = later ++ .serve i :: earlier ∧
      (f.after start earlier).keyspace.get? name = none ∧
      (f.after start (.serve i :: earlier)).counts = (f.after start earlier).counts
        ++ [{ call := i, name, moment := (f.after start earlier).clock, reply := 1 }] ∧
      ∀ since, since <:+ later → ∃ n,
        (f.after start (since ++ .serve i :: earlier)).keyspace.get? name
          = some { content := .count n,
                   deadline := some (.ofMillis ((f.after start earlier).clock.millis + f.ttl)) } := by
  induction past generalizing slot with
  | nil => cases hslot
  | cons e past ih =>
    have hsound := sound_after f start past
    obtain ⟨n, -, hn⟩ := (hsound.step e).counters name slot hslot
    obtain ⟨content, deadline⟩ := slot
    cases hn
    rcases hsound.slot_of_step e hslot with ⟨old, hold, hdeadline⟩ | ⟨hfree, hdeadline, i, rfl, hcounts⟩
    · obtain ⟨later, i, earlier, rfl, hfree, hcounts, hsince⟩ := ih hold
      refine ⟨e :: later, i, earlier, rfl, hfree, hcounts, fun since hsuffix => ?_⟩
      rcases List.suffix_cons_iff.1 hsuffix with rfl | hsuffix
      · obtain ⟨m, hm⟩ := hsince later List.suffix_rfl
        cases hold.symm.trans hm
        cases hdeadline
        exact ⟨n, hslot⟩
      · exact hsince since hsuffix
    · refine ⟨[], i, past, rfl, hfree, hcounts, fun since hsuffix => ?_⟩
      cases List.suffix_nil.1 hsuffix
      cases hdeadline
      exact ⟨n, hslot⟩

/-! ### Ranks -/

/-- The counts that have been made under a name, in order. -/
def State.countsOf (s : State) (name : String) : List Count := s.counts.filter (·.name = name)

/-- Until the deadline that the first count has given, a counter holds the number of counts under its name,
and each of them has been replied its place among them. -/
structure Ranked (f : Fleet) (s : State) (name : String) : Prop where
  fresh : s.countsOf name = [] → s.keyspace.get? name = none
  live : ∀ first ∈ (s.countsOf name).head?, s.clock.millis < first.moment.millis + f.ttl →
    s.keyspace.get? name = some { content := .count (s.countsOf name).length,
                                  deadline := some (.ofMillis (first.moment.millis + f.ttl)) }
  ranks : ∀ first ∈ (s.countsOf name).head?, ∀ (j : Nat) (x : Count), (s.countsOf name)[j]? = some x →
    x.moment.millis < first.moment.millis + f.ttl → x.reply = j + 1

theorem countsOf_counted (f : Fleet) (s : State) (i : Nat) (key name : String) (n : Int)
    (deadline : Option Instant) (other : String) :
    (f.counted s i key name n deadline).countsOf other = s.countsOf other
      ++ if name = other then [{ call := i, name, moment := s.clock, reply := n }] else [] := by
  simp only [State.countsOf, Fleet.counted, List.filter_append, List.filter_cons, List.filter_nil,
    decide_eq_true_eq]

/-- Within the lifetime of its counter a count is either the first one, or the counter that it bumps holds the
number of those before. -/
theorem Ranked.bumped {name : String} (h : Ranked f s name) {n : Int} {deadline : Option Instant}
    (hbumps : Bumps f s name n deadline) {i : Nat} {first : Count}
    (hfirst : (s.countsOf name ++ [Count.mk i name s.clock n]).head? = some first)
    (hlive : s.clock.millis < first.moment.millis + f.ttl) :
    n = (s.countsOf name).length + 1 ∧ deadline = some (.ofMillis (first.moment.millis + f.ttl)) := by
  rcases hl : s.countsOf name with _ | ⟨x, rest⟩
  · rw [hl] at hfirst
    cases hfirst
    rcases hbumps with ⟨-, rfl, rfl⟩ | ⟨m, hfound, -⟩
    · exact ⟨rfl, rfl⟩
    · cases (h.fresh hl).symm.trans hfound
  · rw [hl] at hfirst
    obtain rfl : x = first := Option.some.inj hfirst
    have hheld := h.live x (by rw [hl]; rfl) hlive
    rcases hbumps with ⟨hfree, -⟩ | ⟨m, hfound, -, rfl⟩
    · cases hfree.symm.trans hheld
    · cases hfound.symm.trans hheld
      rw [hl]
      exact ⟨rfl, rfl⟩

theorem Ranked.counted {name : String} (h : Ranked f s name) {n : Int} {deadline : Option Instant}
    (hbumps : Bumps f s name n deadline) (i : Nat) (key : String) :
    Ranked f (f.counted s i key name n deadline) name := by
  have hcounts : (f.counted s i key name n deadline).countsOf name
      = s.countsOf name ++ [{ call := i, name, moment := s.clock, reply := n }] := by
    rw [countsOf_counted, if_pos rfl]
  have hslot : (f.counted s i key name n deadline).keyspace.get? name
      = some { content := .count n, deadline } := Table.get?_insert_self _ _ _
  refine ⟨?_, ?_, ?_⟩
  · intro hnil
    rw [hcounts] at hnil
    simp at hnil
  · intro first hfirst hlive
    rw [hcounts] at hfirst
    obtain ⟨rfl, rfl⟩ := h.bumped hbumps hfirst hlive
    rw [hslot, hcounts, List.length_append]
    rfl
  · intro first hfirst j x hx hlive
    rw [hcounts] at hfirst hx
    rw [List.getElem?_append] at hx
    split at hx
    · next hj =>
      have hfirst : (s.countsOf name).head? = some first := by
        rcases hl : s.countsOf name with _ | ⟨y, rest⟩
        · rw [hl] at hj
          cases hj
        · rwa [hl] at hfirst
      exact h.ranks first hfirst j x hx hlive
    · next hj =>
      rw [List.getElem?_singleton] at hx
      split at hx
      · next hzero =>
        cases hx
        have hlast := (h.bumped hbumps hfirst hlive).1
        dsimp only
        omega
      · cases hx

/-- Nothing changes for a name by a count under another one. -/
theorem Ranked.counted_other {name other : String} (h : Ranked f s name) (hne : name ≠ other) (i : Nat)
    (key : String) (n : Int) (deadline : Option Instant) :
    Ranked f (f.counted s i key other n deadline) name := by
  have hcounts : (f.counted s i key other n deadline).countsOf name = s.countsOf name := by
    rw [countsOf_counted, if_neg hne.symm, List.append_nil]
  have hslot : (f.counted s i key other n deadline).keyspace.get? name = s.keyspace.get? name :=
    Table.get?_insert_of_ne _ _ hne
  constructor
  · rw [hcounts, hslot]
    exact h.fresh
  · rw [hcounts, hslot]
    exact h.live
  · rw [hcounts]
    exact h.ranks

theorem Ranked.serve {name : String} (h : Ranked f s name) (hsound : Sound f s) (i : Nat) :
    Ranked f (s.serve i) name := by
  rcases hsound.serve_cases i with heq | ⟨c, now, -, -, ⟨n, deadline, hbumps, heq⟩ | ⟨e, heq⟩⟩
  · rwa [heq]
  · rw [heq]
    by_cases hname : name = f.nameOf c.key now
    · subst hname
      exact h.counted hbumps i c.key
    · exact h.counted_other hname i c.key n deadline
  · rw [heq]
    exact ⟨h.fresh, h.live, h.ranks⟩

theorem le_later (a b : Moment) : a.millis ≤ (a.later b).millis := by
  unfold Moment.later
  split
  · assumption
  · exact Int.le_refl _

theorem Ranked.lapse {name : String} (h : Ranked f s name) (dropped : String) :
    Ranked f (f.step s (.lapse dropped)) name where
  fresh hnil := by
    rcases hslot : (f.step s (.lapse dropped)).keyspace.get? name with _ | slot
    · rfl
    · cases (h.fresh hnil).symm.trans (Keyspace.get?_of_get?_lapse hslot)
  live first hfirst hlive :=
    Keyspace.get?_lapse_of_lt (h.live first hfirst hlive) (Instant.ofMillis_lt_ofMillis_iff.2 hlive)
  ranks := h.ranks

theorem Ranked.step {name : String} (h : Ranked f s name) (hsound : Sound f s) (e : Event) :
    Ranked f (f.step s e) name := by
  cases e with
  | call key => exact ⟨h.fresh, h.live, h.ranks⟩
  | look i now => exact ⟨h.fresh, h.live, h.ranks⟩
  | serve i => exact h.serve hsound i
  | finish i => exact ⟨h.fresh, h.live, h.ranks⟩
  | giveUp i => exact ⟨h.fresh, h.live, h.ranks⟩
  | pass moment =>
    refine ⟨h.fresh, fun first hfirst hlive => h.live first hfirst ?_, h.ranks⟩
    exact Int.lt_of_le_of_lt (le_later s.clock moment) hlive
  | lapse dropped => exact h.lapse dropped

theorem ranked_after (f : Fleet) (start : Moment) (past : List Event) (name : String) :
    Ranked f (f.after start past) name := by
  induction past with
  | nil => exact ⟨fun _ => rfl, fun _ h => (by cases h), fun _ h => (by cases h)⟩
  | cons e past ih => exact ih.step (sound_after f start past) e

/-! ### Answers -/

/-- All counts of a counter come within the lifetime that the first of them has given it. -/
def Timely (f : Fleet) (counts : List Count) : Prop :=
  ∀ first ∈ counts.head?, ∀ x ∈ counts, x.moment.millis < first.moment.millis + f.ttl

theorem isSome_ending_of_isAllowed {c : Call} (h : c.isAllowed = true) : c.ending.isSome = true := by
  rcases hending : c.ending with _ | ending
  · simp [Call.isAllowed, hending] at h
  · rfl

/-- A call that has ended was told that it may pass just if it was not given up and its count is one of
the first up to the limit. -/
theorem isAllowed_iff (hsound : Sound f s) {key : String} {now : Instant}
    (hranked : Ranked f s (f.nameOf key now)) (htimely : Timely f (s.countsOf (f.nameOf key now))) {j : Nat}
    {x : Count} (hx : (s.countsOf (f.nameOf key now))[j]? = some x) {c : Call}
    (hc : s.calls[x.call]? = some c) (hended : c.ending.isSome = true) :
    c.isAllowed = true ↔ c.isGivenUp = false ∧ j < (f.limit key).toNat := by
  have hmem : x ∈ s.countsOf (f.nameOf key now) := List.mem_of_getElem? hx
  obtain ⟨hcounts, hname⟩ := List.mem_filter.1 hmem
  obtain ⟨c', hc', hrest, now', hname'⟩ := hsound.counts x hcounts
  cases hc.symm.trans hc'
  obtain ⟨rfl, -⟩ : key = c.key ∧ _ := counterKey_eq_iff.1 ((of_decide_eq_true hname).symm.trans hname')
  have hrank : x.reply = j + 1 := by
    rcases hhead : (s.countsOf (f.nameOf c.key now)).head? with _ | first
    · rw [List.head?_eq_none_iff.1 hhead] at hmem
      cases hmem
    · exact hranked.ranks first hhead j x hx (htimely first hhead x hmem)
  rcases hending : c.ending with _ | ⟨a⟩ | _
  · rw [hending] at hended
    cases hended
  · cases (hsound.endings _ c hc a hending).symm.trans hrest
    simp only [Call.isAllowed, Call.isGivenUp, hending, hrank, decide_eq_true_eq, true_and]
    omega
  · simp [Call.isAllowed, Call.isGivenUp, hending]

theorem mem_map_take_iff {α β : Type} {l : List α} {g : α → β} {n : Nat} {b : β} :
    b ∈ (l.take n).map g ↔ ∃ j a, l[j]? = some a ∧ g a = b ∧ j < n := by
  constructor
  · intro h
    obtain ⟨a, ha, rfl⟩ := List.mem_map.1 h
    obtain ⟨j, hj⟩ := List.mem_iff_getElem?.1 ha
    rw [List.getElem?_take] at hj
    split at hj
    · next hlt => exact ⟨j, a, hj, rfl, hlt⟩
    · cases hj
  · rintro ⟨j, a, ha, rfl, hj⟩
    have htake : (l.take n)[j]? = some a := by rw [List.getElem?_take, if_pos hj, ha]
    exact List.mem_map_of_mem (List.mem_of_getElem? htake)

/-- A call that may pass has been counted for its own key. -/
theorem Sound.counted_of_isAllowed (h : Sound f s) {i : Nat} {c : Call} (hc : s.calls[i]? = some c)
    (hallowed : c.isAllowed = true) : ∃ now, i ∈ (s.countsOf (f.nameOf c.key now)).map (·.call) := by
  obtain ⟨ending, hending⟩ := Option.isSome_iff_exists.1 (isSome_ending_of_isAllowed hallowed)
  simp only [Call.isAllowed, hending] at hallowed
  split at hallowed
  · next answer heq =>
    cases heq
    subst hallowed
    have hdone := h.endings i c hc _ hending
    cases h.calls i c hc with
    | refused e hrest => cases hdone.symm.trans hrest
    | begun hrest => cases hdone.symm.trans hrest
    | sent now hrest => cases hdone.symm.trans hrest
    | answered x hx hcall hanswered =>
      obtain ⟨-, now, hname⟩ := hanswered
      exact ⟨now, List.mem_map.2 ⟨x, List.mem_filter.2 ⟨hx, decide_eq_true hname⟩, hcall⟩⟩
  · cases hallowed

/-- **Gateways on one server share one budget.** After any history of calls made, answered and given up at
any number of gateways with any clocks:

* a counter that is there has the deadline that was given to it by the count that created it, one lifetime
  after that count, and has had it at every moment since;
* of the calls that have ended and were counted for a key in a window, those are told that they may pass
  that were not given up and are among the first counts up to the limit of the key, provided that no count
  comes a lifetime or more after the first; so they are never more than the limit;
* a call that is told so has been counted for its key. -/
theorem shared_budget (f : Fleet) (start : Moment) (past : List Event) :
    (∀ name slot, (f.after start past).keyspace.get? name = some slot →
      ∃ later i earlier, past = later ++ .serve i :: earlier ∧
        (f.after start earlier).keyspace.get? name = none ∧
        (f.after start (.serve i :: earlier)).counts = (f.after start earlier).counts
          ++ [{ call := i, name, moment := (f.after start earlier).clock, reply := 1 }] ∧
        ∀ since, since <:+ later → ∃ n,
          (f.after start (since ++ .serve i :: earlier)).keyspace.get? name
            = some { content := .count n,
                     deadline := some (.ofMillis ((f.after start earlier).clock.millis
                       + (f.windowSecs * 1000 + 1000))) }) ∧
    (∀ key now, Timely f ((f.after start past).countsOf (counterKey f.stem key f.window now)) →
      (∀ (i : Nat) (c : Call), (f.after start past).calls[i]? = some c → c.ending.isSome = true →
        (c.isAllowed = true ∧
            i ∈ ((f.after start past).countsOf (counterKey f.stem key f.window now)).map (·.call)
          ↔ c.isGivenUp = false ∧
            i ∈ (((f.after start past).countsOf (counterKey f.stem key f.window now)).take
              (f.limit key).toNat).map (·.call))) ∧
      (((f.after start past).countsOf (counterKey f.stem key f.window now)).filter fun x =>
        (f.after start past).calls[x.call]?.any Call.isAllowed).length ≤ (f.limit key).toNat) ∧
    ∀ (i : Nat) (c : Call), (f.after start past).calls[i]? = some c → c.isAllowed = true →
      ∃ now, i ∈ ((f.after start past).countsOf (counterKey f.stem c.key f.window now)).map (·.call) := by
  have hsound := sound_after f start past
  refine ⟨fun name slot hslot => deadline_since_created f start past hslot, ?_,
    fun i c hc hallowed => hsound.counted_of_isAllowed hc hallowed⟩
  intro key now htimely
  have hranked := ranked_after f start past (f.nameOf key now)
  constructor
  · intro i c hc hended
    rw [mem_map_take_iff]
    constructor
    · rintro ⟨hallowed, hmem⟩
      obtain ⟨x, hx, rfl⟩ := List.mem_map.1 hmem
      obtain ⟨j, hj⟩ := List.mem_iff_getElem?.1 hx
      obtain ⟨hgiven, hlt⟩ := (isAllowed_iff hsound hranked htimely hj hc hended).1 hallowed
      exact ⟨hgiven, j, x, hj, rfl, hlt⟩
    · rintro ⟨hgiven, j, x, hj, rfl, hlt⟩
      exact ⟨(isAllowed_iff hsound hranked htimely hj hc hended).2 ⟨hgiven, hlt⟩,
        List.mem_map_of_mem (List.mem_of_getElem? hj)⟩
  · -- Behind the first counts up to the limit there is no call that may pass.
    have hbehind : (((f.after start past).countsOf (f.nameOf key now)).drop (f.limit key).toNat).filter
        (fun x => (f.after start past).calls[x.call]?.any Call.isAllowed) = [] := by
      refine List.filter_eq_nil_iff.2 fun x hx hpass => ?_
      obtain ⟨j, hj⟩ := List.mem_iff_getElem?.1 hx
      rw [List.getElem?_drop] at hj
      obtain ⟨c, hc, hallowed⟩ := Option.any_eq_true _ _ |>.1 hpass
      have hlt := ((isAllowed_iff hsound hranked htimely hj hc
        (isSome_ending_of_isAllowed hallowed)).1 hallowed).2
      omega
    have hsplit := List.take_append_drop (f.limit key).toNat
      ((f.after start past).countsOf (f.nameOf key now))
    have hlength := List.length_filter_le
      (fun x : Count => (f.after start past).calls[x.call]?.any Call.isAllowed)
      (((f.after start past).countsOf (f.nameOf key now)).take (f.limit key).toNat)
    have htake := List.length_take_le (f.limit key).toNat
      ((f.after start past).countsOf (f.nameOf key now))
    change (((f.after start past).countsOf (f.nameOf key now)).filter _).length ≤ _
    rw [← hsplit, List.filter_append, hbehind, List.append_nil]
    omega

/-- Gateways that let every key pass twice a minute. -/
def twiceAMinute : Fleet := { windowSecs := 60, limit := fun _ => 2 }

/-- Three calls of one key. The clocks of their gateways differ, the first call is given up while its command
is on its way, and the last count is made in the last millisecond of the counter. -/
def threeCalls : List Event :=
  [.finish 2, .serve 2, .pass { millis := 60999 }, .finish 1, .serve 0, .giveUp 0, .serve 1,
    .look 2 { secs := 659 }, .look 1 { secs := 601 }, .look 0 { secs := 630 }, .call "k", .call "k", .call "k"]

/-- Of the three calls the second may pass; the first is counted as well. -/
theorem second_call_allowed :
    ∃ s c, s = twiceAMinute.after { millis := 0 } threeCalls ∧
      Timely twiceAMinute (s.countsOf (counterKey "req_limit:" "k" (.ofSecs 60) { secs := 600 })) ∧
      (s.countsOf (counterKey "req_limit:" "k" (.ofSecs 60) { secs := 600 })).map (·.call) = [1, 0, 2] ∧
      s.calls[1]? = some c ∧ c.isAllowed = true := by
  have htimely : Timely twiceAMinute ((twiceAMinute.after { millis := 0 } threeCalls).countsOf
      (counterKey "req_limit:" "k" (.ofSecs 60) { secs := 600 })) := by
    unfold Timely
    decide +kernel
  have hanswered : (twiceAMinute.after { millis := 0 } threeCalls).calls[1]?.any
      (fun c => c.ending.isSome && !c.isGivenUp) = true := by decide +kernel
  obtain ⟨c, hc, hended⟩ := (Option.any_eq_true _ _).1 hanswered
  simp only [Bool.and_eq_true, Bool.not_eq_true'] at hended
  have hbudget := (shared_budget twiceAMinute { millis := 0 } threeCalls).2.1 "k" { secs := 600 } htimely
  have hallowed := (hbudget.1 1 c hc hended.1).2 ⟨hended.2, by decide +kernel⟩
  exact ⟨_, c, rfl, htimely, by decide +kernel, hc, hallowed.1⟩

end Turnstile.Remote.Fleet
