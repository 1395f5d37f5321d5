import Mathlib.Order.Defs.LinearOrder
import Turnstile.Claims
import Turnstile.Proofs.Time.Calendar
/-!
# The order of instants

Instants are ordered by second, then by nanosecond. The order is linear, so what does not lie after an
instant lies at it or before it; a lifetime of whole seconds added to an instant leads past everything in
the seconds before (`secs_le_of_add?`).
-/

namespace Turnstile.Time.Instant

variable {a b t : Instant}

theorem le_iff : a ≤ b ↔ a.secs < b.secs ∨ (a.secs = b.secs ∧ a.nanos ≤ b.nanos) := Iff.rfl

theorem lt_iff : a < b ↔ a.secs < b.secs ∨ (a.secs = b.secs ∧ a.nanos < b.nanos) := Iff.rfl

instance : LinearOrder Instant where
  le_refl a := le_iff.2 (by omega)
  le_trans a b c hab hbc := by
    rw [le_iff] at *
    omega
  le_antisymm a b hab hba := by
    rw [le_iff] at hab hba
    obtain ⟨s, n⟩ := a
    obtain ⟨s', n'⟩ := b
    simp only [Instant.mk.injEq]
    dsimp only at hab hba
    omega
  lt_iff_le_not_ge a b := by
    rw [le_iff, le_iff, lt_iff]
    omega
  le_total a b := by
    rw [le_iff, le_iff]
    omega
  toDecidableLE := inferInstance
  toDecidableLT := inferInstance

theorem lt_of_secs_lt (h : a.secs < b.secs) : a < b := Or.inl h

theorem secs_le_of_le (h : a ≤ b) : a.secs ≤ b.secs := by
  rw [le_iff] at h
  omega

theorem ofMillis_lt_ofMillis_iff {m n : Int} : ofMillis m < ofMillis n ↔ m < n := by
  obtain ⟨hm, hm0, hm1⟩ := fdiv_fmod_spec m (show (0 : Int) < 1000 by decide)
  obtain ⟨hn, hn0, hn1⟩ := fdiv_fmod_spec n (show (0 : Int) < 1000 by decide)
  rw [lt_iff]
  simp only [ofMillis]
  omega

/-- A deadline that whole seconds lead to lies in the calendar. -/
theorem secs_le_maxSecs_of_add? {d : Duration} (h : t.add? d = some b) (hd : d.secs ≠ 0) :
    b.secs ≤ maxSecs := by
  unfold add? at h
  rw [if_neg (fun hleap => hd hleap.2.1), Option.ite_none_right_eq_some] at h
  obtain ⟨hcalendar, h⟩ := h
  cases h
  simp only [inCalendar, Bool.and_eq_true, decide_eq_true_eq] at hcalendar
  exact hcalendar.2

/-- A deadline lies at least the whole seconds of the lifetime away. -/
theorem secs_le_of_add? {d : Duration} (h : t.add? d = some b) : t.secs + d.secs ≤ b.secs := by
  unfold add? at h
  split at h
  · next hleap =>
    cases h
    rw [hleap.2.1]
    simp
  · rw [Option.ite_none_right_eq_some] at h
    obtain ⟨-, h⟩ := h
    cases h
    dsimp only
    omega

/-! ### Later instants -/

/-- The instants that there are: those of the calendar, with at most one leap second after each second. -/
structure IsProper (t : Instant) : Prop where
  inCalendar : inCalendar t.secs = true
  nanos_lt : t.nanos < 2000000000

/-- The instant some nanoseconds later, in the calendar or not. A leap second counts as the second that it is
attached to. -/
def later (t : Instant) (nanos : Nat) : Instant where
  secs := t.secs + ((t.nanos % 1000000000 + nanos) / 1000000000 : Nat)
  nanos := (t.nanos % 1000000000 + nanos) % 1000000000

theorem secs_le_later (t : Instant) (nanos : Nat) : t.secs ≤ (t.later nanos).secs := by
  simp only [later]
  omega

theorem inCalendar_later_iff (h : t.IsProper) (nanos : Nat) :
    inCalendar (t.later nanos).secs = true ↔ (t.later nanos).secs ≤ maxSecs := by
  have hmin : minSecs ≤ t.secs := (inCalendar_iff.1 h.inCalendar).1
  rw [inCalendar_iff]
  exact ⟨fun hlater => hlater.2, fun hmax => ⟨hmin.trans (t.secs_le_later nanos), hmax⟩⟩

/-- A duration of a second and more leads to the instant its nanoseconds later. -/
theorem add?_eq_later {d : Duration} (h : t.IsProper) (hd : d.secs ≠ 0) :
    t.add? d = if (t.later d.toNanos).secs ≤ maxSecs then some (t.later d.toNanos) else none := by
  have hnanos : (if t.inLeapSecond then t.nanos - 1000000000 else t.nanos) = t.nanos % 1000000000 := by
    have hlt := h.nanos_lt
    simp only [inLeapSecond, decide_eq_true_eq]
    split <;> omega
  have hsecs : t.secs + d.secs + ((t.nanos % 1000000000 + d.nanos) / 1000000000 : Nat)
      = (t.later d.toNanos).secs := by
    simp only [later, Duration.toNanos]
    omega
  have hrest : (t.nanos % 1000000000 + d.nanos) % 1000000000 = (t.later d.toNanos).nanos := by
    simp only [later, Duration.toNanos]
    omega
  rw [add?, if_neg fun hleap => hd hleap.2.1]
  simp only [hnanos, hsecs, hrest, inCalendar_later_iff h]

end Turnstile.Time.Instant

namespace Turnstile.Claims

open Time

/-- Claims are alive until the instant of their expiry, if the calendar has it. -/
theorem isExpiredAt_eq (c : Claims) (now : Instant) :
    c.isExpiredAt now = !c.expiration.any (now < ·) := by
  unfold isExpiredAt
  cases c.expiration with
  | none => rfl
  | some t => simp [← not_lt]

theorem isExpiredAt_eq_false_iff {c : Claims} {now : Instant} :
    c.isExpiredAt now = false ↔ ∃ t, c.expiration = some t ∧ now < t := by
  simp [isExpiredAt_eq, Option.any_eq_true]

end Turnstile.Claims
