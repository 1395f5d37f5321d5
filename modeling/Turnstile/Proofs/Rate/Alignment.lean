import Turnstile.Proofs.Rate.Window
import Turnstile.Proofs.Time.Instant
/-!
# Alignment

Windows are numbered from the beginning of 1970, those before it with negative numbers, and an instant lies in
exactly one of them (`inWindow_iff`). The start of its window is computed in signed 64 bits, from a division that
rounds towards zero. No step of that leaves the 64 bits for an instant of the calendar, however long the window is
(`windowStart64?_eq`), so what is computed is the exact start (`windowStart_aligned`).
-/

namespace Turnstile.Rate

open Time Text

variable {window : Duration} {t u : Instant} {a b n : Int}

/-! ### The window of an instant -/

/-- How many seconds a window spans: one that is shorter than a second spans the current second. -/
def span (window : Duration) : Int := max 1 (windowSecs window)

theorem span_pos (window : Duration) : 0 < span window := by
  unfold span
  omega

theorem windowSecs_nonneg (window : Duration) : 0 ≤ windowSecs window := by
  unfold windowSecs
  omega

theorem windowStart_of_short (h : windowSecs window = 0) (t : Instant) : windowStart t window = t.secs :=
  if_pos h

theorem windowStart_eq_span (t : Instant) (window : Duration) :
    windowStart t window = t.secs / span window * span window := by
  by_cases hshort : windowSecs window = 0
  · have hspan : span window = 1 := by
      rw [span, hshort]
      rfl
    rw [windowStart_of_short hshort, hspan, Int.ediv_one, Int.mul_one]
  · have hnonneg := windowSecs_nonneg window
    have hspan : span window = windowSecs window := by
      unfold span
      omega
    rw [hspan, ← Int.fdiv_eq_ediv_of_nonneg _ hnonneg]
    exact if_neg hshort

/-- The instant lies in the window with a number. -/
def InWindow (window : Duration) (n : Int) (t : Instant) : Prop :=
  n * span window ≤ t.secs ∧ t.secs < (n + 1) * span window

theorem inWindow_iff : InWindow window n t ↔ windowStart t window = n * span window := by
  have hpos := span_pos window
  rw [windowStart_eq_span, Int.mul_eq_mul_right_iff (Int.ne_of_gt hpos), Int.ediv_eq_iff_of_pos hpos, InWindow,
    Int.add_mul, Int.one_mul]

/-- Two instants have one start just if some window holds them both. -/
theorem windowStart_eq_iff :
    windowStart t window = windowStart u window ↔ ∃ n, InWindow window n t ∧ InWindow window n u := by
  constructor
  · intro heq
    have hu : windowStart u window = u.secs / span window * span window := windowStart_eq_span u window
    exact ⟨u.secs / span window, inWindow_iff.2 (heq.trans hu), inWindow_iff.2 hu⟩
  · rintro ⟨n, ht, hu⟩
    exact (inWindow_iff.1 ht).trans (inWindow_iff.1 hu).symm

/-- A later instant lies in the same window or in a later one. -/
theorem windowStart_mono (h : t ≤ u) (window : Duration) : windowStart t window ≤ windowStart u window := by
  have hpos := span_pos window
  have hnumbers : t.secs / span window ≤ u.secs / span window :=
    Int.ediv_le_ediv hpos (Instant.secs_le_of_le h)
  rw [windowStart_eq_span, windowStart_eq_span]
  exact Int.mul_le_mul_of_nonneg_right hnumbers (Int.le_of_lt hpos)

/-! ### In 64 bits -/

/-- A number in signed 64 bits; `none` says that it has left them. -/
def word? (n : Int) : Option Int := if IsInt64 n then some n else none

/-- The quotient that leaves no negative remainder, from a division that rounds towards zero. -/
def quotient64? (a b : Int) : Option Int :=
  if b = 0 then none
  else do
    let q ← word? (a.tdiv b)
    let r ← word? (a.tmod b)
    if r < 0 then word? (if 0 < b then q - 1 else q + 1) else return q

/-- The start of the window of an instant, computed in signed 64 bits. -/
def windowStart64? (now : Instant) (window : Duration) : Option Int := do
  let second ← word? now.secs
  let length := (word? window.secs).getD maxInt64
  if length ≤ 0 then return second
  let number ← quotient64? second length
  word? (number * length)

theorem word?_of_isInt64 (h : IsInt64 n) : word? n = some n := if_pos h

theorem isInt64_of_natAbs_le (h : n.natAbs ≤ maxInt64) : IsInt64 n := by
  unfold IsInt64
  omega

/-- The length of a window that is too long for 64 bits is the longest one. -/
theorem getD_word?_secs (window : Duration) : (word? window.secs).getD maxInt64 = windowSecs window := by
  unfold windowSecs
  by_cases hfits : IsInt64 window.secs
  · rw [word?_of_isInt64 hfits, Option.getD_some]
    unfold IsInt64 at hfits
    omega
  · rw [word?, if_neg hfits, Option.getD_none]
    unfold IsInt64 at hfits
    omega

/-- Rounding towards zero is made good by one where a remainder is negative. -/
theorem quotient64?_eq (ha : a.natAbs ≤ maxInt64) (hb : 0 < b) : quotient64? a b = some (a / b) := by
  have hquotient : IsInt64 (a.tdiv b) := by
    apply isInt64_of_natAbs_le
    exact (Int.natAbs_tdiv_le_natAbs a b).trans ha
  have hremainder : IsInt64 (a.tmod b) := by
    apply isInt64_of_natAbs_le
    rw [Int.natAbs_tmod]
    exact (Nat.mod_le _ _).trans ha
  have hfloor : IsInt64 (a / b) := by
    apply isInt64_of_natAbs_le
    exact (Int.natAbs_ediv_le_natAbs a b).trans ha
  rw [quotient64?, if_neg (Int.ne_of_gt hb), word?_of_isInt64 hquotient, word?_of_isInt64 hremainder]
  show (if a.tmod b < 0 then word? (if 0 < b then a.tdiv b - 1 else a.tdiv b + 1) else some (a.tdiv b)) =
    some (a / b)
  rw [if_pos hb]
  by_cases hexact : 0 ≤ a ∨ b ∣ a
  · have hdiv : a.tdiv b = a / b := by
      rw [Int.tdiv_eq_ediv, if_pos hexact, Int.add_zero]
    have hmod : a.tmod b = a % b := by
      rw [Int.tmod_eq_emod, if_pos hexact]
      exact Int.sub_zero _
    have hnonneg := Int.emod_nonneg a (Int.ne_of_gt hb)
    rw [hdiv, hmod, if_neg (Int.not_lt.2 hnonneg)]
  · have hdiv : a.tdiv b = a / b + 1 := by
      rw [Int.tdiv_eq_ediv, if_neg hexact, Int.sign_eq_one_of_pos hb]
    have hmod : a.tmod b < 0 := by
      have hlt := Int.emod_lt_of_pos a hb
      rw [Int.tmod_eq_emod, if_neg hexact]
      omega
    rw [hdiv, if_pos hmod, Int.add_sub_cancel, word?_of_isInt64 hfloor]

/-- The start of a window lies in the 64 bits, although its length may fill them. In the last window before 1970 the
start is the length itself below zero. In an earlier one the length is less than what lies between the instant and
1970, so the start lies less than twice as far from 1970 as the instant. -/
theorem isInt64_product (hmin : Instant.minSecs ≤ a) (hmax : a ≤ Instant.maxSecs) (hb : 0 < b) (hlong : b ≤ maxInt64) :
    IsInt64 (a / b * b) := by
  have hle : a / b * b ≤ a := Int.ediv_mul_le a (Int.ne_of_gt hb)
  have hlt : a < (a / b + 1) * b := Int.lt_ediv_add_one_mul_self a hb
  have hcases : 0 ≤ a / b ∨ a / b = -1 ∨ a / b + 1 ≤ -1 := by omega
  unfold Instant.minSecs at hmin
  unfold Instant.maxSecs at hmax
  unfold IsInt64 maxInt64 at *
  rcases hcases with hafter | hlast | hbefore
  · have hnonneg : 0 ≤ a / b * b := Int.mul_nonneg hafter (Int.le_of_lt hb)
    omega
  · rw [hlast]
    omega
  · have hlength : (a / b + 1) * b ≤ -1 * b := Int.mul_le_mul_of_nonneg_right hbefore (Int.le_of_lt hb)
    rw [Int.add_mul] at hlt hlength
    omega

/-- Nothing overflows on the way to the start of a window. -/
theorem windowStart64?_eq (ht : Instant.inCalendar t.secs = true) (window : Duration) :
    windowStart64? t window = some (windowStart t window) := by
  obtain ⟨hmin, hmax⟩ := Instant.inCalendar_iff.1 ht
  have habs : t.secs.natAbs ≤ maxInt64 := by
    unfold Instant.minSecs at hmin
    unfold Instant.maxSecs at hmax
    unfold maxInt64
    omega
  have hsecond : word? t.secs = some t.secs := word?_of_isInt64 (isInt64_of_natAbs_le habs)
  have hnonneg := windowSecs_nonneg window
  simp only [windowStart64?, hsecond, getD_word?_secs, Option.bind_eq_bind, Option.bind_some]
  by_cases hshort : windowSecs window = 0
  · rw [if_pos (by omega), windowStart_of_short hshort]
    rfl
  · have hpos : 0 < windowSecs window := by omega
    have hlong : windowSecs window ≤ maxInt64 := by
      unfold windowSecs
      omega
    have hproduct : t.secs / windowSecs window * windowSecs window = windowStart t window := by
      rw [windowStart, ← Int.fdiv_eq_ediv_of_nonneg _ hnonneg]
      exact (if_neg hshort).symm
    rw [if_neg (by omega), quotient64?_eq habs hpos, Option.bind_some,
      word?_of_isInt64 (isInt64_product hmin hmax hpos hlong), hproduct]

/-! ### Exact starts -/

/-- **The start of a window is exact**: for every instant of the calendar, be it before 1970, and for windows of any
length, its computation does not overflow. Windows of less than a second start with the second of the instant; the
start of any other is the multiple of its length that precedes the instant. Starts keep the order of instants, and
two instants have one start just if they lie in one window. -/
theorem windowStart_aligned (window : Duration) {t : Instant} (ht : Instant.inCalendar t.secs = true) :
    windowStart64? t window = some (windowStart t window) ∧
      (windowSecs window = 0 → windowStart t window = t.secs) ∧
      (windowSecs window ≠ 0 → windowSecs window ∣ windowStart t window ∧
        windowStart t window ≤ t.secs ∧ t.secs < windowStart t window + windowSecs window) ∧
      ∀ u : Instant, (t ≤ u → windowStart t window ≤ windowStart u window) ∧
        (windowStart t window = windowStart u window ↔ ∃ n, InWindow window n t ∧ InWindow window n u) := by
  refine ⟨windowStart64?_eq ht window, ?_, ?_, ?_⟩
  · intro hshort
    exact windowStart_of_short hshort t
  · intro hlong
    have hnonneg := windowSecs_nonneg window
    have hpos : 0 < windowSecs window := by omega
    exact ⟨windowSecs_dvd_windowStart hpos t, windowStart_le hpos, lt_windowStart_add hpos⟩
  · intro u
    exact ⟨fun hle => windowStart_mono hle window, windowStart_eq_iff⟩

/-- Half a second past 23:59:29, on the last day before 1970. -/
def eve : Instant := { secs := -31, nanos := 500000000 }

/-- The last minute before 1970 holds the instant and the last second of the day; the longest window begins almost as
early as there are numbers for it. -/
theorem eve_aligned :
    Instant.inCalendar eve.secs = true ∧
      windowStart64? eve (.ofSecs 60) = some (-60) ∧
      windowStart64? eve .max = some (-9223372036854775807) ∧
      windowStart eve (.ofSecs 60) = windowStart { secs := -1 } (.ofSecs 60) ∧
      windowStart eve (.ofSecs 60) ≤ windowStart { secs := 0 } (.ofSecs 60) := by
  have hcalendar : Instant.inCalendar eve.secs = true := by decide
  obtain ⟨hminute, -, -, hthen⟩ := windowStart_aligned (.ofSecs 60) hcalendar
  obtain ⟨hlongest, -⟩ := windowStart_aligned .max hcalendar
  have hone : ∃ n, InWindow (.ofSecs 60) n eve ∧ InWindow (.ofSecs 60) n { secs := -1 } := by
    refine ⟨-1, ?_⟩
    unfold InWindow
    decide
  exact ⟨hcalendar, hminute.trans (by decide), hlongest.trans (by decide), (hthen { secs := -1 }).2.2 hone,
    (hthen { secs := 0 }).1 (by decide)⟩

end Turnstile.Rate
