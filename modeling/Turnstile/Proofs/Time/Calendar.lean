import Mathlib.Tactic.IntervalCases
import Turnstile.Time.Calendar
/-!
# Days and dates

The date of a day names that day (`toDays_ofDays`) and is a date of the calendar (`isValid_ofDays`). An era of
four hundred years counted from March falls into centuries, the last of them a day longer than the others,
centuries into spans of four years with a leap day at the end, and these into years, so every day of an era
has its place (`exists_place`) and the formula for the year finds it (`yearOfEra_place`).
-/

namespace Turnstile.Time

/-- Division that rounds down, and what is left. -/
theorem fdiv_fmod_spec (a : Int) {b : Int} (hb : 0 < b) :
    b * a.fdiv b + a.fmod b = a ∧ 0 ≤ a.fmod b ∧ a.fmod b < b :=
  ⟨Int.mul_fdiv_add_fmod a b, Int.fmod_nonneg_of_pos a hb, Int.fmod_lt_of_pos a hb⟩

namespace Date

/-! ### Years of an era -/

/-- The year of an era in which a day of the era lies. -/
def yearOfEra (d : Nat) : Nat := (d - d / 1460 + d / 36524 - d / 146096) / 365

/-- The first day of a year of an era. -/
def firstOfYear (y : Nat) : Nat := 365 * y + y / 4 - y / 100

/-- Where a day of an era lies: its century, its span of four years, the year of the span and the day. -/
structure Place where
  century : Nat
  span : Nat
  year : Nat
  day : Nat

namespace Place

def yearOfEra (p : Place) : Nat := 100 * p.century + 4 * p.span + p.year

def dayOfEra (p : Place) : Nat := 36524 * p.century + 1461 * p.span + 365 * p.year + p.day

/-- The leap day is the last of its span, and a century that does not end an era lacks the last one. -/
structure IsProper (p : Place) : Prop where
  century : p.century ≤ 3
  span : p.span ≤ 24
  year : p.year ≤ 3
  day : p.day ≤ 364 ∨ p.day = 365 ∧ p.year = 3 ∧ (p.span = 24 → p.century = 3)

end Place

theorem exists_place {d : Nat} (hd : d ≤ 146096) : ∃ p : Place, p.IsProper ∧ p.dayOfEra = d := by
  obtain ⟨c, e, hc, he, hlast⟩ : ∃ c e, c ≤ 3 ∧ d = 36524 * c + e ∧ (e < 36524 ∨ e = 36524 ∧ c = 3) := by
    by_cases h : d = 146096
    · exact ⟨3, 36524, by omega, by omega, by omega⟩
    · exact ⟨d / 36524, d % 36524, by omega, by omega, by omega⟩
  obtain ⟨q, f, hq, hf, hspan⟩ : ∃ q f, q ≤ 24 ∧ e = 1461 * q + f ∧ f ≤ 1460 :=
    ⟨e / 1461, e % 1461, by omega, by omega, by omega⟩
  by_cases h : f = 1460
  · refine ⟨⟨c, q, 3, 365⟩, ⟨hc, hq, Nat.le_refl 3, .inr ⟨rfl, rfl, ?_⟩⟩, ?_⟩
    · dsimp only
      omega
    · simp only [Place.dayOfEra]
      omega
  · refine ⟨⟨c, q, f / 365, f % 365⟩, ⟨hc, hq, ?_, .inl ?_⟩, ?_⟩
    · dsimp only
      omega
    · dsimp only
      omega
    · simp only [Place.dayOfEra]
      omega

theorem yearOfEra_place {p : Place} (hp : p.IsProper) : yearOfEra p.dayOfEra = p.yearOfEra := by
  obtain ⟨c, q, y, t⟩ := p
  obtain ⟨hc, hq, hy, ht⟩ := hp
  simp only [Place.dayOfEra, Place.yearOfEra, yearOfEra] at *
  generalize hd : 36524 * c + 1461 * q + 365 * y + t = d
  -- Each quotient counts the days that the formula has to leave out, at most one of them too many.
  have hlow : 36524 * c ≤ d := by omega
  have hhigh : d < 36524 * (c + 1) ∨ d = 146096 ∧ c = 3 := by omega
  have hcenturies : d / 36524 = d / 146096 + c := by omega
  have hspans : d / 1460 = 25 * c + q + (24 * c + q + 365 * y + t) / 1460 := by omega
  have hone : (24 * c + q + 365 * y + t) / 1460 ≤ 1 := by omega
  have hsum : d - d / 1460 + d / 36524 - d / 146096
      = 365 * (100 * c + 4 * q) + (365 * y + t - (24 * c + q + 365 * y + t) / 1460) := by omega
  have hrest : (365 * y + t - (24 * c + q + 365 * y + t) / 1460) / 365 = y := by omega
  rw [hsum, Nat.mul_add_div (by decide), hrest]

theorem firstOfYear_place {p : Place} (hp : p.IsProper) : firstOfYear p.yearOfEra + p.day = p.dayOfEra := by
  obtain ⟨hc, hq, hy, ht⟩ := hp
  simp only [Place.dayOfEra, Place.yearOfEra, firstOfYear]
  omega

/-- The years of an era that end with a leap day. -/
def EndsLeap (y : Nat) : Prop := (y + 1) % 4 = 0 ∧ ((y + 1) % 100 = 0 → (y + 1) % 400 = 0)

/-- **Years of an era**: the formula finds a year of the era in which the day lies, and only a leap year has
the day 365. -/
theorem yearOfEra_spec {d : Nat} (hd : d ≤ 146096) :
    yearOfEra d ≤ 399 ∧ firstOfYear (yearOfEra d) ≤ d ∧
      (d - firstOfYear (yearOfEra d) ≤ 364 ∨
        d - firstOfYear (yearOfEra d) = 365 ∧ EndsLeap (yearOfEra d)) := by
  obtain ⟨p, hp, rfl⟩ := exists_place hd
  have hfirst := firstOfYear_place hp
  rw [yearOfEra_place hp]
  obtain ⟨hc, hq, hy, ht⟩ := hp
  have hyear : p.yearOfEra = 100 * p.century + 4 * p.span + p.year := rfl
  refine ⟨by omega, by omega, ?_⟩
  rcases ht with ht | ⟨ht, hlast, hera⟩
  · exact .inl (by omega)
  · refine .inr ⟨by omega, ?_⟩
    unfold EndsLeap
    omega

/-! ### Dates -/

/-- The day of the era a number of days after the beginning of 1970 lies in. -/
def dayOfEra (days : Int) : Nat := ((days + 719468) - (days + 719468).fdiv 146097 * 146097).toNat

theorem dayOfEra_spec (days : Int) :
    dayOfEra days ≤ 146096 ∧ (dayOfEra days : Int) = (days + 719468) - (days + 719468).fdiv 146097 * 146097 := by
  obtain ⟨hdiv, hnonneg, hlt⟩ := fdiv_fmod_spec (days + 719468) (show (0 : Int) < 146097 by decide)
  unfold dayOfEra
  omega

/-- The date of a day of a year that begins in March. -/
def ofDayOfYear (year : Int) (day : Nat) : Date :=
  let shifted := (5 * day + 2) / 153
  let month := if shifted < 10 then shifted + 3 else shifted - 9
  { year := if month ≤ 2 then year + 1 else year, month, day := day - (153 * shifted + 2) / 5 + 1 }

theorem ofDays_eq (days : Int) :
    ofDays days = ofDayOfYear (yearOfEra (dayOfEra days) + (days + 719468).fdiv 146097 * 400)
      (dayOfEra days - firstOfYear (yearOfEra (dayOfEra days))) := rfl

/-- The months from March on, and the days before each of them. -/
theorem monthOfYear_spec {day : Nat} (hday : day ≤ 365) :
    (5 * day + 2) / 153 ≤ 11 ∧ (153 * ((5 * day + 2) / 153) + 2) / 5 ≤ day := by
  omega

theorem toDays_ofDayOfYear {y day : Nat} (hy : y ≤ 399) (hday : day ≤ 365) (era : Int) :
    (ofDayOfYear (y + era * 400) day).toDays = era * 146097 + (firstOfYear y + day : Nat) - 719468 := by
  obtain ⟨hmonth, hfirst⟩ := monthOfYear_spec hday
  generalize hs : (5 * day + 2) / 153 = s at hmonth hfirst
  have hyear : (if (ofDayOfYear (y + era * 400) day).month ≤ 2
      then (ofDayOfYear (y + era * 400) day).year - 1 else (ofDayOfYear (y + era * 400) day).year)
        = y + era * 400 := by
    simp only [ofDayOfYear, hs]
    split <;> split <;> omega
  have hshifted : ((ofDayOfYear (y + era * 400) day).month + 9) % 12 = s := by
    simp only [ofDayOfYear, hs]
    split <;> omega
  have hdays : (153 * s + 2) / 5 + ((ofDayOfYear (y + era * 400) day).day - 1) = day := by
    simp only [ofDayOfYear, hs]
    omega
  have hera : (y + era * 400 : Int).fdiv 400 = era := by
    rw [Int.fdiv_eq_ediv_of_nonneg _ (by decide)]
    omega
  have hquarter : (y : Int).fdiv 4 = (y / 4 : Nat) := by
    rw [Int.fdiv_eq_ediv_of_nonneg _ (by decide)]
    rfl
  have hcentury : (y : Int).fdiv 100 = (y / 100 : Nat) := by
    rw [Int.fdiv_eq_ediv_of_nonneg _ (by decide)]
    rfl
  simp only [toDays, hyear, hshifted, hdays, hera, Int.add_sub_cancel, hquarter, hcentury, firstOfYear]
  omega

theorem isLeapYear_of_endsLeap {y : Nat} (h : EndsLeap y) (era : Int) :
    isLeapYear (y + era * 400 + 1) = true := by
  obtain ⟨hquarter, hcentury⟩ := h
  simp only [isLeapYear, Bool.and_eq_true, Bool.or_eq_true, beq_iff_eq, bne_iff_ne, ne_eq]
  omega

theorem isValid_iff {d : Date} :
    d.isValid = true ↔ 1 ≤ d.month ∧ d.month ≤ 12 ∧ 1 ≤ d.day ∧ d.day ≤ daysInMonth d.year d.month := by
  simp [isValid, and_assoc]

theorem isValid_ofDayOfYear {y day : Nat} (hday : day ≤ 364 ∨ day = 365 ∧ EndsLeap y) (era : Int) :
    (ofDayOfYear (y + era * 400) day).isValid = true := by
  rw [isValid_iff]
  by_cases hlast : day ≤ 336
  · -- The months before February have the length that the formula gives them.
    have hmonth : (5 * day + 2) / 153 ≤ 10 := by omega
    generalize hs : (5 * day + 2) / 153 = s at hmonth
    simp only [ofDayOfYear, hs, daysInMonth]
    interval_cases s <;> simp <;> omega
  · have hs : (5 * day + 2) / 153 = 11 := by omega
    simp only [ofDayOfYear, hs, daysInMonth]
    rcases hday with hday | ⟨rfl, hleap⟩
    · simp
      split <;> omega
    · simp [isLeapYear_of_endsLeap hleap]

/-- **Days and dates**: the date of a day names that day. -/
theorem toDays_ofDays (days : Int) : (ofDays days).toDays = days := by
  obtain ⟨hle, hera⟩ := dayOfEra_spec days
  obtain ⟨hyear, hfirst, hday⟩ := yearOfEra_spec hle
  rw [ofDays_eq, toDays_ofDayOfYear hyear (by omega)]
  omega

theorem isValid_ofDays (days : Int) : (ofDays days).isValid = true := by
  obtain ⟨-, -, hday⟩ := yearOfEra_spec (dayOfEra_spec days).1
  rw [ofDays_eq]
  exact isValid_ofDayOfYear hday _

theorem year_ofDays (days : Int) :
    (ofDays days).year = yearOfEra (dayOfEra days) + (days + 719468).fdiv 146097 * 400
      + (if dayOfEra days - firstOfYear (yearOfEra (dayOfEra days)) < 306 then 0 else 1) := by
  obtain ⟨-, hfirst, hday⟩ := yearOfEra_spec (dayOfEra_spec days).1
  rw [ofDays_eq]
  generalize dayOfEra days - firstOfYear (yearOfEra (dayOfEra days)) = day at *
  simp only [ofDayOfYear]
  split <;> split <;> omega

/-- The years that four digits are enough for, by their first and last day. -/
theorem year_ofDays_iff {days : Int} :
    0 ≤ (ofDays days).year ∧ (ofDays days).year ≤ 9999 ↔ -719528 ≤ days ∧ days ≤ 2932896 := by
  obtain ⟨hle, hera⟩ := dayOfEra_spec days
  obtain ⟨hyear, hfirst, hday⟩ := yearOfEra_spec hle
  rw [year_ofDays]
  unfold firstOfYear at *
  -- Both days lie in the last year of an era: of the one before the first, and of era 24.
  rcases (by omega : (days + 719468).fdiv 146097 ≤ -2 ∨ (days + 719468).fdiv 146097 = -1 ∨
    0 ≤ (days + 719468).fdiv 146097 ∧ (days + 719468).fdiv 146097 ≤ 23 ∨ (days + 719468).fdiv 146097 = 24 ∨
      25 ≤ (days + 719468).fdiv 146097) with h | h | h | h | h
  · split <;> omega
  · split <;> omega
  · split <;> omega
  · split <;> omega
  · split <;> omega

end Date

end Turnstile.Time
