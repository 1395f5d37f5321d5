import Turnstile.Proofs.Text.Decimal
import Turnstile.Proofs.Time.Calendar
import Turnstile.Time.Stamp
/-!
# Timestamps that are read back

A timestamp to the second, of a year that is written with four digits, is read by the strict reader as the
second that it names (`strict?_toSeconds`), also when blanks are trimmed off, of which it has none. A leap second
is written as a sixtieth one and comes back as such only at the end of a minute; elsewhere it comes back as the
second after.
-/

namespace Turnstile.Time

open Text

/-- The instant that a timestamp to the second stands for: the beginning of the second, or of the leap second,
which is written as the one after its minute has sixty. -/
def Instant.wholeSecond (t : Instant) : Instant :=
  if t.inLeapSecond then
    if t.secs.fmod 60 = 59 then { secs := t.secs, nanos := 1000000000 } else { secs := t.secs + 1 }
  else { secs := t.secs }

theorem Instant.secs_le_wholeSecond (t : Instant) : t.secs ≤ t.wholeSecond.secs := by
  unfold Instant.wholeSecond
  split
  · split <;> dsimp only <;> omega
  · exact Int.le_refl _

namespace Stamp

/-- The year of an instant in UTC. -/
def yearOf (t : Instant) : Int := (Date.ofDays (t.secs.fdiv 86400)).year

/-! ### The parts of an instant -/

theorem inCalendar_of_year {t : Instant} (h0 : 0 ≤ yearOf t) (h1 : yearOf t ≤ 9999) :
    Instant.inCalendar t.secs = true ∧ Instant.inCalendar (t.secs + 1) = true := by
  obtain ⟨hday, hnonneg, hlt⟩ := fdiv_fmod_spec t.secs (show (0 : Int) < 86400 by decide)
  obtain ⟨hfirst, hlast⟩ := Date.year_ofDays_iff.1 ⟨h0, h1⟩
  rw [Instant.inCalendar_iff, Instant.inCalendar_iff]
  unfold Instant.minSecs Instant.maxSecs
  omega

/-- The parts that a timestamp to the second is read as. -/
def partsOf (days : Int) (ofDay second : Nat) : Parts where
  date := Date.ofDays days
  hour := ofDay / 3600
  minute := ofDay / 60 % 60
  second := second
  nanos := 0
  offset := 0

theorem instant?_partsOf {days : Int} {ofDay second : Nat} (hday : ofDay < 86400)
    (hsecond : second = ofDay % 60 ∨ second = ofDay % 60 + 1)
    (hcalendar : Instant.inCalendar (days * 86400 + ofDay) = true ∧
      Instant.inCalendar (days * 86400 + ofDay + 1) = true) :
    (partsOf days ofDay second).instant? = some (
      if second = 60 then { secs := days * 86400 + ofDay, nanos := 1000000000 }
      else { secs := days * 86400 + ofDay + second - (ofDay % 60 : Nat) }) := by
  have hdate : (partsOf days ofDay second).date.isValid = true := Date.isValid_ofDays days
  have hdays : (partsOf days ofDay second).date.toDays = days := Date.toDays_ofDays days
  have hranges : ofDay / 3600 ≤ 23 ∧ ofDay / 60 % 60 ≤ 59 ∧ second ≤ 60 := by omega
  obtain ⟨hhour, hminute, hle⟩ := hranges
  unfold Parts.instant?
  rw [hdate, hdays]
  simp only [partsOf, hhour, hminute, hle, decide_true, Bool.true_and, Int.natAbs_zero, Nat.ofNat_pos, if_true,
    Int.sub_zero]
  by_cases hleap : second = 60
  · have hlocal : days * 86400 + ((ofDay / 3600 * 3600 + ofDay / 60 % 60 * 60 + 59 : Nat) : Int)
        = days * 86400 + ofDay := by
      omega
    simp only [hleap, if_true, hlocal, hcalendar.1, Bool.and_self]
  · have hlocal : days * 86400 + ((ofDay / 3600 * 3600 + ofDay / 60 % 60 * 60 + second : Nat) : Int)
        = days * 86400 + ofDay + second - (ofDay % 60 : Nat) := by
      omega
    have hinside : Instant.inCalendar (days * 86400 + ofDay + second - (ofDay % 60 : Nat)) = true := by
      rcases hsecond with hsecond | hsecond
      · rw [show days * 86400 + ofDay + second - (ofDay % 60 : Nat) = days * 86400 + ofDay by omega]
        exact hcalendar.1
      · rw [show days * 86400 + ofDay + second - (ofDay % 60 : Nat) = days * 86400 + ofDay + 1 by omega]
        exact hcalendar.2
    simp only [hleap, if_false, hlocal, hinside, Bool.and_self, if_true]

/-! ### Reading what was written -/

theorem fixed?_paddedDigits {w n : Nat} (hw : 0 < w) (h : n < Nat.pow 10 w) (rest : List Char) :
    fixed? w (paddedDigits w n ++ rest) = some (n, rest) := by
  have hlength := length_paddedDigits hw h
  have htake : (paddedDigits w n ++ rest).take w = paddedDigits w n := List.take_left' hlength
  have hdrop : (paddedDigits w n ++ rest).drop w = rest := List.drop_left' hlength
  simp only [fixed?, htake, hlength, if_true, hdrop, digitsValue?_paddedDigits, Option.map_some]

theorem daysInMonth_le (y : Int) (m : Nat) : daysInMonth y m ≤ 31 := by
  unfold daysInMonth
  split
  · split <;> decide
  · split <;> decide

theorem strict?_fields {year month day hour minute second : Nat} (hyear : year < 10000) (hmonth : month < 100)
    (hday : day < 100) (hhour : hour < 100) (hminute : minute < 100) (hsecond : second < 100) :
    strict? (String.ofList (paddedDigits 4 year ++ '-' :: paddedDigits 2 month ++ '-' :: paddedDigits 2 day
        ++ 'T' :: paddedDigits 2 hour ++ ':' :: paddedDigits 2 minute ++ ':' :: paddedDigits 2 second ++ ['Z']))
      = Parts.instant? ⟨⟨year, month, day⟩, hour, minute, second, 0, 0⟩ := by
  have hfixed {w n : Nat} (hw : 0 < w) (h : n < Nat.pow 10 w) (rest : List Char)
      (f : Nat × List Char → Option Instant) : (fixed? w (paddedDigits w n ++ rest) >>= f) = f (n, rest) := by
    rw [fixed?_paddedDigits hw h]
    rfl
  have htwo {n : Nat} (h : n < 100) := hfixed (w := 2) (by decide) h
  have hchar (c : Char) (rest : List Char) (f : List Char → Option Instant) :
      (char? c (c :: rest) >>= f) = f rest := by
    rw [char?, if_pos rfl]
    rfl
  have hmark (rest : List Char) (f : List Char → Option Instant) : (mark? ('T' :: rest) >>= f) = f rest := rfl
  simp only [List.append_assoc, List.cons_append]
  -- One part of the timestamp after the other, from the left.
  rw [strict?, String.toList_ofList, hfixed (w := 4) (by decide) hyear]
  dsimp only
  rw [hchar, htwo hmonth]
  dsimp only
  rw [hchar, htwo hday]
  dsimp only
  rw [hmark, htwo hhour]
  dsimp only
  rw [hchar, htwo hminute]
  dsimp only
  rw [hchar, htwo hsecond]
  rfl

theorem strict?_chars {year ofDay second : Nat} {days : Int} (hyear : (year : Int) = (Date.ofDays days).year)
    (hfour : year < 10000) (hday : ofDay < 86400) (hsecond : second < 100) :
    strict? (String.ofList (paddedDigits 4 year ++ '-' :: paddedDigits 2 (Date.ofDays days).month
        ++ '-' :: paddedDigits 2 (Date.ofDays days).day ++ 'T' :: paddedDigits 2 (ofDay / 3600)
        ++ ':' :: paddedDigits 2 (ofDay / 60 % 60) ++ ':' :: paddedDigits 2 second ++ ['Z']))
      = (partsOf days ofDay second).instant? := by
  obtain ⟨-, hmonth, -, hdayOfMonth⟩ := Date.isValid_iff.1 (Date.isValid_ofDays days)
  have hdays := Nat.le_trans hdayOfMonth (daysInMonth_le _ _)
  rw [strict?_fields hfour (by omega) (by omega) (by omega) (by omega) hsecond, hyear]
  rfl

/-- **Timestamps to the second**: where four digits are enough for the year, the strict reader finds the second
that was written. -/
theorem strict?_toSeconds {t : Instant} (h0 : 0 ≤ yearOf t) (h1 : yearOf t ≤ 9999) :
    strict? (toSeconds t) = some t.wholeSecond := by
  have hcalendar := inCalendar_of_year h0 h1
  obtain ⟨hsplit, hnonneg, hlt⟩ := fdiv_fmod_spec t.secs (show (0 : Int) < 86400 by decide)
  have hminute : t.secs.fmod 60 = ((t.secs.fmod 86400).toNat % 60 : Nat) := by
    rw [Int.fmod_eq_emod_of_nonneg _ (by decide)]
    omega
  unfold yearOf at h0 h1
  simp only [toSeconds, chars]
  generalize t.secs.fdiv 86400 = days at h0 h1 hsplit ⊢
  generalize hofDay : (t.secs.fmod 86400).toNat = ofDay at hminute ⊢
  have hsecs : t.secs = days * 86400 + ofDay := by omega
  have hday : ofDay < 86400 := by omega
  rw [hsecs] at hcalendar
  rw [yearChars, if_pos ⟨h0, h1⟩, List.append_nil, strict?_chars (by omega) (by omega) hday (by split <;> omega),
    instant?_partsOf hday (by split <;> omega) hcalendar, Instant.wholeSecond, hminute, ← hsecs]
  congr 1
  by_cases hleap : 1000000000 ≤ t.nanos
  · simp only [hleap, if_true, Instant.inLeapSecond, decide_true]
    by_cases hlast : ofDay % 60 = 59
    · simp [hlast]
    · have hlast' : ofDay % 60 + 1 ≠ 60 := by omega
      have hlast'' : ((ofDay % 60 : Nat) : Int) ≠ 59 := by omega
      simp only [hlast', hlast'', if_false]
      congr 1
      omega
  · simp only [hleap, if_false, Instant.inLeapSecond, decide_false]
    have hlast : ofDay % 60 + 0 ≠ 60 := by omega
    simp only [hlast, if_false]
    congr 1
    omega

/-- A year that four digits are not enough for takes a sign, and the strict reader wants a digit in front. -/
theorem strict?_toSeconds_of_signed {t : Instant} (h : yearOf t < 0 ∨ 9999 < yearOf t) :
    strict? (toSeconds t) = none := by
  have hrange : ¬ (0 ≤ yearOf t ∧ yearOf t ≤ 9999) := by omega
  obtain ⟨sign, digits, hsign, hyear⟩ :
      ∃ sign digits, digit? sign = none ∧ yearChars (yearOf t) = sign :: digits :=
    ⟨if yearOf t < 0 then '-' else '+', _, by split <;> rfl, if_neg hrange⟩
  have hfixed (rest : List Char) : fixed? 4 (sign :: rest) = none := by
    rw [fixed?, List.take_succ_cons, digitsValue?_of_first hsign]
    split <;> rfl
  unfold yearOf at hyear
  simp only [strict?, toSeconds, String.toList_ofList, chars, hyear, List.cons_append, hfixed]
  rfl

/-! ### No blanks -/

theorem yearChars_first (y : Int) : ∃ c rest, yearChars y = c :: rest ∧ isBlank c = false := by
  unfold yearChars
  split
  · obtain ⟨c, rest, hdigits⟩ := List.exists_cons_of_ne_nil (paddedDigits_ne_nil 4 y.natAbs)
    exact ⟨c, rest, hdigits, isBlank_of_digit (mem_paddedDigits (by rw [hdigits]; exact List.mem_cons_self))⟩
  · exact ⟨_, _, rfl, by split <;> rfl⟩

theorem trim_toSeconds (t : Instant) : trim (toSeconds t) = toSeconds t := by
  obtain ⟨c, rest, hyear, hc⟩ := yearChars_first (Date.ofDays (t.secs.fdiv 86400)).year
  have hfirst : ∀ x ∈ (chars .seconds t).head?, isBlank x = false := by
    intro x hx
    simp only [chars, hyear, List.cons_append, List.head?_cons, Option.mem_some_iff] at hx
    rwa [← hx]
  have hlast : ∀ x ∈ (chars .seconds t).getLast?, isBlank x = false := by
    intro x hx
    simp only [chars, List.getLast?_concat, Option.mem_some_iff] at hx
    rw [← hx]
    rfl
  rw [trim, toSeconds, String.toList_ofList, trimChars_of_ends hfirst hlast]

end Stamp

end Turnstile.Time
