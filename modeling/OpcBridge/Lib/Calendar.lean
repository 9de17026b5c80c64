import Mathlib.Data.Int.Notation

/-!
# The calendar

Days are counted from 1970-01-01, and dates are those of the proleptic Gregorian calendar. Both
conversions count years from the first of March, so that the day that is sometimes missing is the
last one of a year, and group them by the 400 years after which the calendar repeats. A date that is
made from a day number leads back to it (`dayNumber_civil`).
-/

namespace Lib

structure Civil where
  year : ℤ
  /-- From 1 to 12. -/
  month : ℤ
  day : ℤ
  deriving DecidableEq

/-- The number of a date; the day of the month may be any number. -/
def dayNumber (c : Civil) : ℤ :=
  let year := if c.month ≤ 2 then c.year - 1 else c.year
  let month := if 2 < c.month then c.month - 3 else c.month + 9
  year / 400 * 146097 + (year % 400 * 365 + year % 400 / 4 - year % 400 / 100) +
    (153 * month + 2) / 5 + c.day - 1 - 719468

/-- A day of an era: the last century has a day more than the others, and the last year of four one
more than the other three. -/
structure EraDay where
  century : ℤ
  four : ℤ
  year : ℤ
  day : ℤ

def eraDay (n : ℤ) : EraDay :=
  let century := min 3 (n / 36524)
  let inCentury := n - 36524 * century
  let inFour := inCentury % 1461
  let year := min 3 (inFour / 365)
  { century, four := inCentury / 1461, year, day := inFour - 365 * year }

def EraDay.yearOfEra (d : EraDay) : ℤ := 100 * d.century + 4 * d.four + d.year

def civil (number : ℤ) : Civil :=
  let d := eraDay ((number + 719468) % 146097)
  let month := (5 * d.day + 2) / 153
  let month' := if month < 10 then month + 3 else month - 9
  { year := d.yearOfEra + (number + 719468) / 146097 * 400 + if month' ≤ 2 then 1 else 0
    month := month'
    day := d.day - (153 * month + 2) / 5 + 1 }

theorem eraDay_bounds {n : ℤ} (h0 : 0 ≤ n) (h : n < 146097) :
    (0 ≤ (eraDay n).century ∧ (eraDay n).century ≤ 3) ∧
      (0 ≤ (eraDay n).four ∧ (eraDay n).four ≤ 24) ∧
      (0 ≤ (eraDay n).year ∧ (eraDay n).year ≤ 3) ∧
      (0 ≤ (eraDay n).day ∧ (eraDay n).day ≤ 365) := by
  have hcentury : 0 ≤ n - 36524 * min 3 (n / 36524) ∧ n - 36524 * min 3 (n / 36524) < 36525 := by
    omega
  simp only [eraDay]
  generalize n - 36524 * min 3 (n / 36524) = m at hcentury ⊢
  have hfour : 0 ≤ m % 1461 ∧ m % 1461 < 1461 := by omega
  generalize m % 1461 = r at hfour ⊢
  refine ⟨?_, ?_, ?_, ?_⟩ <;> omega

theorem eraDay_eq (n : ℤ) : n = 36524 * (eraDay n).century + 1461 * (eraDay n).four +
    365 * (eraDay n).year + (eraDay n).day := by
  simp only [eraDay]
  generalize min 3 (n / 36524) = century
  have hfour := Int.mul_ediv_add_emod (n - 36524 * century) 1461
  omega

/-- The days of the years before are what the leap years make of them. -/
theorem EraDay.leap_years {d : EraDay} (hfour : 0 ≤ d.four ∧ d.four ≤ 24)
    (hyear : 0 ≤ d.year ∧ d.year ≤ 3) :
    d.yearOfEra * 365 + d.yearOfEra / 4 - d.yearOfEra / 100 =
      36524 * d.century + 1461 * d.four + 365 * d.year := by
  have hleap : d.yearOfEra / 4 = 25 * d.century + d.four := by
    unfold EraDay.yearOfEra
    omega
  have hcentury : d.yearOfEra / 100 = d.century := by
    unfold EraDay.yearOfEra
    omega
  rw [hleap, hcentury, EraDay.yearOfEra]
  omega

theorem dayNumber_day (c : Civil) (day : ℤ) :
    dayNumber { c with day } = dayNumber c + (day - c.day) := by
  simp only [dayNumber]
  omega

/-- A date whose year starts in March. -/
theorem dayNumber_march {era year month : ℤ} (hyear : 0 ≤ year ∧ year < 400)
    (hmonth : 0 ≤ month ∧ month ≤ 11) (day : ℤ) :
    let month' := if month < 10 then month + 3 else month - 9
    dayNumber ⟨year + era * 400 + if month' ≤ 2 then 1 else 0, month', day⟩ =
      era * 146097 + (year * 365 + year / 4 - year / 100) + (153 * month + 2) / 5 + day - 1 -
        719468 := by
  have hera : (year + era * 400) / 400 = era := by omega
  have hrest : (year + era * 400) % 400 = year := by omega
  simp only [dayNumber]
  by_cases hlate : month < 10
  · have hfirst : ¬ month + 3 ≤ 2 := by omega
    have hmarch : 2 < month + 3 := by omega
    simp only [if_pos hlate, if_neg hfirst, if_pos hmarch, Int.add_zero, hera, hrest]
    omega
  · have hfirst : month - 9 ≤ 2 := by omega
    have hmarch : ¬ 2 < month - 9 := by omega
    simp only [if_neg hlate, if_pos hfirst, if_neg hmarch, Int.add_sub_cancel, hera, hrest]
    omega

theorem civil_month (number : ℤ) : 1 ≤ (civil number).month ∧ (civil number).month ≤ 12 := by
  obtain ⟨-, -, -, hday⟩ :=
    eraDay_bounds (n := (number + 719468) % 146097) (by omega) (by omega)
  simp only [civil]
  split <;> omega

theorem dayNumber_civil (number : ℤ) : dayNumber (civil number) = number := by
  obtain ⟨hcentury, hfour, hyear, hday⟩ :=
    eraDay_bounds (n := (number + 719468) % 146097) (by omega) (by omega)
  have hsplit := eraDay_eq ((number + 719468) % 146097)
  have hleap := EraDay.leap_years hfour hyear
  have hbound : 0 ≤ (eraDay ((number + 719468) % 146097)).yearOfEra ∧
      (eraDay ((number + 719468) % 146097)).yearOfEra < 400 := by
    unfold EraDay.yearOfEra
    omega
  have hmonth : 0 ≤ (5 * (eraDay ((number + 719468) % 146097)).day + 2) / 153 ∧
      (5 * (eraDay ((number + 719468) % 146097)).day + 2) / 153 ≤ 11 := by omega
  rw [civil, dayNumber_march hbound hmonth, hleap]
  omega

end Lib
