import Mathlib.Tactic.IntervalCases
import RentalDesk.Time.Date

/-!
# Days and dates

Every day has a date that exists, and the date is that day's. A day is taken apart into eras of four
centuries, centuries, periods of four years, single years and days, and a year from March on into
months by a linear rule.
-/

namespace RentalDesk.Date

/-- The day within an era, taken apart. -/
structure Parts (dayOfEra century four single dayOfYear : Int) : Prop where
  century_nonneg : 0 ≤ century
  century_le : century ≤ 3
  four_nonneg : 0 ≤ four
  four_le : four ≤ 24
  single_nonneg : 0 ≤ single
  single_le : single ≤ 3
  day_nonneg : 0 ≤ dayOfYear
  /-- A year has a leap day only if it is the last one of four, and a century has one in its last
  year only if it is the last one of four. -/
  day_le : dayOfYear ≤ 365
  leap : dayOfYear = 365 → single = 3 ∧ (four = 24 → century = 3)
  sum : 36524 * century + 1461 * four + 365 * single + dayOfYear = dayOfEra

theorem parts_of_day {dayOfEra : Int} (h : 0 ≤ dayOfEra) (h' : dayOfEra < 146097) :
    Parts dayOfEra (min 3 (dayOfEra / 36524))
      ((dayOfEra - 36524 * min 3 (dayOfEra / 36524)) / 1461)
      (min 3 ((dayOfEra - 36524 * min 3 (dayOfEra / 36524)) % 1461 / 365))
      ((dayOfEra - 36524 * min 3 (dayOfEra / 36524)) % 1461 -
        365 * min 3 ((dayOfEra - 36524 * min 3 (dayOfEra / 36524)) % 1461 / 365)) := by
  obtain ⟨century, hcentury⟩ : ∃ c, min 3 (dayOfEra / 36524) = c := ⟨_, rfl⟩
  rw [hcentury]
  obtain ⟨dayOfCentury, hday⟩ : ∃ d, dayOfEra - 36524 * century = d := ⟨_, rfl⟩
  rw [hday]
  have hc : 0 ≤ century ∧ century ≤ 3 ∧ 0 ≤ dayOfCentury ∧ dayOfCentury ≤ 36524 ∧
      (dayOfCentury = 36524 → century = 3) := by omega
  obtain ⟨single, hsingle⟩ : ∃ s, min 3 (dayOfCentury % 1461 / 365) = s := ⟨_, rfl⟩
  rw [hsingle]
  constructor <;> omega

/-- The date of a day of a year that starts in March. -/
def ofMarch (year dayOfYear : Int) : Date :=
  let month := (5 * dayOfYear + 2) / 153
  let day := dayOfYear - (153 * month + 2) / 5 + 1
  if month < 10 then ⟨year, (month + 3).toNat, day.toNat⟩
  else ⟨year + 1, (month - 9).toNat, day.toNat⟩

variable {year dayOfYear : Int}

theorem month_bounds (h : 0 ≤ dayOfYear) (h' : dayOfYear ≤ 365) :
    0 ≤ (5 * dayOfYear + 2) / 153 ∧ (5 * dayOfYear + 2) / 153 ≤ 11 := by
  omega

theorem toDay_ofMarch (h : 0 ≤ dayOfYear) (h' : dayOfYear ≤ 365) :
    (ofMarch year dayOfYear).toDay =
      365 * year + year / 4 - year / 100 + year / 400 + dayOfYear - epochDay := by
  have hmonth := month_bounds h h'
  have hday : 1 ≤ dayOfYear - (153 * ((5 * dayOfYear + 2) / 153) + 2) / 5 + 1 := by omega
  simp only [ofMarch]
  generalize (5 * dayOfYear + 2) / 153 = month at *
  generalize hd : dayOfYear - (153 * month + 2) / 5 + 1 = day at *
  have hdayNat : (day.toNat : Int) = day := by omega
  split
  · have hmarch : ¬ (month + 3).toNat ≤ 2 := by omega
    have hback : (((month + 3).toNat : Int) + 9) % 12 = month := by omega
    simp only [toDay, marchYear, Date.dayOfYear, if_neg hmarch, hback, hdayNat]
    omega
  · have hmarch : (month - 9).toNat ≤ 2 := by omega
    have hback : (((month - 9).toNat : Int) + 9) % 12 = month := by omega
    have hyear : year + 1 - 1 = year := by omega
    simp only [toDay, marchYear, Date.dayOfYear, if_pos hmarch, hback, hdayNat, hyear]
    omega

/-- The days of a month, months being counted from March. -/
theorem daysInMonth_ofMarch {month : Nat} (h : month < 12) (year : Int) :
    daysInMonth year (if month < 10 then month + 3 else month - 9) =
      if month = 11 then (if isLeap year then 29 else 28)
      else (153 * (month + 1) + 2) / 5 - (153 * month + 2) / 5 := by
  interval_cases month <;> rfl

/-- The day exists if the last day of February is only counted in a leap year. -/
theorem exists_ofMarch (h : 0 ≤ dayOfYear) (h' : dayOfYear ≤ 365)
    (leap : dayOfYear = 365 → isLeap (year + 1) = true) : (ofMarch year dayOfYear).Exists := by
  obtain ⟨month, hm⟩ : ∃ m : Nat, (5 * dayOfYear + 2) / 153 = m :=
    ⟨((5 * dayOfYear + 2) / 153).toNat, by omega⟩
  have hlt : month < 12 := by omega
  have hdate : ofMarch year dayOfYear = ⟨if month < 10 then year else year + 1,
      if month < 10 then month + 3 else month - 9,
      (dayOfYear - (153 * (month : Int) + 2) / 5 + 1).toNat⟩ := by
    simp only [ofMarch, hm]
    by_cases hearly : month < 10
    · rw [if_pos (by omega), if_pos hearly, if_pos hearly]
      congr 1
    · rw [if_neg (by omega), if_neg hearly, if_neg hearly]
      congr 1
      omega
  have hdays := daysInMonth_ofMarch hlt (if month < 10 then year else year + 1)
  rw [hdate]
  refine ⟨?_, ?_, ?_, ?_⟩
  · simp only
    split <;> omega
  · simp only
    split <;> omega
  · simp only
    omega
  · simp only [hdays]
    by_cases hfeb : month = 11
    · rw [if_pos hfeb, if_neg (show ¬ month < 10 by omega)]
      by_cases hlast : dayOfYear = 365
      · rw [if_pos (leap hlast)]
        omega
      · split <;> omega
    · have hcast : (((153 * month + 2) / 5 : Nat) : Int) = (153 * (month : Int) + 2) / 5 := by simp
      rw [if_neg hfeb]
      omega

/-! ## The date of a day -/

theorem ofDay_eq (n : Int) : ∃ era century four single dayOfYear : Int,
    Parts ((n + epochDay) % 146097) century four single dayOfYear ∧
      era = (n + epochDay) / 146097 ∧
      ofDay n = ofMarch (400 * era + 100 * century + 4 * four + single) dayOfYear :=
  ⟨_, _, _, _, _, parts_of_day (by omega) (by omega), rfl, rfl⟩

/-- The day of a date is the day that the date was made of. -/
theorem toDay_ofDay (n : Int) : (ofDay n).toDay = n := by
  obtain ⟨era, century, four, single, dayOfYear, parts, hera, hdate⟩ := ofDay_eq n
  obtain ⟨hc, hc', hf, hf', hs, hs', hd, hd', hleap, hsum⟩ := parts
  rw [hdate, toDay_ofMarch hd hd']
  have hfour : (400 * era + 100 * century + 4 * four + single) / 4 =
      100 * era + 25 * century + four := by omega
  have hcentury : (400 * era + 100 * century + 4 * four + single) / 100 = 4 * era + century := by
    omega
  have hera' : (400 * era + 100 * century + 4 * four + single) / 400 = era := by omega
  rw [hfour, hcentury, hera']
  omega

/-- The date of a day exists. -/
theorem exists_ofDay (n : Int) : (ofDay n).Exists := by
  obtain ⟨era, century, four, single, dayOfYear, parts, -, hdate⟩ := ofDay_eq n
  obtain ⟨hc, hc', hf, hf', hs, hs', hd, hd', hleap, -⟩ := parts
  rw [hdate]
  refine exists_ofMarch hd hd' fun hlast => ?_
  obtain ⟨rfl, hcentury⟩ := hleap hlast
  simp only [isLeap, decide_eq_true_eq]
  omega

end RentalDesk.Date
