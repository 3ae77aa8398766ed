/-!
# Dates

The proleptic Gregorian calendar: years in both directions without a gap, and a leap day in every
fourth year except three centuries out of four. Days are counted from the first of January 1970.
Internally a year starts in March, so that the leap day is its last day and each cycle of four
years, a century, and four centuries ends with its irregular day.
-/

namespace RentalDesk

/-- A day of the calendar. -/
structure Date where
  year : Int
  month : Nat
  day : Nat
deriving DecidableEq, Repr

namespace Date

def isLeap (year : Int) : Bool := year % 4 = 0 ∧ (year % 100 ≠ 0 ∨ year % 400 = 0)

/-- The number of days of a month. -/
def daysInMonth (year : Int) (month : Nat) : Nat :=
  if month = 2 then (if isLeap year then 29 else 28)
  else if month = 4 ∨ month = 6 ∨ month = 9 ∨ month = 11 then 30
  else 31

/-- Whether the month and the day exist. -/
def Exists (d : Date) : Prop :=
  1 ≤ d.month ∧ d.month ≤ 12 ∧ 1 ≤ d.day ∧ d.day ≤ daysInMonth d.year d.month

instance (d : Date) : Decidable d.Exists := inferInstanceAs (Decidable (_ ∧ _ ∧ _ ∧ _))

/-- The days from the first of March of the year 0 to the first of January 1970. -/
abbrev epochDay : Int := 719468

/-- The day of the year, counted from the first of March. -/
def dayOfYear (d : Date) : Int := (153 * ((d.month + 9) % 12) + 2) / 5 + d.day - 1

/-- The year that the date belongs to when years start in March. -/
def marchYear (d : Date) : Int := if d.month ≤ 2 then d.year - 1 else d.year

/-- The number of the day, the first of January 1970 being day 0. -/
def toDay (d : Date) : Int :=
  let y := d.marchYear
  365 * y + y / 4 - y / 100 + y / 400 + d.dayOfYear - epochDay

/-- The date of a day. The last day of a century and of a fourth year belongs to the period
before it, which is why the counts of centuries and of single years stop at three. -/
def ofDay (n : Int) : Date :=
  let fromMarch := n + epochDay
  let era := fromMarch / 146097
  let dayOfEra := fromMarch % 146097
  let century := min 3 (dayOfEra / 36524)
  let dayOfCentury := dayOfEra - 36524 * century
  let four := dayOfCentury / 1461
  let dayOfFour := dayOfCentury % 1461
  let single := min 3 (dayOfFour / 365)
  let dayOfYear := dayOfFour - 365 * single
  let year := 400 * era + 100 * century + 4 * four + single
  let month := (5 * dayOfYear + 2) / 153
  let day := dayOfYear - (153 * month + 2) / 5 + 1
  if month < 10 then ⟨year, (month + 3).toNat, day.toNat⟩
  else ⟨year + 1, (month - 9).toNat, day.toNat⟩

end Date

end RentalDesk
