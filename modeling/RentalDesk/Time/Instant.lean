import RentalDesk.Time.Date

/-!
# Instants

An instant is a second of UTC and a count of nanoseconds in it. Inside a leap second, which has no
second of its own, the nanoseconds of the second before it run on to twice their range. Instants
are limited to the years from -262143 to 262142.

The time between two instants counts a leap second only if one of the two instants lies in it and
the other one has a later time of day; nothing is known of the leap seconds of the calendar.
-/

namespace RentalDesk

namespace Instant

abbrev nanosPerSecond : Nat := 1000000000

abbrev secondsPerDay : Int := 86400

/-- The first second of the first year. -/
abbrev firstSecond : Int := Date.toDay ⟨-262143, 1, 1⟩ * secondsPerDay

abbrev lastSecond : Int := Date.toDay ⟨262142, 12, 31⟩ * secondsPerDay + 86399

end Instant

/-- A moment of UTC. Seconds are counted from the first of January 1970 without leap seconds. -/
structure Instant where
  second : Int
  nano : Nat
  first_le : Instant.firstSecond ≤ second
  le_last : second ≤ Instant.lastSecond
  nano_lt : nano < 2 * Instant.nanosPerSecond
  leap : Instant.nanosPerSecond ≤ nano → second % 60 = 59
deriving DecidableEq

namespace Instant

def ofParts? (second : Int) (nano : Nat) : Option Instant :=
  if h : firstSecond ≤ second ∧ second ≤ lastSecond ∧ nano < 2 * nanosPerSecond ∧
      (nanosPerSecond ≤ nano → second % 60 = 59) then
    some ⟨second, nano, h.1, h.2.1, h.2.2.1, h.2.2.2⟩
  else
    none

/-- The instant so many nanoseconds after the start of 1970. -/
def ofNanos? (n : Int) : Option Instant :=
  ofParts? (n / nanosPerSecond) (n % nanosPerSecond).toNat

/-- The instant so many milliseconds and nanoseconds after the start of 1970. -/
def ofMillis? (millis nanos : Int) : Option Instant := ofNanos? (millis * 1000000 + nanos)

def epoch : Instant := ⟨0, 0, by decide, by decide, by decide, by decide⟩

instance : Inhabited Instant := ⟨epoch⟩

/-- The instant so many nanoseconds later, or earlier for a negative count, if the calendar
reaches so far. -/
def shift? (i : Instant) (nanos : Int) : Option Instant :=
  ofNanos? (i.second * nanosPerSecond + i.nano + nanos)

def inLeapSecond (i : Instant) : Bool := nanosPerSecond ≤ i.nano

def timeOfDay (i : Instant) : Int := i.second % secondsPerDay

/-- The leap seconds that count between two instants. -/
def leapBetween (a b : Instant) : Int :=
  if a.timeOfDay < b.timeOfDay then (if a.inLeapSecond then 1 else 0)
  else if b.timeOfDay < a.timeOfDay then (if b.inLeapSecond then -1 else 0)
  else 0

def nanosBetween (a b : Instant) : Int :=
  (b.second - a.second + leapBetween a b) * nanosPerSecond + ((b.nano : Int) - a.nano)

/-- The whole milliseconds from `a` to `b`, a rest being cut off on either side of zero. -/
def millisBetween (a b : Instant) : Int := (nanosBetween a b).tdiv 1000000

/-- Instants are ordered by their seconds and then by their nanoseconds. -/
instance : Ord Instant where
  compare a b := (compare a.second b.second).then (compare a.nano b.nano)

def le (a b : Instant) : Prop := a.second < b.second ∨ (a.second = b.second ∧ a.nano ≤ b.nano)

instance : LE Instant := ⟨le⟩

instance (a b : Instant) : Decidable (a ≤ b) := inferInstanceAs (Decidable (_ ∨ _ ∧ _))

end Instant

end RentalDesk
