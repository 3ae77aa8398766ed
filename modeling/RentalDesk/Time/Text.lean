import RentalDesk.Powers
import RentalDesk.Time.Instant
import RentalDesk.Text.Blank
import RentalDesk.Text.Digits

/-!
# The text of an instant

Instants are written as RFC 3339 dates with a time: a year of at least four digits, with a sign if
it is outside 0 to 9999, and as many decimals of the second as nothing, milliseconds, microseconds
or nanoseconds need. A leap second is written as second 60.

Reading is lenient: numbers may be shorter than written, blanks may stand before each number, `-`
and `:`, and any offset from UTC below a day is accepted. Digits behind the ninth decimal are
skipped.
-/

namespace RentalDesk.Instant

open Text

/-- The decimals of the second. -/
def fractionText (nanos : Nat) : List Char :=
  if nanos = 0 then []
  else if nanos % 1000000 = 0 then '.' :: paddedDigits 3 (nanos / 1000000)
  else if nanos % 1000 = 0 then '.' :: paddedDigits 6 (nanos / 1000)
  else '.' :: paddedDigits 9 nanos

/-- The year, with a sign outside the years of four digits. -/
def yearText (year : Int) : List Char :=
  if 0 ≤ year ∧ year ≤ 9999 then paddedDigits 4 year.toNat
  else (if year < 0 then '-' else '+') :: paddedDigits 4 year.natAbs

def date (i : Instant) : Date := Date.ofDay (i.second / secondsPerDay)

/-- The second of the minute, 60 inside a leap second. -/
def secondOfMinute (i : Instant) : Nat := (i.second % 60).toNat + i.nano / nanosPerSecond

/-- Date and time with the given separator between them and the given zone behind. -/
def write (separator : Char) (zone : List Char) (i : Instant) : List Char :=
  let d := i.date
  let time := i.timeOfDay.toNat
  yearText d.year ++ '-' :: paddedDigits 2 d.month ++ '-' :: paddedDigits 2 d.day ++
    separator :: paddedDigits 2 (time / 3600) ++ ':' :: paddedDigits 2 (time / 60 % 60) ++
    ':' :: paddedDigits 2 i.secondOfMinute ++ fractionText (i.nano % nanosPerSecond) ++ zone

/-- The form of stored rows, with `Z` for UTC. -/
def rowText (i : Instant) : String := String.ofList (write 'T' ['Z'] i)

/-- The form of protocol lines, with a zero offset. -/
def lineText (i : Instant) : String := String.ofList (write 'T' "+00:00".toList i)

/-- The form for readers of messages. -/
def messageText (i : Instant) : String := String.ofList (write ' ' " UTC".toList i)

/-- At least one and at most `limit` digits, and what follows them. -/
def readNumber? (limit : Nat) (cs : List Char) : Option (Nat × List Char) :=
  let digits := (cs.take limit).takeWhile Char.isDigit
  if digits.isEmpty then none else some (natOfDigits digits, cs.drop digits.length)

/-- The year: four digits at most without a sign, any number of them with one. -/
def readYear? (cs : List Char) : Option (Int × List Char) :=
  match trimStart cs with
  | '-' :: rest => (readNumber? rest.length rest).map fun (n, rest) => (-(n : Int), rest)
  | '+' :: rest => (readNumber? rest.length rest).map fun (n, rest) => ((n : Int), rest)
  | rest => (readNumber? 4 rest).map fun (n, rest) => ((n : Int), rest)

/-- A number of at most two digits, between the given bounds. -/
def readField? (low high : Nat) (cs : List Char) : Option (Nat × List Char) :=
  (readNumber? 2 (trimStart cs)).filter fun (n, _) => low ≤ n && n ≤ high

/-- The given character after optional blanks. -/
def readMark? (mark : Char) (cs : List Char) : Option (List Char) :=
  match trimStart cs with
  | c :: rest => if c = mark then some rest else none
  | [] => none

/-- The decimals of the second in nanoseconds, if a point announces them. -/
def readFraction? : List Char → Option (Nat × List Char)
  | '.' :: cs =>
    let digits := (cs.take 9).takeWhile Char.isDigit
    if digits.isEmpty then none
    else
      some (natOfDigits digits * tenPow (9 - digits.length),
        (cs.drop digits.length).dropWhile Char.isDigit)
  | cs => some (0, cs)

/-- The minutes of an offset, after any colons and blanks. -/
def readOffsetMinutes? (cs : List Char) : Option (Nat × List Char) :=
  match cs.dropWhile fun c => c == ':' || isBlank c with
  | a :: b :: rest =>
    if a.isDigit ∧ b.isDigit ∧ a < '6' then some (natOfDigits [a, b], rest) else none
  | _ => none

/-- The offset from UTC in seconds: `Z`, `UTC` in letters of either case, or signed hours and
minutes, with a hyphen or a minus sign. -/
def readOffset? (cs : List Char) : Option (Int × List Char) :=
  match cs with
  | u :: t :: c :: rest =>
    if [u, t, c].map Char.toUpper = ['U', 'T', 'C'] then some (0, rest) else signedOffset? cs
  | _ => signedOffset? cs
where
  signedOffset? : List Char → Option (Int × List Char)
    | 'Z' :: rest => some (0, rest)
    | 'z' :: rest => some (0, rest)
    | sign :: a :: b :: rest =>
      if (sign = '+' ∨ sign = '-' ∨ sign = '−') ∧ a.isDigit ∧ b.isDigit then
        (readOffsetMinutes? rest).map fun (minutes, rest) =>
          let seconds : Int := 3600 * natOfDigits [a, b] + 60 * minutes
          (if sign = '+' then seconds else -seconds, rest)
      else none
    | _ => none

/-- The separator of date and time. -/
def readSeparator? : List Char → Option (List Char)
  | c :: rest => if c = 'T' ∨ c = 't' ∨ c = ' ' then some rest else none
  | [] => none

/-- The instant of a date, a time of day with a fraction, and an offset from UTC. The local time
has to lie within the calendar as well. -/
def ofCivil? (date : Date) (hour minute second nano : Nat) (offset : Int) : Option Instant :=
  if date.Exists ∧ offset.natAbs < secondsPerDay.natAbs then
    let leap := second = 60
    let ofDay : Int := 3600 * hour + 60 * minute + (if leap then 59 else second)
    let nano := if leap then nanosPerSecond + nano else nano
    let localSecond := date.toDay * secondsPerDay + ofDay
    if firstSecond ≤ localSecond ∧ localSecond ≤ lastSecond then
      ofParts? (localSecond - offset) nano
    else none
  else none

/-- Reads an instant from the whole text. -/
def read? (cs : List Char) : Option Instant := do
  let (year, cs) ← readYear? cs
  let cs ← readMark? '-' cs
  let (month, cs) ← readField? 1 12 cs
  let cs ← readMark? '-' cs
  let (day, cs) ← readField? 1 31 cs
  let cs ← readSeparator? cs
  let (hour, cs) ← readField? 0 23 cs
  let cs ← readMark? ':' cs
  let (minute, cs) ← readField? 0 59 cs
  let cs ← readMark? ':' cs
  let (second, cs) ← readField? 0 60 cs
  let (nano, cs) ← readFraction? cs
  let (offset, cs) ← readOffset? (trimStart cs)
  if (trimStart cs).isEmpty then ofCivil? ⟨year, month, day⟩ hour minute second nano offset
  else none

def ofText? (s : String) : Option Instant := read? s.toList

end RentalDesk.Instant
