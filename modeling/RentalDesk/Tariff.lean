import RentalDesk.Error

/-!
# Tariffs

A rental costs a base fee and an amount for every minute that it is open. Elapsed time is counted
in whole milliseconds and expressed in minutes, exactly if five decimals suffice and otherwise with
as many decimals as a decimal holds. The accrued amount is rounded once more to currency scale.
-/

namespace RentalDesk

/-- The prices of a desk. -/
structure Tariff where
  baseFee : Decimal
  accrualRate : Decimal
deriving DecidableEq

namespace Tariff

/-- The usual prices: 10.00 for a rental and 1.50 for a minute. -/
def standard : Tariff where
  baseFee := ⟨false, 1000, 2, by decide, by decide⟩
  accrualRate := ⟨false, 150, 2, by decide, by decide⟩

abbrev millisPerMinute : Nat := 60000

/-- Five decimals, of which two zeros at the end and then one more zero are dropped. -/
def trimFive (mantissa : Nat) : Nat × Nat :=
  let (mantissa, scale) : Nat × Nat :=
    if mantissa % 100 = 0 then (mantissa / 100, 3) else (mantissa, 5)
  if mantissa % 10 = 0 then (mantissa / 10, scale - 1) else (mantissa, scale)

/-- So many milliseconds in minutes: a whole number, five decimals, or the most decimals that a
decimal holds, a half going to the even neighbour. -/
def minutesOfMillis? (millis : Nat) : Option Decimal :=
  if millis % millisPerMinute = 0 then Decimal.ofNat? (millis / millisPerMinute)
  else if 100000 * millis % millisPerMinute = 0 then
    let (mantissa, scale) := trimFive (100000 * millis / millisPerMinute)
    Decimal.ofParts? false mantissa scale
  else
    (List.range (Decimal.maxScale + 1)).findSome? fun dropped =>
      let scale := Decimal.maxScale - dropped
      Decimal.ofParts? false (Decimal.divHalfEven (millis * tenPow scale) millisPerMinute) scale

/-- The minutes from `start` to `stop`, zero if `stop` is not later. The calendar is too short for
a time that does not fit. -/
def elapsedMinutes (start stop : Instant) : Decimal :=
  (minutesOfMillis? (Instant.millisBetween start stop).toNat).getD Decimal.zero

/-- What a rental with the given base amount has come to. -/
def accrued (tariff : Tariff) (base : Decimal) (start stop : Instant) : Except Error Decimal :=
  match ((elapsedMinutes start stop).mul? tariff.accrualRate).bind base.add? with
  | some amount => .ok amount.rounded
  | none => .error (.amountOverflow base tariff.accrualRate start stop)

end Tariff

end RentalDesk
