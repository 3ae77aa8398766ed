import RentalDesk.Tariff

/-!
# Settings

What a desk is opened with: its prices and the time that a transaction waits for a row. Prices must
not be negative; of two wrong prices the base fee is reported.
-/

namespace RentalDesk

/-- The settings of a desk. -/
structure Settings where
  baseFee : Decimal
  accrualRate : Decimal
  lockWaitMillis : UInt64
deriving DecidableEq

namespace Settings

/-- The usual prices, and five seconds of waiting. -/
def standard : Settings := ⟨Tariff.standard.baseFee, Tariff.standard.accrualRate, 5000⟩

/-- The prices, if they are acceptable. -/
def tariff (s : Settings) : Except Error Tariff :=
  if s.baseFee.negative then .error (.invalidSettings (.negativeBaseFee s.baseFee))
  else if s.accrualRate.negative then
    .error (.invalidSettings (.negativeAccrualRate s.accrualRate))
  else .ok ⟨s.baseFee, s.accrualRate⟩

end Settings

end RentalDesk
