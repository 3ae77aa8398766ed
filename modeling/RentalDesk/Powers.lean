/-!
# Powers

The powers of ten and of two by which decimals and binary numbers are scaled.
-/

namespace RentalDesk

/-- The power of ten with the given exponent. -/
abbrev tenPow (n : Nat) : Nat := Nat.pow 10 n

theorem tenPow_pos : (n : Nat) → 0 < tenPow n
  | 0 => Nat.zero_lt_one
  | n + 1 => Nat.mul_pos (tenPow_pos n) (by decide)

/-- The power of two with the given exponent. -/
abbrev twoPow (n : Nat) : Nat := Nat.pow 2 n

end RentalDesk
