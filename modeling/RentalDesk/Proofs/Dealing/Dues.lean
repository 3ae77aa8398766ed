import RentalDesk.Proofs.Dealing.Deals

/-!
# Dues

A fee comes with its rental, and is settled when the rental is closed. So a rental never has two
fees, a fee that is not settled is one of an open rental, and no fee is ever settled that belongs to
a rental which is closed already. Prices may change in between.
-/

namespace RentalDesk

namespace Tables

/-- Each rental has at most one fee, and what is due is due for an open rental. -/
structure Dues (t : Tables) : Prop where
  charged_once : ∀ key key' fee fee', t.fees.get? key = some fee → t.fees.get? key' = some fee' →
    fee.rentalId = fee'.rentalId → key = key'
  due : ∀ key fee, t.fees.get? key = some fee → fee.isSettled = false →
    ∃ rental, t.rentals.get? fee.rentalId = some rental ∧ rental.isOpen = true

variable {terms : Terms} {t t' : Tables} {renter? : Option RenterId} {item : Item} {rental : Rental}
  {fee : Fee}

namespace Dues

theorem empty : Tables.empty.Dues := by
  constructor <;> simp [Tables.empty]

/-- The fee of a closed rental is settled. -/
theorem settled (h : t.Dues) {key : FeeId} (owed : t.fees.get? key = some fee)
    (lent : t.rentals.get? fee.rentalId = some rental) (closed : rental.isOpen = false) :
    fee.isSettled = true := by
  by_contra unsettled
  obtain ⟨row, hrow, still⟩ := h.due key fee owed (Bool.eq_false_iff.2 unsettled)
  rw [Option.some.inj (lent.symm.trans hrow), still] at closed
  cases closed

theorem lend (h : t.Dues) (intact : t.Intact) (rentalNew : t.rentals.get? rental.id = none)
    (of : fee.rentalId = rental.id) (still : rental.isOpen = true) :
    (t.lend item rental fee).Dues := by
  have hother : ∀ key other, t.fees.get? key = some other → other.rentalId ≠ rental.id := by
    intro key other hother hid
    have stored : t.rentals.contains rental.id := hid ▸ intact.lent key other hother
    rw [Table.contains, rentalNew] at stored
    cases stored
  obtain ⟨charged_once, due⟩ := h
  constructor <;> simp only [fees_lend, rentals_lend, Table.get?_insert]
  case charged_once => grind
  case due => grind

/-- The only fee of the rental is settled when the rental is closed. -/
theorem settle_close (h : t.Dues) {now : Instant} {invoice : Invoice} {final : Fee}
    (owed : t.fees.get? fee.id = some fee) (of : rental.id = fee.rentalId)
    (same : final.id = fee.id ∧ final.rentalId = fee.rentalId) :
    ((t.close item rental now).settle final invoice).Dues := by
  obtain ⟨charged_once, due⟩ := h
  constructor <;> simp only [fees_settle, rentals_settle, fees_close, rentals_close,
    Table.get?_insert]
  case charged_once => grind
  case due => grind [Fee.isSettled]

end Dues

/-- No deal makes a second fee for a rental or leaves a due one on a closed rental. -/
theorem Deal.dues (deal : t.Deal terms renter? t') (intact : t.Intact) (h : t.Dues) : t'.Dues := by
  cases deal with
  | registered => exact ⟨h.charged_once, h.due⟩
  | lent _ _ _ rentalNew => exact h.lend intact rentalNew rfl rfl
  | returned _ owed _ _ of =>
      exact h.settle_close owed of ⟨terms.medium.id_fee _, terms.medium.rentalId_fee _⟩
  | paid _ owed unsettled lent of closed =>
      rw [h.settled owed (of ▸ lent) closed] at unsettled
      cases unsettled

end Tables

end RentalDesk
