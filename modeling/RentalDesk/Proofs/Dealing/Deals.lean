import RentalDesk.Proofs.Dealing.Services
import RentalDesk.Proofs.Plain.Order

/-!
# Deals

What a dealing does to the committed rows: an item is registered, an item is lent, or a fee is
settled, and with it the rental is closed if it was open. Each deal but a registration is made for
the renter whose rental it is. The rows that a deal goes on from are the committed ones at the time
of the commit, for they were locked since they were known; and the identifiers that come into use
are new.
-/

namespace RentalDesk

/-- The rows after a deal that is made for a renter, or for nobody. -/
inductive Tables.Deal (terms : Terms) (t : Tables) : Option RenterId → Tables → Prop
  | registered {renter? : Option RenterId} {item : Item} (new : t.items.get? item.id = none) :
      Deal terms t renter? (t.putItem item)
  | lent {c : Circumstances} {renter : RenterId} {item : Item} (prices : c.tariff = terms.tariff)
      (found : t.items.get? item.id = some item) (available : item.available = true)
      (rentalNew : t.rentals.get? (c.rental renter item.id).id = none)
      (feeNew : t.fees.get? c.fee.id = none) :
      Deal terms t (some renter) (t.lend item (c.rental renter item.id) c.fee)
  | returned {c : Circumstances} {fee : Fee} {rental : Rental} {item : Item} {amount : Decimal}
      (prices : c.tariff = terms.tariff) (owed : t.fees.get? fee.id = some fee)
      (unsettled : fee.isSettled = false) (lent : t.rentals.get? rental.id = some rental)
      (of : rental.id = fee.rentalId) (still : rental.isOpen = true)
      (found : t.items.get? item.id = some item) (home : item.id = rental.itemId)
      (accrued : terms.tariff.accrued (terms.medium.fee fee).amount rental.rentedAt c.now =
        .ok amount)
      (new : t.invoices.get? (c.invoice rental.renterId amount).id = none) :
      Deal terms t (some rental.renterId) ((t.close item rental c.now).settle
        (c.finalFee (terms.medium.fee fee) rental amount) (c.invoice rental.renterId amount))
  | paid {c : Circumstances} {fee : Fee} {rental : Rental} (prices : c.tariff = terms.tariff)
      (owed : t.fees.get? fee.id = some fee) (unsettled : fee.isSettled = false)
      (lent : t.rentals.get? rental.id = some rental) (of : rental.id = fee.rentalId)
      (closed : rental.isOpen = false)
      (new : t.invoices.get?
        (c.invoice rental.renterId (terms.medium.fee fee).amount).id = none) :
      Deal terms t (some rental.renterId) (t.settle (terms.medium.fee fee)
        (c.invoice rental.renterId (terms.medium.fee fee).amount))

namespace Tables.Deal

variable {terms : Terms} {t t' : Tables} {renter? : Option RenterId}

/-- No reference comes to point nowhere. -/
theorem intact (deal : Deal terms t renter? t') (h : t.Intact) : t'.Intact := by
  cases deal with
  | registered => exact h.putItem _
  | lent _ found =>
      refine ((h.putItem _).putRental ?_).putFee ?_
      · simp [Tables.putItem, Circumstances.rental, NewRental.withId]
      · simp [Tables.putRental, Tables.putItem, Circumstances.rental, Circumstances.fee,
          NewRental.withId, NewFee.withId]
  | returned _ _ _ lent of _ found home =>
      refine (((h.putRental ?_).putItem _).putInvoice _).putFee ?_
      · exact Table.contains_of_get? (home ▸ found)
      · simp [Tables.putInvoice, Tables.putItem, Tables.putRental, Circumstances.finalFee, of]
  | paid _ _ _ lent of =>
      refine (h.putInvoice _).putFee ?_
      simp [Tables.putInvoice, ← of, Table.contains_of_get? lent]

/-- Rows stay under their own identifiers. -/
theorem filed (deal : Deal terms t renter? t') (h : t.Filed) : t'.Filed := by
  cases deal with
  | @registered _ item => exact { h with items := h.items.insert item }
  | lent => exact h.lend ..
  | returned => exact (h.close ..).settle ..
  | paid => exact h.settle ..

end Tables.Deal

namespace Watch

variable {terms : Terms} {t : Tables} {last : Series → Nat} {w : Watch} {command : Command}
  {reply : Reply}

/-- The rows that were known are the committed ones. -/
theorem Knows.found {known : List (RowKey × Option Row)} {row : Row} (h : w.Knows known row)
    (fits : Policy.history.Fits terms.medium t last w.custody) : t.row? row.key = some row :=
  (fits.known _ _ h.2).2.2.1

/-- To commit what is prepared is a deal. -/
theorem Prepared.deal (h : w.Prepared terms command reply)
    (fits : Policy.history.Fits terms.medium t last w.custody)
    (working : w.custody.ended = false) :
    t.Deal terms w.renter? (t.merge w.custody.writes.staged) := by
  have unused := fun s id => fits.fresh working s id rfl
  cases h with
  | @lent c _ renter item prices _ behalf found available rentalDrawn feeDrawn staged =>
      have deal : t.Deal terms (some renter) (t.lend item (c.rental renter item.id) c.fee) :=
        .lent prices (Tables.row?_item.1 (found.found fits)) available
          (Tables.get?_of_unused_rental (unused _ _ rentalDrawn))
          (Tables.get?_of_unused_fee (unused _ _ feeDrawn))
      rwa [behalf, staged]
  | @returned c _ fee rental item amount prices _ behalf owed unsettled lent of still found home
      accrued drawn staged =>
      have deal : t.Deal terms (some rental.renterId) ((t.close item rental c.now).settle
          (c.finalFee (terms.medium.fee fee) rental amount)
          (c.invoice rental.renterId amount)) :=
        .returned prices (Tables.row?_fee.1 (owed.found fits)) unsettled
          (Tables.row?_rental.1 (lent.found fits)) of still
          (Tables.row?_item.1 (fits.known _ _ found).2.2.1) home accrued
          (Tables.get?_of_unused_invoice (unused _ _ drawn))
      rwa [behalf, staged]
  | paid prices _ behalf owed unsettled lent of closed drawn staged =>
      rw [behalf, staged]
      exact .paid prices (Tables.row?_fee.1 (owed.found fits)) unsettled
        (Tables.row?_rental.1 (lent.found fits)) of closed
        (Tables.get?_of_unused_invoice (unused _ _ drawn))

/-- An action of somebody who keeps to the discipline leaves the rows as they are, or is a deal. -/
theorem performed_deal (fits : Policy.history.Fits terms.medium t last w.custody)
    {action : Action} (permits : (dealing terms).permits w action) :
    t.performed w.custody.writes action = t ∨
      t.Deal terms w.renter? (t.performed w.custody.writes action) := by
  obtain ⟨custody, prepared⟩ := permits
  cases action
  case apply =>
      obtain ⟨_, _, prepared⟩ := prepared rfl
      exact .inr (prepared.deal fits custody.1)
  case placeItem item =>
      have new := (fits.known _ _ (custody.2.2 rfl)).2.2.1
      exact .inr (.registered (by simpa [Tables.row?] using new))
  case registerItem item =>
      rw [Tables.performed]
      split
      · exact .inl rfl
      · next new => exact .inr (.registered (Option.not_isSome_iff_eq_none.1 new))
  all_goals exact .inl rfl

end Watch

end RentalDesk
