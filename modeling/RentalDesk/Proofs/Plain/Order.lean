import RentalDesk.Proofs.Plain.Listings

/-!
# The plain desk in good order

What a request can leave behind on the plain desk: the rows as they were, an item lent, a fee
settled, or a rental closed and its fee settled. So rows stay under their own identifiers, and what
they refer to stays stored. On such rows a payment has no other refusals than a fee that is not the
renter's, a fee that is paid, and an amount that overflows, and they are looked at in this order.
-/

namespace RentalDesk

namespace Tables

/-- What a row refers to is stored. -/
structure Intact (t : Tables) : Prop where
  lent : ∀ id fee, t.fees.get? id = some fee → t.rentals.contains fee.rentalId
  shelved : ∀ id rental, t.rentals.get? id = some rental → t.items.contains rental.itemId

end Tables

namespace PlainDesk

/-- The rows that a request can leave behind. -/
inductive Leaves (t : Tables) : Tables → Prop
  | same : Leaves t t
  | lent {item : Item} {rental : Rental} {fee : Fee}
      (found : t.items.get? rental.itemId = some item) (owed : fee.rentalId = rental.id) :
      Leaves t (t.lend item rental fee)
  | settled {fee : Fee} {invoice : Invoice} (lent : t.rentals.contains fee.rentalId) :
      Leaves t (t.settle fee invoice)
  | returned {item : Item} {rental : Rental} {fee : Fee} {now : Instant} {invoice : Invoice}
      (found : t.items.get? rental.itemId = some item)
      (lent : t.rentals.get? fee.rentalId = some rental) :
      Leaves t ((t.close item rental now).settle fee invoice)

variable {tariff : Tariff} {now : Instant} {d : PlainDesk}

theorem leaves_rent (id : ItemId) (renter : RenterId) :
    Leaves d.tables (d.rent tariff now id renter).1.tables := by
  rw [rent]
  split
  · exact .same
  split
  · exact .same
  next found =>
  split
  · exact .lent found rfl
  · exact .same

theorem leaves_takeBack {fee : Fee} {rental : Rental} (renter : RenterId)
    (lent : d.tables.rentals.get? fee.rentalId = some rental) :
    Leaves d.tables (d.takeBack tariff now fee rental renter).1.tables := by
  rw [takeBack]
  split
  · exact .same
  next found =>
  split
  · exact .same
  · exact .returned found lent

theorem leaves_pay (id : FeeId) (renter : RenterId) :
    Leaves d.tables (d.pay tariff now id renter).1.tables := by
  rw [pay]
  split
  · exact .same
  split
  · exact .same
  split
  · exact .same
  next lent =>
  split
  · exact .same
  split
  · exact .same
  split
  · exact .settled (by rw [Table.contains, lent]; rfl)
  · exact leaves_takeBack renter lent

theorem leaves_answerLine (line : List Char) :
    Leaves d.tables (d.answerLine tariff now line).1.tables := by
  rw [answerLine]
  split
  · next command _ =>
      cases command with
      | rent item renter => exact leaves_rent item renter
      | pay fee renter => exact leaves_pay fee renter
      | listFees renter => exact .same
      | listRentals renter => exact .same
      | listInvoices renter => exact .same
      | listFilms => exact .same
  · exact .same

variable {t after : Tables}

theorem Leaves.filed (leaves : Leaves t after) (h : t.Filed) : after.Filed := by
  cases leaves with
  | same => exact h
  | lent => exact h.lend ..
  | settled => exact h.settle ..
  | returned => exact (h.close ..).settle ..

end PlainDesk

namespace Tables.Intact

variable {t : Tables}

theorem empty : Tables.empty.Intact :=
  ⟨fun _ _ h => absurd h.symm (Option.some_ne_none _),
    fun _ _ h => absurd h.symm (Option.some_ne_none _)⟩

theorem putItem (h : t.Intact) (item : Item) : (t.putItem item).Intact where
  lent := h.lent
  shelved id rental hrental := by simp [Tables.putItem, h.shelved id rental hrental]

theorem putRental (h : t.Intact) {rental : Rental} (shelved : t.items.contains rental.itemId) :
    (t.putRental rental).Intact where
  lent id fee hfee := by simp [Tables.putRental, h.lent id fee hfee]
  shelved id other hother := by
    simp only [Tables.putRental, Table.get?_insert] at hother
    split at hother
    · rw [← Option.some.inj hother]
      exact shelved
    · exact h.shelved id other hother

theorem putFee (h : t.Intact) {fee : Fee} (lent : t.rentals.contains fee.rentalId) :
    (t.putFee fee).Intact where
  lent id other hother := by
    simp only [Tables.putFee, Table.get?_insert] at hother
    split at hother
    · rw [← Option.some.inj hother]
      exact lent
    · exact h.lent id other hother
  shelved := h.shelved

theorem putInvoice (h : t.Intact) (invoice : Invoice) : (t.putInvoice invoice).Intact :=
  ⟨h.lent, h.shelved⟩

end Tables.Intact

namespace PlainDesk

variable {tariff : Tariff} {now : Instant} {d : PlainDesk} {t after : Tables}

/-- No reference comes to point nowhere. -/
theorem Leaves.intact (leaves : Leaves t after) (h : t.Intact) : after.Intact := by
  cases leaves with
  | same => exact h
  | lent found owed =>
      refine ((h.putItem _).putRental ?_).putFee ?_
      · simp [Tables.putItem, Table.contains_of_get? found]
      · simp [Tables.putRental, Tables.putItem, owed]
  | settled lent => exact (h.putInvoice _).putFee lent
  | returned found lent =>
      refine (((h.putRental ?_).putItem _).putInvoice _).putFee ?_
      · simp [Table.contains_of_get? found]
      · simp [Tables.putInvoice, Tables.putItem, Tables.putRental, Table.contains_of_get? lent]

/-! ## The order of refusals -/

/-- A film that is known is taken back unless the amount overflows. -/
theorem takeBack_of_found {fee : Fee} {rental : Rental} {item : Item} {renter : RenterId}
    (found : d.tables.items.get? rental.itemId = some item) :
    d.takeBack tariff now fee rental renter =
      match tariff.accrued fee.amount rental.rentedAt now with
      | .error _ => (d, .pay .storageError .zero)
      | .ok amount =>
        d.settle now (d.tables.close item rental now)
          { fee with
            amount, reason := closingReason (Tariff.elapsedMinutes rental.rentedAt now) }
          renter := by
  rw [takeBack]
  split
  · next unknown => cases unknown.symm.trans found
  · next other known =>
      obtain rfl := Option.some.inj (known.symm.trans found)
      rfl

/-- What is refused to somebody who pays a fee that is stored: a fee that is paid, whoever asks,
the fee of another renter, and an amount that overflows, in this order. -/
theorem pay_of_intact (h : d.tables.Intact) {id : FeeId} {renter : RenterId} {fee : Fee}
    (valid : ¬ (id = 0 ∨ renter = 0)) (owed : d.tables.fees.get? id = some fee) :
    ∃ rental item, d.tables.rentals.get? fee.rentalId = some rental ∧
      d.tables.items.get? rental.itemId = some item ∧
      d.pay tariff now id renter =
        if fee.settlement.isSome then (d, .pay .alreadyPaid .zero)
        else if rental.renterId ≠ renter then (d, .pay .notOwner .zero)
        else if rental.returnedAt.isSome then d.settle now d.tables fee renter
        else
          match tariff.accrued fee.amount rental.rentedAt now with
          | .error _ => (d, .pay .storageError .zero)
          | .ok amount =>
            d.settle now (d.tables.close item rental now)
              { fee with
                amount, reason := closingReason (Tariff.elapsedMinutes rental.rentedAt now) }
              renter := by
  obtain ⟨rental, lent⟩ := Option.isSome_iff_exists.1 (h.lent id fee owed)
  obtain ⟨item, found⟩ := Option.isSome_iff_exists.1 (h.shelved fee.rentalId rental lent)
  refine ⟨rental, item, lent, found, ?_⟩
  have hlent : d.tables.rentals.get? fee.rentalId = some rental := lent
  simp only [pay, if_neg valid, owed, hlent, takeBack_of_found found]

/-- Rows that are in order stay so, whatever is requested. -/
theorem attend_intact (h : d.tables.Intact) (visits : List (Instant × List Char)) :
    (d.attend tariff visits).1.tables.Intact := by
  induction visits generalizing d with
  | nil => exact h
  | cons visit visits ih => exact ih ((leaves_answerLine visit.2).intact h)

end PlainDesk

end RentalDesk
