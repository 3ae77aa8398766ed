import RentalDesk.Operations.Pay
import RentalDesk.Operations.Register
import RentalDesk.Operations.Rent
import RentalDesk.Proofs.Lookup

/-!
# Errands

Visitors come to register an item, to rent one or to pay a fee. What an errand should come to is
said here without transactions: given the rows, a reading of the clock and the identifiers to be
drawn, the verdict is the outcome of the errand and, unless nothing changes, the rows afterwards.
`Errand.Change` lists the only four changes that a verdict can make.
-/

namespace RentalDesk

/-- What a visitor comes for. -/
inductive Errand where
  | register (id : ItemId) (title : String)
  | rent (renter : RenterId) (item : ItemId)
  | pay (fee : FeeId) (renter : RenterId)
deriving DecidableEq

/-- What an errand ends with. -/
inductive Outcome where
  | registered (result : Except Error Bool)
  | rented (result : Except Error Rented)
  | settled (result : Except Error Settlement)

/-- The error that an errand ends with. -/
def Outcome.error? : Outcome → Option Error
  | .registered (.error e) | .rented (.error e) | .settled (.error e) => some e
  | _ => none

namespace Errand

def task (terms : Terms) : Errand → Task Outcome
  | .register id title => return .registered (← (terms.register (.new id title)).run)
  | .rent renter item => return .rented (← (terms.rent renter item).run)
  | .pay fee renter => return .settled (← (terms.pay fee renter).run)

def failed (e : Error) : Errand → Outcome
  | .register .. => .registered (.error e)
  | .rent .. => .rented (.error e)
  | .pay .. => .settled (.error e)

@[simp] theorem error?_failed (errand : Errand) (e : Error) :
    (errand.failed e).error? = some e := by
  cases errand <;> rfl

/-- The series that an errand draws from when it succeeds. -/
def draws : Errand → List Series
  | .register .. => []
  | .rent .. => [.rentals, .fees]
  | .pay .. => [.invoices]

end Errand

namespace Tables

/-- The rows after an item was rented. -/
def lend (t : Tables) (item : Item) (rental : Rental) (fee : Fee) : Tables :=
  ((t.putItem { item with available := false }).putRental rental).putFee fee

/-- The rows after a rental was closed. -/
def close (t : Tables) (item : Item) (rental : Rental) (now : Instant) : Tables :=
  (t.putRental { rental with returnedAt := some now }).putItem { item with available := true }

/-- The rows after a fee was settled by an invoice. -/
def settle (t : Tables) (fee : Fee) (invoice : Invoice) : Tables :=
  (t.putInvoice invoice).putFee { fee with settlement := some invoice.id }

section

variable (t : Tables) (item : Item) (rental : Rental) (fee : Fee) (now : Instant)
  (invoice : Invoice)

@[simp] theorem items_lend : (t.lend item rental fee).items =
    t.items.insert item.id { item with available := false } := rfl

@[simp] theorem rentals_lend : (t.lend item rental fee).rentals =
    t.rentals.insert rental.id rental := rfl

@[simp] theorem fees_lend : (t.lend item rental fee).fees = t.fees.insert fee.id fee := rfl

@[simp] theorem invoices_lend : (t.lend item rental fee).invoices = t.invoices := rfl

@[simp] theorem items_close : (t.close item rental now).items =
    t.items.insert item.id { item with available := true } := rfl

@[simp] theorem rentals_close : (t.close item rental now).rentals =
    t.rentals.insert rental.id { rental with returnedAt := some now } := rfl

@[simp] theorem fees_close : (t.close item rental now).fees = t.fees := rfl

@[simp] theorem invoices_close : (t.close item rental now).invoices = t.invoices := rfl

@[simp] theorem rentals_settle : (t.settle fee invoice).rentals = t.rentals := rfl

@[simp] theorem fees_settle : (t.settle fee invoice).fees =
    t.fees.insert fee.id { fee with settlement := some invoice.id } := rfl

@[simp] theorem invoices_settle : (t.settle fee invoice).invoices =
    t.invoices.insert invoice.id invoice := rfl

end

end Tables

/-- The circumstances of an errand: the prices, the time and the identifiers that it draws. -/
structure Circumstances where
  tariff : Tariff
  now : Instant
  ids : Sequences

namespace Circumstances

variable (c : Circumstances) (t : Tables)

def rental (renter : RenterId) (id : ItemId) : Rental :=
  NewRental.withId ⟨id, renter, c.now⟩ c.ids.rentals.next

def fee : Fee :=
  NewFee.withId ⟨c.ids.rentals.next, c.tariff.baseFee, baseFeeReason⟩ c.ids.fees.next

def invoice (renter : RenterId) (amount : Decimal) : Invoice :=
  NewInvoice.withId ⟨renter, c.now, amount⟩ c.ids.invoices.next

/-- The fee of a rental that is closed, with the amount that it has come to. -/
def finalFee (fee : Fee) (rental : Rental) (amount : Decimal) : Fee :=
  { fee with amount, reason := closingReason (Tariff.elapsedMinutes rental.rentedAt c.now) }

def rent (renter : RenterId) (id : ItemId) : Except Error (Rented × Tables) :=
  if id = 0 then .error (.invalidId .item)
  else if renter = 0 then .error (.invalidId .renter)
  else
    match t.items.get? id with
    | none => .error (.itemUnavailable id)
    | some item =>
      if item.available then
        .ok (⟨(c.rental renter id).id, c.fee.id, c.fee.amount⟩,
          t.lend item (c.rental renter id) c.fee)
      else .error (.itemUnavailable id)

def payOpen (fee : Fee) (rental : Rental) (id : FeeId) (renter : RenterId) :
    Except Error (Settlement × Tables) :=
  match t.items.get? rental.itemId with
  | none => .error (.storage (.missingItem rental.id rental.itemId))
  | some item =>
    match c.tariff.accrued fee.amount rental.rentedAt c.now with
    | .error e => .error e
    | .ok amount =>
      .ok (⟨id, (c.invoice renter amount).id, amount, some item.id⟩,
        (t.close item rental c.now).settle (c.finalFee fee rental amount)
          (c.invoice renter amount))

def pay (id : FeeId) (renter : RenterId) : Except Error (Settlement × Tables) :=
  if id = 0 ∨ renter = 0 then .error (.notOwner id)
  else
    match t.fees.get? id with
    | none => .error (.notOwner id)
    | some fee =>
      match t.rentals.get? fee.rentalId with
      | none => .error (.storage (.missingRental fee.id fee.rentalId))
      | some rental =>
        if fee.isSettled then .error (.alreadyPaid id)
        else if rental.renterId ≠ renter then .error (.notOwner id)
        else if rental.isOpen then c.payOpen t fee rental id renter
        else
          .ok (⟨id, (c.invoice renter fee.amount).id, fee.amount, none⟩,
            t.settle fee (c.invoice renter fee.amount))

/-- The outcome of an errand, and the rows that it commits if it commits any. -/
def verdict : Errand → Option Tables × Outcome
  | .register id title =>
    if t.items.contains id then (none, .registered (.ok false))
    else (some (t.putItem (.new id title)), .registered (.ok true))
  | .rent renter id =>
    match c.rent t renter id with
    | .ok (rented, after) => (some after, .rented (.ok rented))
    | .error e => (none, .rented (.error e))
  | .pay id renter =>
    match c.pay t id renter with
    | .ok (settlement, after) => (some after, .settled (.ok settlement))
    | .error e => (none, .settled (.error e))

end Circumstances

namespace Errand

/-- The changes that an errand can make to the rows. -/
inductive Change (c : Circumstances) (t : Tables) : Errand → Outcome → Tables → Prop
  | registered {id : ItemId} {title : String} (new : t.items.get? id = none) :
      Change c t (.register id title) (.registered (.ok true)) (t.putItem (.new id title))
  | rented {renter : RenterId} {id : ItemId} {item : Item} (found : t.items.get? id = some item)
      (available : item.available = true) :
      Change c t (.rent renter id)
        (.rented (.ok ⟨(c.rental renter id).id, c.fee.id, c.fee.amount⟩))
        (t.lend item (c.rental renter id) c.fee)
  | returned {id : FeeId} {renter : RenterId} {fee : Fee} {rental : Rental} {item : Item}
      {amount : Decimal} (owed : t.fees.get? id = some fee) (unsettled : fee.settlement = none)
      (lent : t.rentals.get? fee.rentalId = some rental) (owner : rental.renterId = renter)
      (still : rental.returnedAt = none) (found : t.items.get? rental.itemId = some item)
      (accrued : c.tariff.accrued fee.amount rental.rentedAt c.now = .ok amount) :
      Change c t (.pay id renter)
        (.settled (.ok ⟨id, (c.invoice renter amount).id, amount, some item.id⟩))
        ((t.close item rental c.now).settle (c.finalFee fee rental amount)
          (c.invoice renter amount))
  | paid {id : FeeId} {renter : RenterId} {fee : Fee} {rental : Rental} {time : Instant}
      (owed : t.fees.get? id = some fee) (unsettled : fee.settlement = none)
      (lent : t.rentals.get? fee.rentalId = some rental) (owner : rental.renterId = renter)
      (back : rental.returnedAt = some time) :
      Change c t (.pay id renter)
        (.settled (.ok ⟨id, (c.invoice renter fee.amount).id, fee.amount, none⟩))
        (t.settle fee (c.invoice renter fee.amount))

variable {c : Circumstances} {t after : Tables} {errand : Errand} {o : Outcome}

theorem change_of_rent {renter : RenterId} {id : ItemId} {rented : Rented}
    (h : c.rent t renter id = .ok (rented, after)) :
    Change c t (.rent renter id) (.rented (.ok rented)) after := by
  rw [Circumstances.rent] at h
  split at h
  · cases h
  split at h
  · cases h
  split at h
  · cases h
  next found =>
  split at h
  · next available =>
      cases h
      exact .rented found available
  · cases h

theorem change_of_payOpen {id : FeeId} {renter : RenterId} {fee : Fee} {rental : Rental}
    {settlement : Settlement} (owed : t.fees.get? id = some fee)
    (unsettled : fee.settlement = none) (lent : t.rentals.get? fee.rentalId = some rental)
    (owner : rental.renterId = renter) (still : rental.returnedAt = none)
    (h : c.payOpen t fee rental id renter = .ok (settlement, after)) :
    Change c t (.pay id renter) (.settled (.ok settlement)) after := by
  rw [Circumstances.payOpen] at h
  split at h
  · cases h
  next found =>
  split at h
  · cases h
  next accrued =>
  cases h
  exact .returned owed unsettled lent owner still found accrued

theorem change_of_pay {id : FeeId} {renter : RenterId} {settlement : Settlement}
    (h : c.pay t id renter = .ok (settlement, after)) :
    Change c t (.pay id renter) (.settled (.ok settlement)) after := by
  rw [Circumstances.pay] at h
  split at h
  · cases h
  split at h
  · cases h
  next owed =>
  split at h
  · cases h
  next rental lent =>
  split at h
  · cases h
  next hsettled =>
  have unsettled := Option.not_isSome_iff_eq_none.1 hsettled
  split at h
  · cases h
  next howner =>
  have owner := Decidable.not_not.1 howner
  split at h
  · next still =>
      exact change_of_payOpen owed unsettled lent owner (Option.isNone_iff_eq_none.1 still) h
  · next hback =>
      obtain ⟨time, back⟩ := Option.ne_none_iff_exists'.1 fun still =>
        hback (Option.isNone_iff_eq_none.2 still)
      cases h
      exact .paid owed unsettled lent owner back

/-- A verdict that changes the rows is one of the four changes. -/
theorem change_of_verdict (h : c.verdict t errand = (some after, o)) :
    Change c t errand o after := by
  cases errand with
  | register id title =>
      rw [Circumstances.verdict] at h
      split at h
      · cases h
      · next hnew =>
          cases h
          exact .registered (by simpa [Table.contains] using hnew)
  | rent renter id =>
      rw [Circumstances.verdict] at h
      split at h
      · next hrent =>
          cases h
          exact change_of_rent hrent
      · cases h
  | pay id renter =>
      rw [Circumstances.verdict] at h
      split at h
      · next hpay =>
          cases h
          exact change_of_pay hpay
      · cases h

/-- An errand that changes the rows ends well. -/
theorem Change.error?_eq_none (h : Change c t errand o after) : o.error? = none := by
  cases h <;> rfl

/-- Rows stay under their own keys. -/
theorem Change.keyed (h : Change c t errand o after) (keyed : t.Keyed) : after.Keyed := by
  cases h with
  | registered => exact keyed.putItem _
  | rented => exact ((keyed.putItem _).putRental _).putFee _
  | returned => exact (((keyed.putRental _).putItem _).putInvoice _).putFee _
  | paid => exact (keyed.putInvoice _).putFee _

/-- An identifier that comes into use is the one that is drawn. -/
theorem Change.uses (h : Change c t errand o after) (keyed : t.Keyed) {s : Series} {id : UInt64}
    (hid : after.uses s id) : t.uses s id ∨ s ∈ errand.draws ∧ id = c.ids.next s := by
  cases h with
  | registered => exact .inl (by simpa using hid)
  | rented =>
      simp only [Tables.lend, Tables.uses_putFee, Tables.uses_putRental, Tables.uses_putItem,
        Bool.or_eq_true, decide_eq_true_eq] at hid
      rcases hid with ⟨rfl, rfl⟩ | ⟨rfl, rfl⟩ | hid
      · exact .inr ⟨by simp [draws], rfl⟩
      · exact .inr ⟨by simp [draws], rfl⟩
      · exact .inl hid
  | @returned _ _ fee rental item _ owed _ lent =>
      simp only [Tables.settle, Tables.close, Tables.uses_putFee, Tables.uses_putInvoice,
        Tables.uses_putItem, Tables.uses_putRental, Bool.or_eq_true, decide_eq_true_eq] at hid
      rcases hid with ⟨rfl, rfl⟩ | ⟨rfl, rfl⟩ | ⟨rfl, rfl⟩ | hid
      · exact .inl (Tables.uses_fees.2 (by simp [Circumstances.finalFee, keyed.fee_id owed,
          Tables.row?_fee.2 owed]))
      · exact .inr ⟨by simp [draws], rfl⟩
      · exact .inl (Tables.uses_rentals.2 (by simp [keyed.rental_id lent,
          Tables.row?_rental.2 lent]))
      · exact .inl hid
  | @paid _ _ fee _ _ owed =>
      simp only [Tables.settle, Tables.uses_putFee, Tables.uses_putInvoice, Bool.or_eq_true,
        decide_eq_true_eq] at hid
      rcases hid with ⟨rfl, rfl⟩ | ⟨rfl, rfl⟩ | hid
      · exact .inl (Tables.uses_fees.2 (by simp [keyed.fee_id owed, Tables.row?_fee.2 owed]))
      · exact .inr ⟨by simp [draws], rfl⟩
      · exact .inl hid

end Errand

end RentalDesk
