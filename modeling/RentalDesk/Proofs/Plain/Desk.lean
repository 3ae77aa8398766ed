import RentalDesk.Answering
import Mathlib.Data.List.Sort
import RentalDesk.Proofs.Errand

/-!
# The plain desk

A rental desk as a visitor sees it: rows, the identifiers that come next, and nothing else. There
are no transactions, no locks and no write sets. A request is answered at once, and a request that
is refused leaves the desk as it was. The listings are read off the tables in the order of their
keys; `owed_pairwise` and its likes show that they need no sorting.

A fee whose rental is not stored, and an open rental whose item is not stored, are faults of
storage. `Tables.Intact` excludes both, and then paying has only the refusals of `pay_of_intact`.
-/

namespace RentalDesk

/-- The rows of a desk and the identifiers that it draws next. -/
structure PlainDesk where
  tables : Tables
  next : Sequences

namespace Tables

/-- The fees of the rentals of a renter with their rentals, by descending identifier. -/
def owed (t : Tables) (renter : RenterId) : List (Fee × Rental) :=
  t.fees.values.reverse.filterMap fun fee =>
    ((t.rentals.get? fee.rentalId).filter fun rental => rental.renterId = renter).map fun rental =>
      (fee, rental)

/-- Whether a rental is listed before another one: it started later, or else it is the later one
of two that started together. -/
def Precedes (a b : Rental) : Prop :=
  compare b.rentedAt a.rentedAt = .lt ∨ b.rentedAt = a.rentedAt ∧ b.id ≤ a.id

instance (a b : Rental) : Decidable (Precedes a b) := inferInstanceAs (Decidable (_ ∨ _ ∧ _))

/-- The rentals of a renter, the newest first. -/
def lent (t : Tables) (renter : RenterId) : List Rental :=
  (t.rentals.values.filter fun rental => rental.renterId = renter).insertionSort Precedes

/-- The invoices of a renter by descending identifier. -/
def paid (t : Tables) (renter : RenterId) : List Invoice :=
  t.invoices.values.reverse.filter fun invoice => invoice.renterId = renter

/-- The title of an item, and no words for an item that is not stored. -/
def title (t : Tables) (id : ItemId) : String :=
  match t.items.get? id with
  | some item => item.title
  | none => ""

end Tables

namespace PlainDesk

variable (tariff : Tariff) (now : Instant) (d : PlainDesk)

/-- Rents an item to a renter. -/
def rent (id : ItemId) (renter : RenterId) : PlainDesk × Reply :=
  if id = 0 ∨ renter = 0 then (d, .rent .itemUnavailable .zero)
  else
    match d.tables.items.get? id with
    | none => (d, .rent .itemUnavailable .zero)
    | some item =>
      if item.available then
        let rental : Rental := ⟨d.next.rentals.next, id, renter, now, none⟩
        let fee : Fee := ⟨d.next.fees.next, rental.id, tariff.baseFee, baseFeeReason, none⟩
        (⟨d.tables.lend item rental fee,
          { d.next with
            rentals := ⟨d.next.rentals.next + 1⟩
            fees := ⟨d.next.fees.next + 1⟩ }⟩,
          .rent .ok tariff.baseFee)
      else (d, .rent .itemUnavailable .zero)

/-- Settles a fee in the given rows by one more invoice over its amount. -/
def settle (t : Tables) (fee : Fee) (renter : RenterId) : PlainDesk × Reply :=
  (⟨t.settle fee ⟨d.next.invoices.next, renter, now, fee.amount⟩,
    { d.next with invoices := ⟨d.next.invoices.next + 1⟩ }⟩,
    .pay .settled fee.amount)

/-- Takes an item back: the rental is closed, and its fee frozen and settled. -/
def takeBack (fee : Fee) (rental : Rental) (renter : RenterId) : PlainDesk × Reply :=
  match d.tables.items.get? rental.itemId with
  | none => (d, .pay .storageError .zero)
  | some item =>
    match tariff.accrued fee.amount rental.rentedAt now with
    | .error _ => (d, .pay .storageError .zero)
    | .ok amount =>
      let reason := closingReason (Tariff.elapsedMinutes rental.rentedAt now)
      d.settle now (d.tables.close item rental now) { fee with amount, reason } renter

/-- Pays a fee that is stored with its rental. -/
def payFound (fee : Fee) (rental : Rental) (renter : RenterId) : PlainDesk × Reply :=
  if fee.settlement.isSome then (d, .pay .alreadyPaid .zero)
  else if rental.renterId ≠ renter then (d, .pay .notOwner .zero)
  else if rental.returnedAt.isSome then d.settle now d.tables fee renter
  else d.takeBack tariff now fee rental renter

/-- Pays a fee. -/
def pay (id : FeeId) (renter : RenterId) : PlainDesk × Reply :=
  if id = 0 ∨ renter = 0 then (d, .pay .notOwner .zero)
  else
    match d.tables.fees.get? id with
    | none => (d, .pay .notOwner .zero)
    | some fee =>
      match d.tables.rentals.get? fee.rentalId with
      | none => (d, .pay .storageError .zero)
      | some rental =>
        if fee.settlement.isSome then (d, .pay .alreadyPaid .zero)
        else if rental.renterId ≠ renter then (d, .pay .notOwner .zero)
        else if rental.returnedAt.isSome then d.settle now d.tables fee renter
        else d.takeBack tariff now fee rental renter

/-- A fee as it is listed. What an unsettled fee of an open rental has come to may be too much to
be shown. -/
def view? (fee : Fee) (rental : Rental) : Option FeeView :=
  let amount? :=
    if rental.returnedAt = none ∧ fee.settlement = none then
      (tariff.accrued fee.amount rental.rentedAt now).toOption
    else some fee.amount
  amount?.map fun amount =>
    ⟨fee.id, rental.id, rental.itemId, amount, fee.reason, fee.settlement.isSome⟩

def listFees (renter : RenterId) : Reply :=
  if renter = 0 then .fees []
  else
    ((d.tables.owed renter).mapM fun row => view? tariff now row.1 row.2).elim .listFailed .fees

def listRentals (renter : RenterId) : Reply :=
  if renter = 0 then .rentals []
  else .rentals ((d.tables.lent renter).map fun rental => ⟨rental, d.tables.title rental.itemId⟩)

def listInvoices (renter : RenterId) : Reply :=
  if renter = 0 then .invoices [] else .invoices (d.tables.paid renter)

/-- Answers a request. -/
def answer : Command → PlainDesk × Reply
  | .rent item renter => d.rent tariff now item renter
  | .pay fee renter => d.pay tariff now fee renter
  | .listFees renter => (d, d.listFees tariff now renter)
  | .listRentals renter => (d, d.listRentals renter)
  | .listInvoices renter => (d, d.listInvoices renter)
  | .listFilms => (d, .films d.tables.items.values)

/-- Answers a request line. -/
def answerLine (line : List Char) : PlainDesk × Reply :=
  match Command.parse line with
  | .ok command => d.answer tariff now command
  | .error e => (d, .error e.message)

/-- Answers request lines one after another, each at its own time. -/
def attend (d : PlainDesk) : List (Instant × List Char) → PlainDesk × List Reply
  | [] => (d, [])
  | (now, line) :: visits =>
    let (d, reply) := d.answerLine tariff now line
    let (d, replies) := d.attend visits
    (d, reply :: replies)

end PlainDesk

end RentalDesk
