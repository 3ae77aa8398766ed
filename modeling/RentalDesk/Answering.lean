import RentalDesk.Operations.Listings
import RentalDesk.Operations.Pay
import RentalDesk.Operations.Rent

/-!
# Answering requests

A request line is answered by one reply. Errors become the status of the reply: faults of storage
are told apart from decisions of the desk, and nothing else of an error is shown. A line that is no
request is answered by what is wrong with it.
-/

namespace RentalDesk

/-- The status of a request to rent that failed. -/
def RentStatus.ofError (e : Error) : RentStatus :=
  if e.isStorageFault then .storageError else .itemUnavailable

/-- The status of a request to pay that failed. -/
def PayStatus.ofError : Error → PayStatus
  | .alreadyPaid _ => .alreadyPaid
  | e => if e.isStorageFault then .storageError else .notOwner

namespace Reply

def ofRented : Except Error Rented → Reply
  | .ok rented => .rent .ok rented.baseFee
  | .error e => .rent (.ofError e) .zero

def ofSettlement : Except Error Settlement → Reply
  | .ok settlement => .pay .settled settlement.finalAmount
  | .error e => .pay (.ofError e) .zero

def ofRows {α : Type} (reply : List α → Reply) : Except Error (List α) → Reply
  | .ok rows => reply rows
  | .error _ => .listFailed

end Reply

namespace Terms

open Operation

def answer (terms : Terms) : Command → Task Reply
  | .rent item renter => return .ofRented (← (terms.rent renter item).run)
  | .pay fee renter => return .ofSettlement (← (terms.pay fee renter).run)
  | .listFees renter => return .ofRows .fees (← (terms.listFees renter).run)
  | .listRentals renter => return .ofRows .rentals (← (listRentals renter).run)
  | .listInvoices renter => return .ofRows .invoices (← (listInvoices renter).run)
  | .listFilms => return .ofRows .films (← listItems.run)

/-- Runs a request line. -/
def answerLine (terms : Terms) (line : List Char) : Task Reply :=
  match Command.parse line with
  | .ok command => terms.answer command
  | .error e => return .error e.message

end Terms

end RentalDesk
