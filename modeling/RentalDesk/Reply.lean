import RentalDesk.Command
import RentalDesk.Decimal.Text
import RentalDesk.Time.Text

/-!
# Replies

The answer to a request is one line with a status, or a list of records, one to a line, that ends
with the line `END`. Fields are separated by semicolons. Free text in a field has its semicolons
and line ends replaced by spaces, so that it never adds a field or a line.
-/

namespace RentalDesk

open Text

/-- How a request to rent ended. -/
inductive RentStatus where
  | ok
  | itemUnavailable
  | storageError
deriving DecidableEq, Repr

/-- How a request to pay ended. -/
inductive PayStatus where
  | settled
  | alreadyPaid
  | notOwner
  | storageError
deriving DecidableEq, Repr

/-- A fee as it is listed, with the amount that is owed at the time of the listing. -/
structure FeeView where
  id : FeeId
  rentalId : RentalId
  itemId : ItemId
  amount : Decimal
  reason : String
  paid : Bool
deriving DecidableEq

/-- A rental with the title of its item. -/
structure RentalView where
  rental : Rental
  title : String
deriving DecidableEq

/-- The answer to a request. -/
inductive Reply where
  | rent (status : RentStatus) (baseFee : Decimal)
  | pay (status : PayStatus) (amount : Decimal)
  | fees (rows : List FeeView)
  | rentals (rows : List RentalView)
  | invoices (rows : List Invoice)
  | films (rows : List Item)
  /-- A list that could not be produced. It has an end like every list. -/
  | listFailed
  | error (message : String)
deriving DecidableEq

def RentStatus.token : RentStatus → String
  | .ok => "OK"
  | .itemUnavailable => "ITEM_UNAVAILABLE"
  | .storageError => "STORAGE_ERROR"

def PayStatus.token : PayStatus → String
  | .settled => "SETTLED"
  | .alreadyPaid => "ALREADY_PAID"
  | .notOwner => "NOT_OWNER"
  | .storageError => "STORAGE_ERROR"

def FeeView.status (fee : FeeView) : String := if fee.paid then "PAID" else "UNPAID"

/-- The last line of a list. -/
def endOfList : String := "END"

/-- The text with the characters that would break a line or a field replaced by spaces. -/
def sanitize (s : String) : String :=
  String.ofList
    (s.toList.map fun c => if c = fieldSeparator ∨ c = '\n' ∨ c = '\r' then ' ' else c)

def recordLine (fields : List String) : String := ";".intercalate fields

def FeeView.line (fee : FeeView) : String :=
  recordLine ["FEE", idText fee.id, fee.amount.display, sanitize fee.reason, fee.status]

/-- The line of a rental, with a hyphen for a time of return that is not yet known. -/
def RentalView.line (view : RentalView) : String :=
  recordLine ["RENTAL", idText view.rental.id, idText view.rental.itemId, sanitize view.title,
    view.rental.rentedAt.lineText,
    match view.rental.returnedAt with
    | some time => time.lineText
    | none => "-"]

def Invoice.line (invoice : Invoice) : String :=
  recordLine ["INVOICE", idText invoice.id, invoice.issuedAt.lineText, invoice.total.display]

def Item.line (item : Item) : String :=
  recordLine ["FILM", idText item.id, sanitize item.title,
    if item.available then "AVAILABLE" else "RENTED"]

/-- The lines of a reply, without line ends. -/
def Reply.lines : Reply → List String
  | .rent status baseFee => [recordLine ["RENT_RESULT", status.token, baseFee.display]]
  | .pay status amount => [recordLine ["PAY_RESULT", status.token, amount.display]]
  | .fees rows => rows.map FeeView.line ++ [endOfList]
  | .rentals rows => rows.map RentalView.line ++ [endOfList]
  | .invoices rows => rows.map Invoice.line ++ [endOfList]
  | .films rows => rows.map Item.line ++ [endOfList]
  | .listFailed => [recordLine ["ERROR", "STORAGE_ERROR"], endOfList]
  | .error message => [recordLine ["ERROR", sanitize message]]

end RentalDesk
