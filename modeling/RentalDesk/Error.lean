import RentalDesk.RowKey
import RentalDesk.Decimal.Text
import RentalDesk.Time.Text

/-!
# Errors

Every way in which an operation of the desk can end other than well. The first kinds are decisions
of the desk about a request in order: nothing is wrong with the house. The others are faults of
storage, after which the whole operation may be tried again. An error is given by its cause; the
wording of all errors is here.
-/

namespace RentalDesk

open Text

/-- The store calls that can be made to fail. `hideItem` does not fail a call: it keeps the row of
an item that is being locked out of sight. -/
inductive StoreCall where
  | begin
  | registerItem
  | item
  | items
  | feesOfRenter
  | rentalsOfRenter
  | invoicesOfRenter
  | lockItem
  | lockFee
  | insertRental
  | insertFee
  | insertInvoice
  | updateItem
  | updateRental
  | updateFee
  | commit
  | rollback
  | hideItem
deriving DecidableEq

def StoreCall.name : StoreCall → String
  | .begin => "begin"
  | .registerItem => "register_item"
  | .item => "item"
  | .items => "items"
  | .feesOfRenter => "fees_of_renter"
  | .rentalsOfRenter => "rentals_of_renter"
  | .invoicesOfRenter => "invoices_of_renter"
  | .lockItem => "lock_item"
  | .lockFee => "lock_fee"
  | .insertRental => "insert_rental"
  | .insertFee => "insert_fee"
  | .insertInvoice => "insert_invoice"
  | .updateItem => "update_item"
  | .updateRental => "update_rental"
  | .updateFee => "update_fee"
  | .commit => "commit"
  | .rollback => "rollback"
  | .hideItem => "hide_item"

def StoreCall.all : List StoreCall :=
  [.begin, .registerItem, .item, .items, .feesOfRenter, .rentalsOfRenter, .invoicesOfRenter,
    .lockItem, .lockFee, .insertRental, .insertFee, .insertInvoice, .updateItem, .updateRental,
    .updateFee, .commit, .rollback, .hideItem]

def StoreCall.ofName? (name : String) : Option StoreCall := all.find? fun call => call.name == name

/-- The two identifiers that a request to rent consists of. -/
inductive RequestId where
  | item
  | renter
deriving DecidableEq

/-- What is wrong with the settings of a desk. -/
inductive SettingsCause where
  | negativeBaseFee (fee : Decimal)
  | negativeAccrualRate (rate : Decimal)
deriving DecidableEq

/-- What went wrong in the store. -/
inductive StorageCause where
  /-- A row was to be written by a transaction that does not hold its lock. -/
  | unlocked (key : RowKey)
  /-- The settlement of a settled fee was to be changed. -/
  | settled (fee : FeeId)
  /-- The rental of a fee is not stored. -/
  | missingRental (fee : FeeId) (rental : RentalId)
  /-- The item of a rental is not stored. -/
  | missingItem (rental : RentalId) (item : ItemId)
  /-- A stored key is no identifier. -/
  | malformedKey (length : Nat)
  /-- The call was made to fail. -/
  | injected (call : StoreCall)
deriving DecidableEq

/-- Why a file or a stream could not be used. -/
inductive StreamCause where
  | notFound
  /-- The path goes on behind something that is no folder. -/
  | notFolder
  /-- There is a folder where a file was expected. -/
  | folder
  | invalidText
  | closed
  | unreachable
  | badAddress
deriving DecidableEq

/-- Why a row of a catalog is no item. -/
inductive CatalogCause where
  /-- The row has fewer fields than the header has columns. -/
  | endOfRow
  | number (field : Nat) (cause : WordError)
  | encoding (field : Nat)
  | duplicate (column : String)
  | missing (column : String)
  /-- A row without named columns is too short. -/
  | tooShort (length : Nat)
deriving DecidableEq

/-- An error of the desk. -/
inductive Error where
  | itemUnavailable (item : ItemId)
  | alreadyPaid (fee : FeeId)
  | notOwner (fee : FeeId)
  | invalidId (which : RequestId)
  | invalidSettings (cause : SettingsCause)
  | storage (cause : StorageCause)
  | lockTimeout (key : RowKey)
  | amountOverflow (base rate : Decimal) (start stop : Instant)
  | stream (cause : StreamCause)
  | catalog (cause : CatalogCause)
  /-- A stored value is not the text of a row. -/
  | rowFormat
  /-- The directory of a store cannot be opened. -/
  | unopened
deriving DecidableEq

/-- The kinds of errors. -/
inductive ErrorKind where
  | itemUnavailable
  | alreadyPaid
  | notOwner
  | invalidId
  | invalidSettings
  | storage
  | lockTimeout
  | amountOverflow
  | stream
  | catalog
  | rowFormat
  | unopened
deriving DecidableEq

namespace ErrorKind

def isStorageFault : ErrorKind → Bool
  | .itemUnavailable | .alreadyPaid | .notOwner | .invalidId | .invalidSettings => false
  | .storage | .lockTimeout | .amountOverflow | .stream | .catalog | .rowFormat | .unopened => true

/-- The message of an error of this kind about the given subject. -/
def phrase (subject : String) : ErrorKind → String
  | .itemUnavailable => "item " ++ subject ++ " is not available for rent"
  | .alreadyPaid => "fee " ++ subject ++ " is already paid"
  | .notOwner => "fee " ++ subject ++ " does not belong to the caller"
  | .invalidId => "invalid " ++ subject ++ " id"
  | .invalidSettings => "invalid configuration: " ++ subject
  | .storage => "storage error: " ++ subject
  | .lockTimeout => "lock wait timeout on " ++ subject
  | .amountOverflow => "amount overflow: " ++ subject
  | .stream => "IO error: " ++ subject
  | .catalog => "CSV error: " ++ subject
  | .rowFormat => "serialization error: " ++ subject
  | .unopened => "database error: " ++ subject

end ErrorKind

/-- The identifier in the words of messages. -/
def RequestId.toText : RequestId → String
  | .item => "item"
  | .renter => "renter"

/-- The wording of a setting that is refused. -/
def SettingsCause.toText : SettingsCause → String
  | .negativeBaseFee fee => "base fee must not be negative, got " ++ fee.toText
  | .negativeAccrualRate rate => "accrual rate must not be negative, got " ++ rate.toText

/-- The wording of a fault in the store. -/
def StorageCause.toText : StorageCause → String
  | .unlocked key => key.toText ++ " written without holding its lock"
  | .settled fee => "fee " ++ idText fee ++ " settlement is immutable"
  | .missingRental fee rental =>
    "fee " ++ idText fee ++ " references missing rental " ++ idText rental
  | .missingItem rental item =>
    "rental " ++ idText rental ++ " references missing item " ++ idText item
  | .malformedKey length => "malformed key of " ++ natText length ++ " bytes"
  | .injected call => "injected " ++ call.name ++ " failure"

/-- The wording of a fault of a stream. -/
def StreamCause.toText : StreamCause → String
  | .notFound => "No such file or directory (os error 2)"
  | .notFolder => "Not a directory (os error 20)"
  | .folder => "Is a directory (os error 21)"
  | .invalidText => "stream did not contain valid UTF-8"
  | .closed => "Broken pipe (os error 32)"
  | .unreachable => "Network is unreachable (os error 101)"
  | .badAddress => "invalid socket address"

def wordErrorText : WordError → String
  | .empty => "cannot parse integer from empty string"
  | .invalidDigit => "invalid digit found in string"
  | .tooLarge => "number too large to fit in target type"

def CatalogCause.toText : CatalogCause → String
  | .endOfRow => "expected field, but got end of row"
  | .number field cause => "field " ++ natText field ++ ": " ++ wordErrorText cause
  | .encoding field => "field " ++ natText field ++ ": invalid UTF-8"
  | .duplicate column => "duplicate field " ++ quoted column
  | .missing column => "missing field " ++ quoted column
  | .tooShort length =>
    "invalid length " ++ natText length ++ ", expected struct CatalogRecord with 2 elements"
where
  quoted (name : String) : String := "\x60" ++ name ++ "\x60"

namespace Error

def kind : Error → ErrorKind
  | .itemUnavailable _ => .itemUnavailable
  | .alreadyPaid _ => .alreadyPaid
  | .notOwner _ => .notOwner
  | .invalidId _ => .invalidId
  | .invalidSettings _ => .invalidSettings
  | .storage _ => .storage
  | .lockTimeout _ => .lockTimeout
  | .amountOverflow .. => .amountOverflow
  | .stream _ => .stream
  | .catalog _ => .catalog
  | .rowFormat => .rowFormat
  | .unopened => .unopened

def subject : Error → String
  | .itemUnavailable item => idText item
  | .alreadyPaid fee => idText fee
  | .notOwner fee => idText fee
  | .invalidId which => which.toText
  | .invalidSettings cause => cause.toText
  | .storage cause => cause.toText
  | .lockTimeout key => key.toText
  | .amountOverflow base rate start stop =>
    base.display ++ " at " ++ rate.toText ++ " per minute from " ++ start.messageText ++ " to " ++
      stop.messageText
  | .stream cause => cause.toText
  | .catalog cause => cause.toText
  | .rowFormat => "stored value is not a row"
  | .unopened => "the directory cannot be opened"

def message (e : Error) : String := e.kind.phrase e.subject

/-- Whether the error is a fault of storage and not a decision of the desk. -/
def isStorageFault (e : Error) : Bool := e.kind.isStorageFault

end Error

end RentalDesk
