import RentalDesk.Error
import RentalDesk.IdSequence
import RentalDesk.RowText
import RentalDesk.Tables

/-!
# Archives

An archive keeps the tables of a desk as bytes. The key of a row is its identifier in eight bytes,
the most significant one first, so that the order of keys byte by byte is the order of identifiers.
The value is the text of the row. Rows are read when they are needed; a value that is not the text
of a row makes every reading that comes across it fail, and no other.
-/

namespace RentalDesk

/-- The bytes of a key or of a value. -/
abbrev Bytes := List UInt8

/-- The names of the tables. -/
inductive TableName where
  | items
  | rentals
  | fees
  | invoices
deriving DecidableEq, Repr

def TableName.toText : TableName → String
  | .items => "items"
  | .rentals => "rentals"
  | .fees => "fees"
  | .invoices => "invoices"

def TableName.all : List TableName := [.items, .rentals, .fees, .invoices]

def TableName.ofText? (s : String) : Option TableName := all.find? fun name => name.toText == s

/-- Tables of bytes. -/
structure Archive where
  items : Table Bytes Bytes
  rentals : Table Bytes Bytes
  fees : Table Bytes Bytes
  invoices : Table Bytes Bytes

namespace Archive

/-! ## Keys and values -/

/-- The key of an identifier. -/
def encodeId (id : UInt64) : Bytes :=
  ([56, 48, 40, 32, 24, 16, 8, 0] : List UInt64).map fun shift => (id >>> shift).toUInt8

def decodeId (key : Bytes) : Except Error UInt64 :=
  if key.length = 8 then .ok (key.foldl (fun id byte => id * 256 + byte.toUInt64) 0)
  else .error (.storage (.malformedKey key.length))

def encodeRow {α : Type} [RowText α] (row : α) : Bytes := (RowText.toText row).toUTF8.toList

def decodeRow {α : Type} [RowText α] (value : Bytes) : Except Error α :=
  match RowText.ofBytes? value with
  | some row => .ok row
  | none => .error .rowFormat

/-! ## Tables -/

/-- The archive without rows. -/
def empty : Archive := ⟨.empty, .empty, .empty, .empty⟩

def table (a : Archive) : TableName → Table Bytes Bytes
  | .items => a.items
  | .rentals => a.rentals
  | .fees => a.fees
  | .invoices => a.invoices

def setTable (a : Archive) (name : TableName) (t : Table Bytes Bytes) : Archive :=
  match name with
  | .items => { a with items := t }
  | .rentals => { a with rentals := t }
  | .fees => { a with fees := t }
  | .invoices => { a with invoices := t }

def put (a : Archive) (name : TableName) (key value : Bytes) : Archive :=
  a.setTable name ((a.table name).insert key value)

def delete (a : Archive) (name : TableName) (key : Bytes) : Archive :=
  a.setTable name ((a.table name).erase key)

/-- Writes a row under an identifier. -/
def putRow {α : Type} [RowText α] (a : Archive) (name : TableName) (id : UInt64) (row : α) :
    Archive :=
  a.put name (encodeId id) (encodeRow row)

/-- Writes rows under their identifiers. -/
def putRows {α : Type} [RowText α] (a : Archive) (name : TableName) (rows : Table UInt64 α) :
    Archive :=
  rows.rows.foldl (fun a row => a.putRow name row.1 row.2) a

def row? (α : Type) [RowText α] (a : Archive) (name : TableName) (id : UInt64) :
    Except Error (Option α) :=
  match (a.table name).get? (encodeId id) with
  | some value => (decodeRow value).map some
  | none => .ok none

/-- All rows of a table in the order of their keys. -/
def scan (α : Type) [RowText α] (a : Archive) (name : TableName) : Except Error (List α) :=
  (a.table name).values.mapM decodeRow

def apply (a : Archive) (staged : Tables) : Archive :=
  (((a.putRows .items staged.items).putRows .rentals staged.rentals).putRows .fees
    staged.fees).putRows .invoices staged.invoices

/-! ## Opening -/

/-- The sequence of a table goes on behind its last key. -/
def sequenceOf (a : Archive) (name : TableName) : Except Error IdSequence :=
  match (a.table name).lastKey? with
  | some key => (decodeId key).map .after
  | none => .ok (.startingAt 1)

def sequences (a : Archive) : Except Error Sequences := do
  let rentals ← a.sequenceOf .rentals
  let fees ← a.sequenceOf .fees
  let invoices ← a.sequenceOf .invoices
  return ⟨rentals, fees, invoices⟩

end Archive

end RentalDesk
