import RentalDesk.Archive

/-!
# Stores

Committed rows are kept in memory or in an archive. Reading memory never fails. Both are read and
written by the same calls and hold the same tables after the same calls; an archive keeps its rows
when the desk is closed.
-/

namespace RentalDesk

/-- Where committed rows are kept. -/
inductive Medium where
  | memory
  | archive
deriving DecidableEq, Repr

/-- The committed rows. -/
inductive Store where
  | memory (tables : Tables)
  | archive (files : Archive)

namespace Store

def medium : Store → Medium
  | .memory _ => .memory
  | .archive _ => .archive

/-- The store without rows. -/
def empty : Medium → Store
  | .memory => .memory .empty
  | .archive => .archive .empty

def item? (s : Store) (id : ItemId) : Except Error (Option Item) :=
  match s with
  | .memory tables => .ok (tables.items.get? id)
  | .archive files => files.row? Item .items id

def rental? (s : Store) (id : RentalId) : Except Error (Option Rental) :=
  match s with
  | .memory tables => .ok (tables.rentals.get? id)
  | .archive files => files.row? Rental .rentals id

def fee? (s : Store) (id : FeeId) : Except Error (Option Fee) :=
  match s with
  | .memory tables => .ok (tables.fees.get? id)
  | .archive files => files.row? Fee .fees id

def items : Store → Except Error (List Item)
  | .memory tables => .ok tables.items.values
  | .archive files => files.scan Item .items

def rentals : Store → Except Error (List Rental)
  | .memory tables => .ok tables.rentals.values
  | .archive files => files.scan Rental .rentals

def fees : Store → Except Error (List Fee)
  | .memory tables => .ok tables.fees.values
  | .archive files => files.scan Fee .fees

def invoices : Store → Except Error (List Invoice)
  | .memory tables => .ok tables.invoices.values
  | .archive files => files.scan Invoice .invoices

/-- The store with all staged rows, each under the identifier that it is staged under. -/
def apply (s : Store) (staged : Tables) : Store :=
  match s with
  | .memory tables => .memory (tables.merge staged)
  | .archive files => .archive (files.apply staged)

def putItem (s : Store) (item : Item) : Store :=
  match s with
  | .memory tables => .memory (tables.putItem item)
  | .archive files => .archive (files.putRow .items item.id item)

/-- The sequences of a store that is opened. Those of memory start anew, as memory does. -/
def sequences : Store → Except Error Sequences
  | .memory _ => .ok .fresh
  | .archive files => files.sequences

end Store

end RentalDesk
