import RentalDesk.Catalog.Records
import RentalDesk.Error

/-!
# Catalogs

A catalog is a comma-separated text whose first record names its columns. The columns `id` and
`title` are taken, in any order and beside others. The fields of a row are looked at in the order
of the columns, and the first fault makes the row bad; the rows behind it are read nevertheless.
Fields beyond the columns are ignored. If the header is not UTF-8, identifier and title are taken
by their position.
-/

namespace RentalDesk.Catalog

open Text

/-- A row of a catalog. -/
structure Entry where
  id : ItemId
  title : String
deriving DecidableEq, Repr

/-- The item of a row is on the shelf. -/
def Entry.toItem (e : Entry) : Item := Item.new e.id e.title

/-- An identifier: decimal digits, or hexadecimal digits behind `0x`, with an optional plus sign
before the digits. -/
def readItemId (text : String) : Except WordError ItemId :=
  match text.toList with
  | '0' :: 'x' :: digits => readWord 16 digits
  | digits => readWord 10 digits

/-- The texts of the fields of a row, or the number of the first field that is not UTF-8. -/
def fieldTexts : Nat → List Field → Except Nat (List String)
  | _, [] => .ok []
  | position, field :: fields =>
    match fieldText? field with
    | none => .error position
    | some text => (fieldTexts (position + 1) fields).map (text :: ·)

def idField (position : Nat) (text : String) : Except CatalogCause ItemId :=
  match readItemId text with
  | .ok id => .ok id
  | .error cause => .error (.number position cause)

/-- Goes through the columns and the fields of a row side by side and collects identifier and
title. -/
def readColumns (position : Nat) (id : Option ItemId) (title : Option String) :
    List String → List String → Except CatalogCause Entry
  | [], _ =>
    match id, title with
    | none, _ => .error (.missing "id")
    | some _, none => .error (.missing "title")
    | some id, some title => .ok ⟨id, title⟩
  | column :: columns, fields =>
    if column = "id" ∧ id.isSome then .error (.duplicate "id")
    else if column = "title" ∧ title.isSome then .error (.duplicate "title")
    else
      match fields with
      | [] => .error .endOfRow
      | field :: fields =>
        if column = "id" then
          match idField position field with
          | .ok id => readColumns (position + 1) (some id) title columns fields
          | .error cause => .error cause
        else if column = "title" then
          readColumns (position + 1) id (some field) columns fields
        else readColumns (position + 1) id title columns fields

/-- Identifier and title by their position. -/
def readPositions : List String → Except CatalogCause Entry
  | [] => .error (.tooShort 0)
  | [id] => (idField 0 id).bind fun _ => .error (.tooShort 1)
  | id :: title :: _ => (idField 0 id).map fun id => ⟨id, title⟩

/-- Reads a row under the given columns, or by position if there are none. -/
def readRow (columns : Option (List String)) (fields : List Field) : Except CatalogCause Entry :=
  match fieldTexts 0 fields with
  | .error position => .error (.encoding position)
  | .ok texts =>
    match columns with
    | some columns => readColumns 0 none none columns texts
    | none => readPositions texts

/-- The columns that a header names, if it is UTF-8. -/
def headerColumns (header : List Field) : Option (List String) := (fieldTexts 0 header).toOption

def read (source : List UInt8) : List (Except CatalogCause Entry) :=
  match records source with
  | [] => []
  | header :: rows => rows.map (readRow (headerColumns header))

end RentalDesk.Catalog
