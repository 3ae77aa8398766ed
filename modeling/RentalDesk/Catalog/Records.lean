import RentalDesk.Text.Blank

/-!
# Comma-separated records

Records of a comma-separated text, read byte by byte. A record ends at a line feed, a carriage
return or both, and empty lines are no records. A quote that opens a field lets commas and line
ends into it; two quotes inside stand for one, and what follows the closing quote is appended to
the field. The end of the text closes an open quote. A byte order mark in front is skipped.
-/

namespace RentalDesk.Catalog

abbrev Field := List UInt8

/-- Where the reader is in a record. -/
inductive Place where
  /-- Before the first byte of a record. -/
  | start
  /-- Before the first byte of another field. -/
  | fieldStart
  /-- In a field without an opening quote, or behind a closing quote. -/
  | plain
  /-- Behind an opening quote. -/
  | quoted
  /-- Behind a quote in a quoted field, which closes it or is the first of two. -/
  | quoteInQuoted
deriving DecidableEq, Repr

abbrev comma : UInt8 := 0x2C

abbrev quote : UInt8 := 0x22

abbrev lineFeed : UInt8 := 0x0A

abbrev carriageReturn : UInt8 := 0x0D

def endsLine (b : UInt8) : Bool := b == lineFeed || b == carriageReturn

/-- Reads records. `field` holds the bytes of the current field in reverse, and `fields` the
fields before it in reverse. A line feed behind a carriage return is an empty line. -/
def readRecords : Place → Field → List Field → List UInt8 → List (List Field)
  | .start, _, _, [] => []
  | _, field, fields, [] => [(field.reverse :: fields).reverse]
  | .start, field, fields, b :: bs =>
    if endsLine b then readRecords .start [] [] bs
    else if b = quote then readRecords .quoted field fields bs
    else if b = comma then readRecords .fieldStart [] (field.reverse :: fields) bs
    else readRecords .plain (b :: field) fields bs
  | .fieldStart, field, fields, b :: bs =>
    if endsLine b then (field.reverse :: fields).reverse :: readRecords .start [] [] bs
    else if b = quote then readRecords .quoted field fields bs
    else if b = comma then readRecords .fieldStart [] (field.reverse :: fields) bs
    else readRecords .plain (b :: field) fields bs
  | .plain, field, fields, b :: bs =>
    if endsLine b then (field.reverse :: fields).reverse :: readRecords .start [] [] bs
    else if b = comma then readRecords .fieldStart [] (field.reverse :: fields) bs
    else readRecords .plain (b :: field) fields bs
  | .quoted, field, fields, b :: bs =>
    if b = quote then readRecords .quoteInQuoted field fields bs
    else readRecords .quoted (b :: field) fields bs
  | .quoteInQuoted, field, fields, b :: bs =>
    if endsLine b then (field.reverse :: fields).reverse :: readRecords .start [] [] bs
    else if b = quote then readRecords .quoted (b :: field) fields bs
    else if b = comma then readRecords .fieldStart [] (field.reverse :: fields) bs
    else readRecords .plain (b :: field) fields bs

/-- The text without a byte order mark in front. -/
def dropMark : List UInt8 → List UInt8
  | 0xEF :: 0xBB :: 0xBF :: bs => bs
  | bs => bs

def records (source : List UInt8) : List (List Field) := readRecords .start [] [] (dropMark source)

/-- The text of a field without blanks at its ends, if its bytes are UTF-8. -/
def fieldText? (field : Field) : Option String :=
  (String.fromUTF8? ⟨field.toArray⟩).map Text.trimText

end RentalDesk.Catalog
