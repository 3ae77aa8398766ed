/-!
# JSON values

JSON as far as stored rows need it. A number is kept as it is written, because its reader decides
whether it is a word or a fraction. A string with half of a surrogate pair is well formed but
denotes no text.
-/

namespace RentalDesk

/-- A number as it is written: its sign and its digits before and behind the point, and the sign
and the digits of its exponent. -/
structure JsonNumber where
  negative : Bool
  whole : List Char
  fraction : List Char
  exponent : Option (Bool × List Char)
deriving DecidableEq, Repr

/-- A JSON value. Members of an object keep their order, and a name can occur more than once. -/
inductive Json where
  | null
  | bool (value : Bool)
  | number (value : JsonNumber)
  | string (text : Option String)
  | array (elements : List Json)
  | object (members : List (Option String × Json))

/-- Whether the number is written without a point and without an exponent. -/
def JsonNumber.isInteger (n : JsonNumber) : Bool := n.fraction.isEmpty && n.exponent.isNone

end RentalDesk
