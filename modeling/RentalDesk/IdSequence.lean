/-!
# Identifier sequences

A sequence hands out identifiers in ascending order. It starts at 1 or above, so that 0 is handed
out only after a full round of the 64-bit numbers. An identifier is used up when it is drawn,
whatever becomes of its row.
-/

namespace RentalDesk

/-- The identifier that is drawn next. -/
structure IdSequence where
  next : UInt64
deriving DecidableEq, Repr

namespace IdSequence

/-- The sequence that starts at the given identifier, or at 1 instead of 0. -/
def startingAt (first : UInt64) : IdSequence := ⟨if first = 0 then 1 else first⟩

/-- The sequence that goes on behind the last identifier in use. -/
def after (last : UInt64) : IdSequence := startingAt (last + 1)

/-- The next identifier, and the sequence without it. -/
def draw (s : IdSequence) : UInt64 × IdSequence := (s.next, ⟨s.next + 1⟩)

/-- The next so many identifiers. -/
def take : Nat → IdSequence → List UInt64
  | 0, _ => []
  | n + 1, s => s.draw.1 :: take n s.draw.2

end IdSequence

/-- One sequence for each table that the desk inserts into. -/
structure Sequences where
  rentals : IdSequence
  fees : IdSequence
  invoices : IdSequence
deriving DecidableEq, Repr

/-- The sequences of an empty store. -/
def Sequences.fresh : Sequences := ⟨.startingAt 1, .startingAt 1, .startingAt 1⟩

end RentalDesk
