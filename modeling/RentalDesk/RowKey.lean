import RentalDesk.Rows
import RentalDesk.Text.Digits

/-!
# Row keys

The rows that can be locked. Keys are ordered by table, items before rentals before fees, and
within a table by identifier.
-/

namespace RentalDesk

/-- A row that can be locked. -/
inductive RowKey where
  | item (id : ItemId)
  | rental (id : RentalId)
  | fee (id : FeeId)
deriving DecidableEq

namespace RowKey

/-- The place of the row's table in the order of keys. -/
def table : RowKey → Nat
  | .item _ => 0
  | .rental _ => 1
  | .fee _ => 2

def id : RowKey → UInt64
  | .item id => id
  | .rental id => id
  | .fee id => id

instance : Ord RowKey := ⟨compareLex (compareOn table) (compareOn id)⟩

instance : Std.TransOrd RowKey :=
  inferInstanceAs (Std.TransCmp (compareLex (compareOn table) (compareOn id)))

theorem eq_of_table_of_id {a b : RowKey} (ht : a.table = b.table) (hi : a.id = b.id) : a = b := by
  cases a <;> cases b <;> simp_all [table, id]

instance : Std.LawfulEqOrd RowKey where
  eq_of_compare {a b} h := by
    have h : (compareLex (compareOn table) (compareOn id)) a b = .eq := h
    simp only [compareLex, compareOn, Ordering.then_eq_eq] at h
    exact eq_of_table_of_id (Std.LawfulEqCmp.eq_of_compare h.1)
      (Std.LawfulEqCmp.eq_of_compare h.2)

/-- The row in the words of messages. -/
def toText : RowKey → String
  | .item id => "item " ++ Text.idText id
  | .rental id => "rental " ++ Text.idText id
  | .fee id => "fee " ++ Text.idText id

end RowKey

end RentalDesk
