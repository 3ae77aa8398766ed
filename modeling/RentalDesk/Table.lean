/-!
# Tables

A table is a list of rows in strictly ascending order of their keys, so that no key occurs twice.
Looking a key up is the view of a table: two tables are equal if they answer every look-up alike,
and each operation is described by the look-ups after it.
-/

namespace RentalDesk

/-- Rows in strictly ascending order of their keys. -/
structure Table (κ ν : Type) [Ord κ] where
  rows : List (κ × ν)
  ascending : rows.Pairwise fun a b => compare a.1 b.1 = .lt

namespace Table

variable {κ ν : Type} [Ord κ]

/-! ## Rows as lists -/

/-- The value beside a key. -/
def find? (key : κ) : List (κ × ν) → Option ν
  | [] => none
  | row :: rows => if compare key row.1 = .eq then some row.2 else find? key rows

/-- Puts a row in its place, instead of the row with its key if there is one. -/
def put (key : κ) (value : ν) : List (κ × ν) → List (κ × ν)
  | [] => [(key, value)]
  | row :: rows =>
    match compare key row.1 with
    | .lt => (key, value) :: row :: rows
    | .eq => (key, value) :: rows
    | .gt => row :: put key value rows

theorem mem_put {key : κ} {value : ν} {row : κ × ν} {rows : List (κ × ν)}
    (h : row ∈ put key value rows) : row = (key, value) ∨ row ∈ rows := by
  induction rows with
  | nil => simpa [put] using h
  | cons first rest ih =>
    unfold put at h
    split at h <;> simp only [List.mem_cons] at h ⊢
    · exact h
    · exact h.imp_right .inr
    · rcases h with h | h
      · exact .inr (.inl h)
      · exact (ih h).imp_right .inr

theorem put_ascending [Std.TransOrd κ] [Std.LawfulEqOrd κ] (key : κ) (value : ν)
    {rows : List (κ × ν)} (h : rows.Pairwise fun a b => compare a.1 b.1 = .lt) :
    (put key value rows).Pairwise fun a b => compare a.1 b.1 = .lt := by
  induction rows with
  | nil => simp [put]
  | cons first rest ih =>
    rw [List.pairwise_cons] at h
    unfold put
    split
    · next hlt =>
      refine List.pairwise_cons.2 ⟨fun row hrow => ?_, List.pairwise_cons.2 h⟩
      rcases List.mem_cons.1 hrow with rfl | hrow
      · exact hlt
      · exact Std.TransCmp.lt_trans hlt (h.1 row hrow)
    · next heq =>
      obtain rfl := Std.LawfulEqCmp.eq_of_compare heq
      exact List.pairwise_cons.2 h
    · next hgt =>
      refine List.pairwise_cons.2 ⟨fun row hrow => ?_, ih h.2⟩
      rcases mem_put hrow with rfl | hrow
      · exact Std.OrientedCmp.gt_iff_lt.1 hgt
      · exact h.1 row hrow

theorem find?_put [Std.TransOrd κ] [Std.LawfulEqOrd κ] (key other : κ) (value : ν)
    (rows : List (κ × ν)) :
    find? other (put key value rows) =
      if compare other key = .eq then some value else find? other rows := by
  induction rows with
  | nil => simp [put, find?]
  | cons first rest ih =>
    unfold put
    split
    · simp [find?]
    · next heq =>
      obtain rfl := Std.LawfulEqCmp.eq_of_compare heq
      by_cases h : compare other first.1 = .eq <;> simp [find?, h]
    · next hgt =>
      by_cases h : compare other first.1 = .eq
      · obtain rfl := Std.LawfulEqCmp.eq_of_compare h
        have : compare first.1 key ≠ .eq := fun h' => by
          obtain rfl := Std.LawfulEqCmp.eq_of_compare h'
          simp [Std.ReflCmp.compare_self] at hgt
        simp [find?, this, Std.ReflCmp.compare_self]
      · simp [find?, h, ih]

/-! ## Tables -/

/-- The table without rows. -/
def empty : Table κ ν := ⟨[], .nil⟩

instance : Inhabited (Table κ ν) := ⟨empty⟩

def get? (t : Table κ ν) (key : κ) : Option ν := find? key t.rows

def contains (t : Table κ ν) (key : κ) : Bool := (t.get? key).isSome

/-- The table with a row, instead of the row with its key if there is one. -/
def insert [Std.TransOrd κ] [Std.LawfulEqOrd κ] (t : Table κ ν) (key : κ) (value : ν) :
    Table κ ν :=
  ⟨put key value t.rows, put_ascending key value t.ascending⟩

/-- The rows that satisfy a condition. -/
def filter (t : Table κ ν) (keep : κ → ν → Bool) : Table κ ν :=
  ⟨t.rows.filter fun row => keep row.1 row.2, t.ascending.filter _⟩

/-- The table without the row of a key. -/
def erase (t : Table κ ν) (key : κ) : Table κ ν := t.filter fun other _ => compare key other != .eq

/-- The keys in ascending order. -/
def keys (t : Table κ ν) : List κ := t.rows.map (·.1)

/-- The values in the order of their keys. -/
def values (t : Table κ ν) : List ν := t.rows.map (·.2)

def lastKey? (t : Table κ ν) : Option κ := t.keys.getLast?

def isEmpty (t : Table κ ν) : Bool := t.rows.isEmpty

def size (t : Table κ ν) : Nat := t.rows.length

/-- The table with all rows of another one, which win over the rows that are there. -/
def merge [Std.TransOrd κ] [Std.LawfulEqOrd κ] (t news : Table κ ν) : Table κ ν :=
  news.rows.foldl (fun t row => t.insert row.1 row.2) t

@[simp] theorem get?_empty (key : κ) : (empty : Table κ ν).get? key = none := rfl

@[simp] theorem get?_insert [Std.TransOrd κ] [Std.LawfulEqOrd κ] [DecidableEq κ] (t : Table κ ν)
    (key other : κ) (value : ν) :
    (t.insert key value).get? other = if other = key then some value else t.get? other := by
  simp [insert, get?, find?_put]

theorem find?_filter [Std.LawfulEqOrd κ] (keep : κ → Bool) (key : κ) (rows : List (κ × ν)) :
    find? key (rows.filter fun row => keep row.1) = if keep key then find? key rows else none := by
  induction rows with
  | nil => simp [find?]
  | cons first rest ih =>
    by_cases h : compare key first.1 = .eq
    · obtain rfl := Std.LawfulEqCmp.eq_of_compare h
      by_cases hk : keep first.1 <;> simp [find?, hk, ih]
    · by_cases hk : keep first.1 <;> simp [find?, hk, h, ih]

@[simp] theorem get?_erase [Std.TransOrd κ] [Std.LawfulEqOrd κ] [DecidableEq κ] (t : Table κ ν)
    (key other : κ) : (t.erase key).get? other = if other = key then none else t.get? other := by
  rw [erase, filter, get?, find?_filter (fun k => compare key k != .eq)]
  by_cases h : other = key
  · simp [h]
  · have : compare key other ≠ .eq := fun e => h (Std.LawfulEqCmp.eq_of_compare e).symm
    simp [h, this, get?]

end Table

end RentalDesk
