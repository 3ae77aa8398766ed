import RentalDesk.IdSequence
import RentalDesk.RowKey
import RentalDesk.Tables

/-!
# Looking rows up

The rows that can be locked have one key type, so they get one look-up: `Tables.row?` is the row
under a key, whatever its table. Writing and merging tables are described by what `row?` shows
afterwards. Rows that are numbered in series are looked at through `Tables.uses`, which tells
whether an identifier of a series is in use; this is all that matters for fresh identifiers.
-/

namespace RentalDesk

namespace Table

variable {κ ν : Type} [Ord κ]

/-- A key below all keys of a list of rows has no value in it. -/
theorem find?_eq_none {key : κ} {rows : List (κ × ν)}
    (h : ∀ row ∈ rows, compare key row.1 = .lt) : find? key rows = none := by
  induction rows with
  | nil => rfl
  | cons first rest ih =>
      have hfirst : compare key first.1 = .lt := h first List.mem_cons_self
      simp [find?, hfirst, ih fun row hrow => h row (List.mem_cons_of_mem _ hrow)]

theorem find?_filter_row [Std.LawfulEqOrd κ] {key : κ} (keep : κ → ν → Bool) {rows : List (κ × ν)}
    (ascending : rows.Pairwise fun a b => compare a.1 b.1 = .lt) :
    find? key (rows.filter fun row => keep row.1 row.2) =
      (find? key rows).filter (keep key) := by
  induction rows with
  | nil => rfl
  | cons first rest ih =>
      rw [List.pairwise_cons] at ascending
      by_cases h : compare key first.1 = .eq
      · obtain rfl := Std.LawfulEqCmp.eq_of_compare h
        by_cases hk : keep first.1 first.2
        · simp [find?, hk, Option.filter]
        · simp [find?, hk, ih ascending.2, find?_eq_none ascending.1, Option.filter]
      · by_cases hk : keep first.1 first.2 <;> simp [find?, hk, h, ih ascending.2]

theorem get?_filter [Std.LawfulEqOrd κ] (t : Table κ ν) (keep : κ → ν → Bool) (key : κ) :
    (t.filter keep).get? key = (t.get? key).filter (keep key) :=
  find?_filter_row keep t.ascending

theorem find?_eq_some_iff [Std.LawfulEqOrd κ] {key : κ} {value : ν} {rows : List (κ × ν)}
    (ascending : rows.Pairwise fun a b => compare a.1 b.1 = .lt) :
    find? key rows = some value ↔ (key, value) ∈ rows := by
  induction rows with
  | nil => simp [find?]
  | cons first rest ih =>
      rw [List.pairwise_cons] at ascending
      rw [find?, List.mem_cons]
      split
      · next heq =>
          obtain rfl := Std.LawfulEqCmp.eq_of_compare heq
          refine ⟨fun h => .inl (by rw [← Option.some.inj h]), fun h => ?_⟩
          rcases h with h | h
          · rw [← h]
          · have hlt := ascending.1 _ h
            rw [heq] at hlt
            cases hlt
      · next hne =>
          rw [ih ascending.2]
          refine ⟨.inr, fun h => h.resolve_left ?_⟩
          intro h
          rw [← h] at hne
          exact hne Std.ReflCmp.compare_self

theorem get?_eq_some_iff [Std.LawfulEqOrd κ] {t : Table κ ν} {key : κ} {value : ν} :
    t.get? key = some value ↔ (key, value) ∈ t.rows :=
  find?_eq_some_iff t.ascending

theorem mem_values [Std.LawfulEqOrd κ] {t : Table κ ν} {value : ν} :
    value ∈ t.values ↔ ∃ key, t.get? key = some value := by
  simp [values, get?_eq_some_iff]

theorem contains_of_get? {t : Table κ ν} {key : κ} {value : ν} (h : t.get? key = some value) :
    t.contains key := by
  rw [contains, h]
  rfl

variable [Std.TransOrd κ] [Std.LawfulEqOrd κ] [DecidableEq κ]

theorem get?_foldl_insert (rows : List (κ × ν))
    (ascending : rows.Pairwise fun a b => compare a.1 b.1 = .lt) (t : Table κ ν) (key : κ) :
    (rows.foldl (fun t row => t.insert row.1 row.2) t).get? key =
      (find? key rows).or (t.get? key) := by
  induction rows generalizing t with
  | nil => rfl
  | cons first rest ih =>
      rw [List.pairwise_cons] at ascending
      rw [List.foldl_cons, ih ascending.2, get?_insert]
      by_cases h : key = first.1
      · subst h
        simp [find?, find?_eq_none ascending.1]
      · have hne : compare key first.1 ≠ .eq := fun e => h (Std.LawfulEqCmp.eq_of_compare e)
        simp [find?, h, hne]

/-- The rows that are merged in win over those that are there. -/
@[simp] theorem get?_merge (t news : Table κ ν) (key : κ) :
    (t.merge news).get? key = (news.get? key).or (t.get? key) :=
  get?_foldl_insert news.rows news.ascending t key

@[simp] theorem contains_insert (t : Table κ ν) (key other : κ) (value : ν) :
    (t.insert key value).contains other = (decide (other = key) || t.contains other) := by
  by_cases h : other = key <;> simp [contains, h]

@[simp] theorem contains_merge (t news : Table κ ν) (key : κ) :
    (t.merge news).contains key = (news.contains key || t.contains key) := by
  cases h : news.get? key <;> simp [contains, h]

omit [Std.TransOrd κ] [Std.LawfulEqOrd κ] [DecidableEq κ] in
@[simp] theorem contains_empty (key : κ) : (empty : Table κ ν).contains key = false := rfl

omit [DecidableEq κ] in
@[simp] theorem merge_insert_empty (t : Table κ ν) (key : κ) (value : ν) :
    t.merge (empty.insert key value) = t.insert key value := rfl

end Table

/-- A row that can be locked. -/
inductive Row where
  | item (row : Item)
  | rental (row : Rental)
  | fee (row : Fee)
deriving DecidableEq

def Row.key : Row → RowKey
  | .item row => .item row.id
  | .rental row => .rental row.id
  | .fee row => .fee row.id

/-- The tables whose rows are numbered by a sequence. -/
inductive Series where
  | rentals
  | fees
  | invoices
deriving DecidableEq

/-- The identifier that a series draws next. -/
def Sequences.next (s : Sequences) : Series → UInt64
  | .rentals => s.rentals.next
  | .fees => s.fees.next
  | .invoices => s.invoices.next

namespace Tables

def row? (t : Tables) : RowKey → Option Row
  | .item id => (t.items.get? id).map .item
  | .rental id => (t.rentals.get? id).map .rental
  | .fee id => (t.fees.get? id).map .fee

def uses (t : Tables) : Series → UInt64 → Bool
  | .rentals, id => t.rentals.contains id
  | .fees, id => t.fees.contains id
  | .invoices, id => t.invoices.contains id

/-- Every row stands under its own key. -/
def Keyed (t : Tables) : Prop := ∀ key row, t.row? key = some row → row.key = key

@[simp] theorem row?_empty (key : RowKey) : empty.row? key = none := by
  cases key <;> rfl

@[simp] theorem uses_empty (s : Series) (id : UInt64) : empty.uses s id = false := by
  cases s <;> rfl

@[simp] theorem row?_merge (t news : Tables) (key : RowKey) :
    (t.merge news).row? key = (news.row? key).or (t.row? key) := by
  cases key with
  | item id => cases h : news.items.get? id <;> simp [row?, merge, h]
  | rental id => cases h : news.rentals.get? id <;> simp [row?, merge, h]
  | fee id => cases h : news.fees.get? id <;> simp [row?, merge, h]

@[simp] theorem row?_putItem (t : Tables) (row : Item) (key : RowKey) :
    (t.putItem row).row? key = if key = .item row.id then some (.item row) else t.row? key := by
  cases key with
  | item id => by_cases h : id = row.id <;> simp [row?, putItem, h]
  | rental id => simp [row?, putItem]
  | fee id => simp [row?, putItem]

@[simp] theorem row?_putRental (t : Tables) (row : Rental) (key : RowKey) :
    (t.putRental row).row? key =
      if key = .rental row.id then some (.rental row) else t.row? key := by
  cases key with
  | item id => simp [row?, putRental]
  | rental id => by_cases h : id = row.id <;> simp [row?, putRental, h]
  | fee id => simp [row?, putRental]

@[simp] theorem row?_putFee (t : Tables) (row : Fee) (key : RowKey) :
    (t.putFee row).row? key = if key = .fee row.id then some (.fee row) else t.row? key := by
  cases key with
  | item id => simp [row?, putFee]
  | rental id => simp [row?, putFee]
  | fee id => by_cases h : id = row.id <;> simp [row?, putFee, h]

@[simp] theorem row?_putInvoice (t : Tables) (row : Invoice) (key : RowKey) :
    (t.putInvoice row).row? key = t.row? key := by
  cases key <;> rfl

@[simp] theorem uses_putItem (t : Tables) (row : Item) (s : Series) (id : UInt64) :
    (t.putItem row).uses s id = t.uses s id := by
  cases s <;> rfl

@[simp] theorem uses_putRental (t : Tables) (row : Rental) (s : Series) (id : UInt64) :
    (t.putRental row).uses s id = (decide (s = .rentals ∧ id = row.id) || t.uses s id) := by
  cases s <;> simp [uses, putRental]

@[simp] theorem uses_putFee (t : Tables) (row : Fee) (s : Series) (id : UInt64) :
    (t.putFee row).uses s id = (decide (s = .fees ∧ id = row.id) || t.uses s id) := by
  cases s <;> simp [uses, putFee]

@[simp] theorem uses_putInvoice (t : Tables) (row : Invoice) (s : Series) (id : UInt64) :
    (t.putInvoice row).uses s id = (decide (s = .invoices ∧ id = row.id) || t.uses s id) := by
  cases s <;> simp [uses, putInvoice]

theorem row?_item {t : Tables} {id : ItemId} {row : Item} :
    t.row? (.item id) = some (.item row) ↔ t.items.get? id = some row := by
  simp [row?]

theorem row?_rental {t : Tables} {id : RentalId} {row : Rental} :
    t.row? (.rental id) = some (.rental row) ↔ t.rentals.get? id = some row := by
  simp [row?]

theorem row?_fee {t : Tables} {id : FeeId} {row : Fee} :
    t.row? (.fee id) = some (.fee row) ↔ t.fees.get? id = some row := by
  simp [row?]

theorem uses_rentals {t : Tables} {id : RentalId} :
    t.uses .rentals id ↔ (t.row? (.rental id)).isSome := by
  simp [uses, row?, Table.contains]

theorem uses_fees {t : Tables} {id : FeeId} : t.uses .fees id ↔ (t.row? (.fee id)).isSome := by
  simp [uses, row?, Table.contains]

theorem get?_of_unused_rental {t : Tables} {id : RentalId} (h : t.uses .rentals id = false) :
    t.rentals.get? id = none := Option.isNone_iff_eq_none.1 (Option.isSome_eq_false_iff.1 h)

theorem get?_of_unused_fee {t : Tables} {id : FeeId} (h : t.uses .fees id = false) :
    t.fees.get? id = none := Option.isNone_iff_eq_none.1 (Option.isSome_eq_false_iff.1 h)

theorem get?_of_unused_invoice {t : Tables} {id : InvoiceId} (h : t.uses .invoices id = false) :
    t.invoices.get? id = none := Option.isNone_iff_eq_none.1 (Option.isSome_eq_false_iff.1 h)

namespace Keyed

variable {t : Tables}

theorem item_id (h : t.Keyed) {id : ItemId} {row : Item} (hrow : t.items.get? id = some row) :
    row.id = id := by
  simpa [Row.key] using h (.item id) (.item row) (row?_item.2 hrow)

theorem rental_id (h : t.Keyed) {id : RentalId} {row : Rental}
    (hrow : t.rentals.get? id = some row) : row.id = id := by
  simpa [Row.key] using h (.rental id) (.rental row) (row?_rental.2 hrow)

theorem fee_id (h : t.Keyed) {id : FeeId} {row : Fee} (hrow : t.fees.get? id = some row) :
    row.id = id := by
  simpa [Row.key] using h (.fee id) (.fee row) (row?_fee.2 hrow)

theorem empty : Keyed Tables.empty := by
  intro key row h
  simp at h

theorem putItem (h : t.Keyed) (row : Item) : (t.putItem row).Keyed := by
  intro key found hfound
  rw [row?_putItem] at hfound
  split at hfound
  · next hkey => obtain rfl := Option.some.inj hfound; exact hkey.symm
  · exact h key found hfound

theorem putRental (h : t.Keyed) (row : Rental) : (t.putRental row).Keyed := by
  intro key found hfound
  rw [row?_putRental] at hfound
  split at hfound
  · next hkey => obtain rfl := Option.some.inj hfound; exact hkey.symm
  · exact h key found hfound

theorem putFee (h : t.Keyed) (row : Fee) : (t.putFee row).Keyed := by
  intro key found hfound
  rw [row?_putFee] at hfound
  split at hfound
  · next hkey => obtain rfl := Option.some.inj hfound; exact hkey.symm
  · exact h key found hfound

theorem putInvoice (h : t.Keyed) (row : Invoice) : (t.putInvoice row).Keyed := by
  intro key found hfound
  rw [row?_putInvoice] at hfound
  exact h key found hfound

end Keyed

end Tables

end RentalDesk
