import RentalDesk.Proofs.Plain.Desk

/-!
# Listings are read off the tables

What the listings of the desk come to on tables whose rows stand under their own identifiers. The
values of such a table ascend by identifier, so sorting them by descending identifier turns them
round, and looking for the row of an identifier among them is looking the table up.
-/

namespace RentalDesk

/-! ## Rows under their own identifiers -/

namespace Table

variable {α : Type} {id : α → UInt64} {t : Table UInt64 α}

/-- The rows stand under their own identifiers. -/
def Filed (id : α → UInt64) (t : Table UInt64 α) : Prop :=
  ∀ key row, t.get? key = some row → id row = key

namespace Filed

theorem empty : (empty : Table UInt64 α).Filed id :=
  fun _ _ h => absurd h.symm (Option.some_ne_none _)

theorem insert (h : t.Filed id) (row : α) : (t.insert (id row) row).Filed id := by
  intro key found hfound
  rw [get?_insert] at hfound
  split at hfound
  · next hkey => rw [hkey, Option.some.inj hfound]
  · exact h key found hfound

theorem map_values (h : t.Filed id) : t.values.map id = t.keys := by
  rw [values, keys, List.map_map]
  refine List.map_congr_left fun row hrow => ?_
  exact h row.1 row.2 (get?_eq_some_iff.2 hrow)

theorem values_pairwise (h : t.Filed id) : t.values.Pairwise fun a b => id a < id b := by
  have hkeys : t.keys.Pairwise (· < ·) :=
    List.pairwise_map.2 (t.ascending.imp fun hlt => Std.compare_eq_lt.1 hlt)
  rw [← h.map_values] at hkeys
  exact List.pairwise_map.1 hkeys

theorem mem_values (h : t.Filed id) {row : α} : row ∈ t.values ↔ t.get? (id row) = some row := by
  refine Table.mem_values.trans ⟨fun ⟨key, hkey⟩ => ?_, fun hrow => ⟨id row, hrow⟩⟩
  rwa [h key row hkey]

/-- Looking for a row among some of the values is looking it up. -/
theorem find?_eq (h : t.Filed id) (rows : List α) (keep : α → Bool)
    (mem : ∀ row, row ∈ rows ↔ row ∈ t.values ∧ keep row = true) (key : UInt64) :
    (rows.find? fun row => id row = key) = (t.get? key).filter keep := by
  have hfound : ∀ row, (rows.find? fun row => id row = key) = some row →
      t.get? key = some row ∧ keep row = true := by
    intro row hfind
    obtain ⟨hvalue, hkeep⟩ := (mem row).1 (List.mem_of_find?_eq_some hfind)
    obtain rfl : id row = key := by simpa using List.find?_some hfind
    exact ⟨h.mem_values.1 hvalue, hkeep⟩
  ext row
  rw [Option.filter_eq_some_iff]
  refine ⟨hfound row, fun ⟨hget, hkeep⟩ => ?_⟩
  obtain rfl := h key row hget
  have hmem : row ∈ rows := (mem row).2 ⟨h.mem_values.2 hget, hkeep⟩
  cases hfind : rows.find? fun other => id other = id row with
  | none => exact absurd (decide_eq_true rfl) (List.find?_eq_none.1 hfind row hmem)
  | some found => rw [← (hfound found hfind).1, hget]

end Filed

end Table

/-- Sorting rows that ascend by identifier by descending identifier turns them round. -/
theorem mergeSort_eq_reverse {α : Type} {id : α → UInt64} {rows : List α}
    (ascending : rows.Pairwise fun a b => id a < id b) :
    rows.mergeSort (fun a b => id b ≤ id a) = rows.reverse := by
  have hsorted : (rows.mergeSort fun a b => id b ≤ id a).Pairwise fun a b => id b ≤ id a := by
    refine (List.pairwise_mergeSort (fun a b c => ?_) (fun a b => ?_) rows).imp of_decide_eq_true
    · simpa using fun hab hbc => UInt64.le_trans hbc hab
    · simpa using UInt64.le_total (id b) (id a)
  have hreverse : rows.reverse.Pairwise fun a b => id b < id a := List.pairwise_reverse.2 ascending
  have hperm : (rows.mergeSort fun a b => id b ≤ id a).Perm rows.reverse :=
    (List.mergeSort_perm ..).trans (List.reverse_perm rows).symm
  have hinj : ∀ a ∈ rows, ∀ b ∈ rows, id a = id b → a = b := by
    refine List.inj_on_of_nodup_map (List.pairwise_map.2 (ascending.imp fun hlt heq => ?_))
    rw [heq] at hlt
    exact UInt64.lt_irrefl _ hlt
  refine hperm.eq_of_pairwise (fun a b ha hb hba hab => ?_) hsorted (hreverse.imp UInt64.le_of_lt)
  exact hinj a (List.mem_mergeSort.1 ha) b (List.mem_reverse.1 hb) (UInt64.le_antisymm hab hba)

/-! ## The order of rentals -/

instance : Std.TransOrd Instant :=
  inferInstanceAs (Std.TransCmp (compareLex (compareOn Instant.second) (compareOn Instant.nano)))

instance : Std.LawfulEqOrd Instant where
  eq_of_compare {a b} h := by
    have h : (compareLex (compareOn Instant.second) (compareOn Instant.nano)) a b = .eq := h
    simp only [compareLex, compareOn, Ordering.then_eq_eq] at h
    have hsecond : a.second = b.second := Std.LawfulEqCmp.eq_of_compare h.1
    have hnano : a.nano = b.nano := Std.LawfulEqCmp.eq_of_compare h.2
    cases a
    cases b
    simp_all

namespace Tables

theorem precedes_iff {a b : Rental} : Precedes a b ↔
    (compareLex (compareOn Rental.rentedAt) (compareOn Rental.id) b a).isLE = true := by
  rw [Precedes, compareLex, Ordering.isLE_then_iff_or]
  simp [compareOn, Std.isLE_compare]

instance : Std.Total Precedes where
  total a b := by
    rw [precedes_iff, precedes_iff]
    refine Classical.or_iff_not_imp_left.2 fun h => ?_
    rw [Std.OrientedCmp.lt_of_not_isLE h]
    rfl

instance : IsTrans Rental Precedes where
  trans a b c hab hbc := by
    rw [precedes_iff] at *
    exact Std.TransCmp.isLE_trans hbc hab

theorem Precedes.antisymm_id {a b : Rental} (hab : Precedes a b) (hba : Precedes b a) :
    a.id = b.id := by
  have h := Std.OrientedCmp.isLE_antisymm (precedes_iff.1 hab) (precedes_iff.1 hba)
  rw [compareLex, Ordering.then_eq_eq] at h
  have hid : compare b.id a.id = .eq := h.2
  exact (Std.LawfulEqCmp.eq_of_compare hid).symm

end Tables

/-! ## The listings -/

namespace Tables

/-- The rows of all tables stand under their own identifiers. -/
structure Filed (t : Tables) : Prop where
  items : t.items.Filed Item.id
  rentals : t.rentals.Filed Rental.id
  fees : t.fees.Filed Fee.id
  invoices : t.invoices.Filed Invoice.id

namespace Filed

variable {t : Tables}

theorem empty : Tables.empty.Filed where
  items := .empty
  rentals := .empty
  fees := .empty
  invoices := .empty

theorem lend (h : t.Filed) (item : Item) (rental : Rental) (fee : Fee) :
    (t.lend item rental fee).Filed where
  items := h.items.insert { item with available := false }
  rentals := h.rentals.insert rental
  fees := h.fees.insert fee
  invoices := h.invoices

theorem close (h : t.Filed) (item : Item) (rental : Rental) (now : Instant) :
    (t.close item rental now).Filed where
  items := h.items.insert { item with available := true }
  rentals := h.rentals.insert { rental with returnedAt := some now }
  fees := h.fees
  invoices := h.invoices

theorem settle (h : t.Filed) (fee : Fee) (invoice : Invoice) : (t.settle fee invoice).Filed where
  items := h.items
  rentals := h.rentals
  fees := h.fees.insert { fee with settlement := some invoice.id }
  invoices := h.invoices.insert invoice

/-- The fees of a renter, before they are sorted. -/
theorem feesOf_eq (h : t.Filed) (renter : RenterId) :
    feesOf (rentalsOf renter t.rentals.values) t.fees.values = (t.owed renter).reverse := by
  rw [owed, List.filterMap_reverse, List.reverse_reverse, feesOf]
  refine List.filterMap_congr fun fee _ => ?_
  have hfind := h.rentals.find?_eq (rentalsOf renter t.rentals.values)
    (fun rental => rental.renterId = renter) (fun rental => List.mem_filter) fee.rentalId
  rw [hfind]

/-- The fees of a renter are listed by strictly descending identifier. -/
theorem owed_pairwise (h : t.Filed) (renter : RenterId) :
    (t.owed renter).Pairwise fun a b => b.1.id < a.1.id := by
  refine List.Pairwise.filterMap _ ?_ (List.pairwise_reverse.2 h.fees.values_pairwise)
  intro a b hlt row hrow row' hrow'
  obtain ⟨_, -, rfl⟩ := Option.map_eq_some_iff.1 hrow
  obtain ⟨_, -, rfl⟩ := Option.map_eq_some_iff.1 hrow'
  exact hlt

/-- Every fee of every rental of the renter is listed, and no other one. -/
theorem mem_owed (h : t.Filed) {renter : RenterId} {fee : Fee} {rental : Rental} :
    (fee, rental) ∈ t.owed renter ↔ t.fees.get? fee.id = some fee ∧
      t.rentals.get? fee.rentalId = some rental ∧ rental.renterId = renter := by
  simp only [owed, List.mem_filterMap, List.mem_reverse, Option.map_eq_some_iff,
    Option.filter_eq_some_iff, decide_eq_true_eq]
  constructor
  · rintro ⟨fee, hfee, rental, ⟨hrental, howner⟩, ⟨⟩⟩
    exact ⟨h.fees.mem_values.1 hfee, hrental, howner⟩
  · rintro ⟨hfee, hrental, howner⟩
    exact ⟨fee, h.fees.mem_values.2 hfee, rental, ⟨hrental, howner⟩, rfl⟩

theorem itemsById_eq (h : t.Filed) : itemsById t.items.values = t.items.values :=
  List.mergeSort_of_pairwise (h.items.values_pairwise.imp fun hlt =>
    decide_eq_true (UInt64.le_of_lt hlt))

theorem titleOf_eq (h : t.Filed) (id : ItemId) : titleOf t.items.values id = t.title id := by
  have hfind := h.items.find?_eq t.items.values.reverse (fun _ => true)
    (fun item => by simp) id
  rw [titleOf, hfind, title]
  cases t.items.get? id <;> rfl

theorem newestRentals_eq (h : t.Filed) (renter : RenterId) :
    newestRentals (rentalsOf renter t.rentals.values) = t.lent renter := by
  have hrows : ∀ rental ∈ rentalsOf renter t.rentals.values,
      t.rentals.get? rental.id = some rental :=
    fun rental hmem => h.rentals.mem_values.1 (List.mem_filter.1 hmem).1
  have hsorted : (newestRentals (rentalsOf renter t.rentals.values)).Pairwise Precedes := by
    refine (List.pairwise_mergeSort (fun a b c => ?_) (fun a b => ?_) _).imp precedes_iff.2
    · exact fun hab hbc => precedes_iff.1 (trans_of Precedes (precedes_iff.2 hab)
        (precedes_iff.2 hbc))
    · rw [Bool.or_eq_true]
      exact (total_of Precedes a b).imp precedes_iff.1 precedes_iff.1
  have hperm : (newestRentals (rentalsOf renter t.rentals.values)).Perm (t.lent renter) :=
    (List.mergeSort_perm ..).trans (List.perm_insertionSort ..).symm
  refine hperm.eq_of_pairwise (fun a b ha hb hab hba => ?_) hsorted
    (List.pairwise_insertionSort ..)
  have hid := hab.antisymm_id hba
  have hb := hrows b (hperm.mem_iff.2 hb |> List.mem_mergeSort.1)
  rw [← hid, hrows a (List.mem_mergeSort.1 ha)] at hb
  exact Option.some.inj hb

end Filed

end Tables

/-! ## Fees as they are listed -/

theorem mapM_eq_some_iff {α β : Type} {f : α → Option β} {as : List α} {bs : List β} :
    as.mapM f = some bs ↔ List.Forall₂ (fun a b => f a = some b) as bs := by
  induction as generalizing bs with
  | nil => simp [eq_comm]
  | cons a as ih =>
      simp only [List.mapM_cons, Option.bind_eq_bind, Option.bind_eq_some_iff, ih,
        Option.pure_def, Option.some.injEq, List.forall₂_cons_left_iff, exists_and_left]
      simp only [eq_comm]

theorem mapM_reverse {α β : Type} (f : α → Option β) (as : List α) :
    as.reverse.mapM f = (as.mapM f).map List.reverse := by
  ext bs
  rw [mapM_eq_some_iff, Option.map_eq_some_iff]
  constructor
  · intro h
    exact ⟨bs.reverse, mapM_eq_some_iff.2 (by simpa using List.rel_reverse h), bs.reverse_reverse⟩
  · rintro ⟨bs, h, rfl⟩
    exact List.rel_reverse (mapM_eq_some_iff.1 h)

theorem toOption_map {ε α β : Type} (f : α → β) (a : Except ε α) :
    (a.map f).toOption = a.toOption.map f := by
  cases a <;> rfl

theorem toOption_mapM {ε α β : Type} (f : α → Except ε β) (as : List α) :
    (as.mapM f).toOption = as.mapM fun a => (f a).toOption := by
  induction as with
  | nil => rfl
  | cons a as ih =>
      rw [List.mapM_cons, List.mapM_cons, ← ih]
      cases f a with
      | error e => rfl
      | ok b => cases as.mapM f <;> rfl

theorem toOption_feeView (tariff : Tariff) (now : Instant) (fee : Fee) (rental : Rental) :
    (tariff.feeView now fee rental).toOption = PlainDesk.view? tariff now fee rental := by
  rw [Tariff.feeView, PlainDesk.view?]
  simp only [Rental.isOpen, Fee.isSettled, Option.isNone_iff_eq_none, Option.not_isSome_iff_eq_none]
  split
  · cases tariff.accrued fee.amount rental.rentedAt now <;> rfl
  · rfl

theorem id_of_view? {tariff : Tariff} {now : Instant} {fee : Fee} {rental : Rental} {view : FeeView}
    (h : PlainDesk.view? tariff now fee rental = some view) : view.id = fee.id := by
  obtain ⟨amount, -, rfl⟩ := Option.map_eq_some_iff.1 h
  rfl

theorem ofRows_eq {α : Type} (reply : List α → Reply) (rows : Except Error (List α)) :
    Reply.ofRows reply rows = (rows.toOption.map reply).getD .listFailed := by
  cases rows <;> rfl

/-- The listing of fees, which are turned into views before they are sorted. -/
theorem ofRows_fees {rows : List (Fee × Rental)}
    (descending : rows.Pairwise fun a b => b.1.id < a.1.id) (tariff : Tariff) (now : Instant) :
    Reply.ofRows .fees ((rows.reverse.mapM fun (fee, rental) =>
        tariff.feeView now fee rental).map newestFees) =
      (rows.mapM fun row => PlainDesk.view? tariff now row.1 row.2).elim .listFailed .fees := by
  have hviews : ((rows.reverse.mapM fun (fee, rental) =>
      tariff.feeView now fee rental).map newestFees).toOption =
        (rows.mapM fun row => PlainDesk.view? tariff now row.1 row.2).map fun views =>
          newestFees views.reverse := by
    rw [toOption_map, toOption_mapM]
    simp only [toOption_feeView]
    rw [mapM_reverse, Option.map_map]
    rfl
  rw [ofRows_eq, hviews]
  cases hlist : rows.mapM fun row => PlainDesk.view? tariff now row.1 row.2 with
  | none => rfl
  | some views =>
      have hids : views.Pairwise fun a b => b.id < a.id := by
        have hmap : rows.map (fun row => row.1.id) = views.map FeeView.id := by
          rw [← List.forall₂_eq_eq_eq, List.forall₂_map_left_iff, List.forall₂_map_right_iff]
          exact (mapM_eq_some_iff.1 hlist).imp fun row view hview => (id_of_view? hview).symm
        have hpairwise : (rows.map fun row => row.1.id).Pairwise fun a b => b < a :=
          List.pairwise_map.2 descending
        rw [hmap] at hpairwise
        exact List.pairwise_map.1 hpairwise
      have hnewest : newestFees views.reverse = views := by
        rw [newestFees, mergeSort_eq_reverse (List.pairwise_reverse.2 hids), List.reverse_reverse]
      simp [hnewest]

end RentalDesk
