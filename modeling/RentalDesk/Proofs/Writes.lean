import RentalDesk.Proofs.Lookup
import RentalDesk.Shop

/-!
# What a transaction writes

A write set is covered if every row that is staged in it can be written by its transaction: the
transaction holds the row's lock or has inserted the row, and items are never inserted. Staging
keeps a write set covered. The identifiers that a transaction has drawn and not yet committed or
forgotten are those of its insertions; an action draws at most one of them, the next of its series.
-/

namespace RentalDesk

namespace WriteSet

/-- Every staged row can be written, and no item was inserted. -/
structure Covered (w : WriteSet) : Prop where
  staged : ∀ key row, w.staged.row? key = some row → w.holds key
  inserted : ∀ id, .item id ∉ w.inserted

def locks (w : WriteSet) (key : RowKey) : Bool := w.held.any (·.key = key)

/-- Whether the transaction has drawn an identifier. -/
def drew (w : WriteSet) : Series → UInt64 → Bool
  | .rentals, id => w.inserted.contains (.rental id)
  | .fees, id => w.inserted.contains (.fee id)
  | .invoices, id => w.staged.invoices.contains id

def withStaged (w : WriteSet) (staged : Tables) : WriteSet := { w with staged }

theorem holds_iff {w : WriteSet} {key : RowKey} :
    w.holds key ↔ w.locks key ∨ key ∈ w.inserted := by
  simp [holds, locks]

theorem locks_iff {w : WriteSet} {key : RowKey} : w.locks key ↔ ∃ t ∈ w.held, t.key = key := by
  simp [locks]

@[simp] theorem locks_hold (w : WriteSet) (t : Ticket) (key : RowKey) :
    (w.hold t).locks key = (w.locks key || decide (t.key = key)) := by
  simp [locks, hold]

@[simp] theorem holds_hold (w : WriteSet) (t : Ticket) (key : RowKey) :
    (w.hold t).holds key = (w.holds key || decide (t.key = key)) := by
  simp [holds, hold, Bool.or_right_comm]

@[simp] theorem holds_withStaged (w : WriteSet) (staged : Tables) (key : RowKey) :
    (w.withStaged staged).holds key = w.holds key := rfl

@[simp] theorem holds_insertRental (w : WriteSet) (row : Rental) (key : RowKey) :
    (w.insertRental row).holds key = (decide (key = .rental row.id) || w.holds key) := by
  simp [holds, insertRental, Bool.or_left_comm]

@[simp] theorem holds_insertFee (w : WriteSet) (row : Fee) (key : RowKey) :
    (w.insertFee row).holds key = (decide (key = .fee row.id) || w.holds key) := by
  simp [holds, insertFee, Bool.or_left_comm]

@[simp] theorem holds_insertInvoice (w : WriteSet) (row : Invoice) (key : RowKey) :
    (w.insertInvoice row).holds key = w.holds key := rfl

@[simp] theorem holds_empty (key : RowKey) : empty.holds key = false := rfl

@[simp] theorem drew_empty (s : Series) (id : UInt64) : empty.drew s id = false := by
  cases s <;> rfl

theorem drew_insertRental (w : WriteSet) (row : Rental) (s : Series) (id : UInt64) :
    (w.insertRental row).drew s id = (decide (s = .rentals ∧ id = row.id) || w.drew s id) := by
  cases s <;> simp [drew, insertRental, Tables.putRental, Bool.decide_or]

theorem drew_insertFee (w : WriteSet) (row : Fee) (s : Series) (id : UInt64) :
    (w.insertFee row).drew s id = (decide (s = .fees ∧ id = row.id) || w.drew s id) := by
  cases s <;> simp [drew, insertFee, Tables.putFee, Bool.decide_or]

theorem drew_insertInvoice (w : WriteSet) (row : Invoice) (s : Series) (id : UInt64) :
    (w.insertInvoice row).drew s id = (decide (s = .invoices ∧ id = row.id) || w.drew s id) := by
  cases s <;> simp [drew, insertInvoice, Tables.putInvoice]

/-- Rows of other tables than the invoices may be staged without drawing. -/
theorem drew_withStaged {w : WriteSet} {staged : Tables}
    (h : staged.invoices = w.staged.invoices) (s : Series) (id : UInt64) :
    (w.withStaged staged).drew s id = w.drew s id := by
  cases s with
  | rentals => rfl
  | fees => rfl
  | invoices => rw [drew, withStaged, h, drew]

theorem Covered.empty : Covered WriteSet.empty where
  staged key row h := by simp [WriteSet.empty] at h
  inserted id := by simp [WriteSet.empty]

theorem stageItem_eq (w : WriteSet) (item : Item) :
    w.stageItem item =
      if w.holds (.item item.id) then .ok (w.withStaged (w.staged.putItem item))
      else .error (.storage (.unlocked (.item item.id))) := by
  unfold stageItem checkWritable
  split <;> rfl

theorem stageRental_eq (w : WriteSet) (rental : Rental) :
    w.stageRental rental =
      if w.holds (.rental rental.id) then .ok (w.withStaged (w.staged.putRental rental))
      else .error (.storage (.unlocked (.rental rental.id))) := by
  unfold stageRental checkWritable
  split <;> rfl

/-- The fee that a new version of it takes the place of, if there is one, keeps its settlement. -/
theorem stageFee_eq (w : WriteSet) (fee : Fee) (committed : Option Fee) :
    w.stageFee fee committed =
      if w.holds (.fee fee.id) then
        if ((w.staged.fees.get? fee.id).or committed).any (altersSettlement · fee) then
          .error (.storage (.settled fee.id))
        else .ok (w.withStaged (w.staged.putFee fee))
      else .error (.storage (.unlocked (.fee fee.id))) := by
  unfold stageFee checkWritable
  by_cases h : w.holds (.fee fee.id)
  · rw [if_pos h, if_pos h]
    cases (w.staged.fees.get? fee.id).or committed with
    | none => rfl
    | some previous =>
        by_cases ha : altersSettlement previous fee
        · rw [Option.any_some, if_pos ha]
          simp only [ha]
          rfl
        · rw [Option.any_some, if_neg ha]
          simp only [ha]
          rfl
  · rw [if_neg h, if_neg h]
    rfl

/-- What a staging that succeeds leaves behind: one more row under a key that can be written. -/
theorem covered_of_put {w : WriteSet} (h : w.Covered) {staged : Tables} {key : RowKey} {row : Row}
    (holds : w.holds key)
    (put : ∀ other, staged.row? other = if other = key then some row else w.staged.row? other) :
    (w.withStaged staged).Covered where
  staged other found hfound := by
    rw [withStaged, put] at hfound
    split at hfound
    · next hkey => rw [hkey]; exact holds
    · exact h.staged other found hfound
  inserted := h.inserted

theorem Covered.hold {w : WriteSet} (h : w.Covered) (t : Ticket) : (w.hold t).Covered where
  staged key row hrow := by
    rcases holds_iff.1 (h.staged key row hrow) with hlocks | hinserted
    · exact holds_iff.2 (.inl (by rw [locks_hold, hlocks, Bool.true_or]))
    · exact holds_iff.2 (.inr hinserted)
  inserted := h.inserted

theorem stageItem_eq_ok {w w' : WriteSet} {item : Item} (h : w.stageItem item = .ok w') :
    w.holds (.item item.id) ∧ w' = w.withStaged (w.staged.putItem item) := by
  rw [stageItem_eq] at h
  split at h
  · next holds => exact ⟨holds, (Except.ok.inj h).symm⟩
  · cases h

theorem stageRental_eq_ok {w w' : WriteSet} {rental : Rental} (h : w.stageRental rental = .ok w') :
    w.holds (.rental rental.id) ∧ w' = w.withStaged (w.staged.putRental rental) := by
  rw [stageRental_eq] at h
  split at h
  · next holds => exact ⟨holds, (Except.ok.inj h).symm⟩
  · cases h

theorem stageFee_eq_ok {w w' : WriteSet} {fee : Fee} {committed : Option Fee}
    (h : w.stageFee fee committed = .ok w') :
    w.holds (.fee fee.id) ∧ w' = w.withStaged (w.staged.putFee fee) := by
  rw [stageFee_eq] at h
  split at h
  · next holds =>
      split at h
      · cases h
      · exact ⟨holds, (Except.ok.inj h).symm⟩
  · cases h

theorem Covered.stageItem {w w' : WriteSet} {item : Item} (h : w.Covered)
    (hw : w.stageItem item = .ok w') : w'.Covered := by
  obtain ⟨holds, rfl⟩ := stageItem_eq_ok hw
  exact covered_of_put h holds (w.staged.row?_putItem item)

theorem Covered.stageRental {w w' : WriteSet} {rental : Rental} (h : w.Covered)
    (hw : w.stageRental rental = .ok w') : w'.Covered := by
  obtain ⟨holds, rfl⟩ := stageRental_eq_ok hw
  exact covered_of_put h holds (w.staged.row?_putRental rental)

theorem Covered.stageFee {w w' : WriteSet} {fee : Fee} {committed : Option Fee} (h : w.Covered)
    (hw : w.stageFee fee committed = .ok w') : w'.Covered := by
  obtain ⟨holds, rfl⟩ := stageFee_eq_ok hw
  exact covered_of_put h holds (w.staged.row?_putFee fee)

theorem Covered.insertRental {w : WriteSet} (h : w.Covered) (rental : Rental) :
    (w.insertRental rental).Covered where
  staged key row hrow := by
    rw [holds_iff]
    simp only [WriteSet.insertRental, Tables.row?_putRental, List.mem_cons] at hrow ⊢
    split at hrow
    · next hkey => exact .inr (.inl hkey)
    · exact (holds_iff.1 (h.staged key row hrow)).imp_right .inr
  inserted id := by simpa [WriteSet.insertRental] using h.inserted id

theorem Covered.insertFee {w : WriteSet} (h : w.Covered) (fee : Fee) :
    (w.insertFee fee).Covered where
  staged key row hrow := by
    rw [holds_iff]
    simp only [WriteSet.insertFee, Tables.row?_putFee, List.mem_cons] at hrow ⊢
    split at hrow
    · next hkey => exact .inr (.inl hkey)
    · exact (holds_iff.1 (h.staged key row hrow)).imp_right .inr
  inserted id := by simpa [WriteSet.insertFee] using h.inserted id

theorem Covered.insertInvoice {w : WriteSet} (h : w.Covered) (invoice : Invoice) :
    (w.insertInvoice invoice).Covered where
  staged key row hrow := h.staged key row hrow
  inserted := h.inserted

end WriteSet

namespace Shop

/-- A staging action leaves the shop alone, and the write set either alone or as it was staged. -/
theorem staged_cases {P : Shop → WriteSet → Prop} {shop : Shop} {writes : WriteSet}
    {result : Except Error WriteSet} (ok : ∀ w, result = .ok w → P shop w)
    (error : P shop writes) :
    P (shop.staged writes result).2.1 (shop.staged writes result).2.2 := by
  cases result with
  | ok w => exact ok w rfl
  | error e => exact error

@[simp] theorem staged_shop (shop : Shop) (writes : WriteSet) (result : Except Error WriteSet) :
    (shop.staged writes result).2.1 = shop := by
  cases result <;> rfl

theorem held_staged {shop : Shop} {writes : WriteSet} {result : Except Error WriteSet}
    (ok : ∀ w, result = .ok w → w.held = writes.held) :
    (shop.staged writes result).2.2.held = writes.held :=
  staged_cases (P := fun _ w => w.held = writes.held) ok rfl

theorem stageFee_of_bind {shop : Shop} {writes w : WriteSet} {fee : Fee}
    (h : (shop.store.fee? fee.id).bind (writes.stageFee fee) = .ok w) :
    ∃ committed, shop.store.fee? fee.id = .ok committed ∧
      writes.stageFee fee committed = .ok w := by
  cases hfee : shop.store.fee? fee.id with
  | ok committed =>
      rw [hfee] at h
      exact ⟨committed, rfl, h⟩
  | error e =>
      rw [hfee] at h
      cases h

theorem perform_registerItem_new {shop : Shop} {t : Tables} (hstore : shop.store = .memory t)
    {item : Item} (new : t.items.get? item.id = none) (writes : WriteSet) :
    shop.perform writes (.registerItem item) =
      (.ok true, { shop with store := .memory (t.putItem item) }, writes) := by
  simp only [perform, hstore, Store.item?, new, Store.putItem]

theorem perform_registerItem_known {shop : Shop} {t : Tables} (hstore : shop.store = .memory t)
    {item row : Item} (known : t.items.get? item.id = some row) (writes : WriteSet) :
    shop.perform writes (.registerItem item) = (.ok false, shop, writes) := by
  simp only [perform, hstore, Store.item?, known]

/-- The writes of a transaction stay covered, whatever it does. -/
theorem covered_perform {shop : Shop} {writes : WriteSet} (h : writes.Covered)
    (action : Action) : (shop.perform writes action).2.2.Covered := by
  cases action
  case insertRental rental => exact h.insertRental _
  case insertFee fee => exact h.insertFee _
  case insertInvoice invoice => exact h.insertInvoice _
  case updateItem item =>
      exact staged_cases (P := fun _ w => w.Covered) (fun _ hw => h.stageItem hw) h
  case updateRental rental =>
      exact staged_cases (P := fun _ w => w.Covered) (fun _ hw => h.stageRental hw) h
  case updateFee fee =>
      refine staged_cases (P := fun _ w => w.Covered) (fun w hw => ?_) h
      obtain ⟨committed, -, hw⟩ := stageFee_of_bind hw
      exact h.stageFee hw
  case release => exact .empty
  case discard => exact .empty
  case registerItem item =>
      simp only [perform]
      split <;> exact h
  all_goals exact h

/-- No action changes the clock or the calls that fail. -/
theorem perform_clock (shop : Shop) (writes : WriteSet) (action : Action) :
    (shop.perform writes action).2.1.clock = shop.clock ∧
      (shop.perform writes action).2.1.failing = shop.failing := by
  cases action
  case registerItem item =>
      simp only [perform]
      split <;> exact ⟨rfl, rfl⟩
  case updateItem item => simp only [perform, staged_shop, and_self]
  case updateRental rental => simp only [perform, staged_shop, and_self]
  case updateFee fee => simp only [perform, staged_shop, and_self]
  all_goals exact ⟨rfl, rfl⟩

/-- What an action can do to the row locks and to the locks that its transaction holds. -/
theorem perform_locks (shop : Shop) (writes : WriteSet) (action : Action) :
    ((shop.perform writes action).2.1.locks = shop.locks ∧
        (shop.perform writes action).2.2.held = writes.held) ∨
      ((shop.perform writes action).2.1.locks = shop.locks.giveBackAll writes.held ∧
        (shop.perform writes action).2.2 = .empty) ∨
      ((shop.perform writes action).2.1.locks = (shop.locks.giveBackAll writes.held).prune ∧
        (shop.perform writes action).2.2 = .empty) := by
  cases action
  case release => exact .inr (.inr ⟨rfl, rfl⟩)
  case discard => exact .inr (.inl ⟨rfl, rfl⟩)
  case updateItem item =>
      refine .inl ⟨by simp only [perform, staged_shop], held_staged fun w hw => ?_⟩
      rw [(WriteSet.stageItem_eq_ok hw).2, WriteSet.withStaged]
  case updateRental rental =>
      refine .inl ⟨by simp only [perform, staged_shop], held_staged fun w hw => ?_⟩
      rw [(WriteSet.stageRental_eq_ok hw).2, WriteSet.withStaged]
  case updateFee fee =>
      refine .inl ⟨by simp only [perform, staged_shop], held_staged fun w hw => ?_⟩
      obtain ⟨_, -, hw⟩ := stageFee_of_bind hw
      rw [(WriteSet.stageFee_eq_ok hw).2, WriteSet.withStaged]
  case registerItem item =>
      refine .inl ?_
      simp only [perform]
      split <;> exact ⟨rfl, rfl⟩
  all_goals exact .inl ⟨rfl, rfl⟩

end Shop

end RentalDesk
