import RentalDesk.Proofs.Interchange.Tasks

/-!
# Shops on either medium

Two shops are alike if the archive of one holds what the other one keeps in memory, written row by
row, and all else but the row locks is the same. Whatever action is done in both of them is answered
alike, up to the sign of zeros, and leaves them alike.
-/

namespace RentalDesk

/-! ## Alike write sets -/

/-- The write sets of a transaction in memory and of one in an archive: they hold the same rows,
though with other tickets. -/
structure WriteSet.Alike (m a : WriteSet) : Prop where
  held : m.held.map Ticket.key = a.held.map Ticket.key
  inserted : m.inserted = a.inserted
  staged : m.staged = a.staged

namespace WriteSet.Alike

variable {m a : WriteSet}

theorem empty : Alike WriteSet.empty WriteSet.empty := ⟨rfl, rfl, rfl⟩

theorem holds_eq (h : m.Alike a) (key : RowKey) : m.holds key = a.holds key := by
  have hany : ∀ w : WriteSet, w.held.any (·.key = key) = (w.held.map Ticket.key).any (· = key) :=
    fun w => by rw [List.any_map]; rfl
  rw [holds, holds, hany, hany, h.held, h.inserted]

theorem hold (h : m.Alike a) {t u : Ticket} (hkey : t.key = u.key) :
    (m.hold t).Alike (a.hold u) where
  held := by rw [WriteSet.hold, WriteSet.hold, List.map_append, List.map_append, h.held,
    List.map_singleton, List.map_singleton, hkey]
  inserted := h.inserted
  staged := h.staged

theorem withStaged (h : m.Alike a) (staged : Tables) :
    (m.withStaged staged).Alike (a.withStaged staged) :=
  ⟨h.held, h.inserted, rfl⟩

/-- What staging leaves behind, or why it is refused. -/
def Results (x y : Except Error WriteSet) : Prop :=
  (∃ m a, x = .ok m ∧ y = .ok a ∧ m.Alike a) ∨ ∃ e, x = .error e ∧ y = .error e

theorem stageItem (h : m.Alike a) (item : Item) :
    Results (m.stageItem item) (a.stageItem item) := by
  rw [stageItem_eq, stageItem_eq, h.holds_eq, h.staged]
  split
  · exact .inl ⟨_, _, rfl, rfl, h.withStaged _⟩
  · exact .inr ⟨_, rfl, rfl⟩

theorem stageRental (h : m.Alike a) (rental : Rental) :
    Results (m.stageRental rental) (a.stageRental rental) := by
  rw [stageRental_eq, stageRental_eq, h.holds_eq, h.staged]
  split
  · exact .inl ⟨_, _, rfl, rfl, h.withStaged _⟩
  · exact .inr ⟨_, rfl, rfl⟩

/-- Whether a fee is settled does not depend on the sign of its amount. -/
theorem stageFee (h : m.Alike a) (fee : Fee) (committed : Option Fee) :
    Results (m.stageFee fee committed) (a.stageFee fee (committed.map Fee.plain)) := by
  have hprevious : ((a.staged.fees.get? fee.id).or (committed.map Fee.plain)).any
      (altersSettlement · fee) =
        ((a.staged.fees.get? fee.id).or committed).any (altersSettlement · fee) := by
    cases a.staged.fees.get? fee.id with
    | some previous => rfl
    | none => cases committed <;> rfl
  rw [stageFee_eq, stageFee_eq, h.holds_eq, h.staged, hprevious]
  split
  · split
    · exact .inr ⟨_, rfl, rfl⟩
    · exact .inl ⟨_, _, rfl, rfl, h.withStaged _⟩
  · exact .inr ⟨_, rfl, rfl⟩

end WriteSet.Alike

/-! ## Looks -/

/-- What a look at tables shows. -/
def Tables.look (t : Tables) : (what : Look) → what.Answer
  | .item id => t.items.get? id
  | .items => t.items.values
  | .rentals => t.rentals.values
  | .fees => t.fees.values
  | .invoices => t.invoices.values
  | .ledger => (t.fees.values, t.rentals.values)

namespace Shop

variable {shop : Shop} {t : Tables}

theorem look_memory (store : shop.store = .memory t) (what : Look) :
    shop.look what = .ok (t.look what) := by
  cases what <;> rw [look, store] <;> rfl

/-- An archive shows what memory shows, up to the sign of zeros. -/
theorem look_archive (store : shop.store = .archive (.ofTables t)) (what : Look) :
    shop.look what = .ok (what.plain (t.look what)) := by
  cases what with
  | item id => rw [look, store, Store.item?_ofTables]; rfl
  | items => rw [look, store, Store.items_ofTables]; rfl
  | rentals => rw [look, store, Store.rentals_ofTables]; rfl
  | fees => rw [look, store, Store.fees_ofTables]; rfl
  | invoices => rw [look, store, Store.invoices_ofTables]; rfl
  | ledger => rw [look, store, Store.fees_ofTables, Store.rentals_ofTables]; rfl

end Shop

/-! ## Alike shops -/

/-- A shop with its rows in memory and one with the same rows in an archive. -/
structure Shop.Alike (m a : Shop) : Prop where
  store : ∃ t, m.store = .memory t ∧ a.store = .archive (.ofTables t)
  sequences : m.sequences = a.sequences
  lockWait : m.lockWait = a.lockWait
  timer : m.timer = a.timer
  clock : m.clock = a.clock
  failing : m.failing = a.failing
  returns : m.returns = a.returns

namespace Shop.Alike

variable {m a : Shop}

theorem withLocks (h : m.Alike a) (l l' : RowLocks) :
    Alike { m with locks := l } { a with locks := l' } :=
  ⟨h.store, h.sequences, h.lockWait, h.timer, h.clock, h.failing, h.returns⟩

/-- What an action did in both shops: the answers, the shops and the write sets. -/
def Outcomes (action : Action) (x y : action.Answer × Shop × WriteSet) : Prop :=
  action.plain x.1 = action.plain y.1 ∧ x.2.1.Alike y.2.1 ∧ x.2.2.Alike y.2.2

theorem staged {w v : WriteSet} (h : m.Alike a) (hw : w.Alike v) {x y : Except Error WriteSet}
    (results : WriteSet.Alike.Results x y) :
    (m.staged w x).1 = (a.staged v y).1 ∧ (m.staged w x).2.1.Alike (a.staged v y).2.1 ∧
      (m.staged w x).2.2.Alike (a.staged v y).2.2 := by
  rcases results with ⟨w', v', rfl, rfl, hstaged⟩ | ⟨e, rfl, rfl⟩
  · exact ⟨rfl, h, hstaged⟩
  · exact ⟨rfl, h, hw⟩

theorem withSequences (h : m.Alike a) (sequences : Sequences) :
    Alike { m with sequences } { a with sequences } :=
  ⟨h.store, rfl, h.lockWait, h.timer, h.clock, h.failing, h.returns⟩

theorem withStore (h : m.Alike a) (t : Tables) :
    Alike { m with store := .memory t } { a with store := .archive (.ofTables t) } :=
  ⟨⟨t, rfl, rfl⟩, h.sequences, h.lockWait, h.timer, h.clock, h.failing, h.returns⟩

theorem readFee (h : m.Alike a) (staged : Option Fee) (id : FeeId) :
    (overlay staged (m.store.fee? id)).map (Option.map Fee.plain) =
      (overlay staged (a.store.fee? id)).map (Option.map Fee.plain) := by
  obtain ⟨t, hm, ha⟩ := h.store
  rw [hm, ha, Store.fee?_ofTables, Store.fee?]
  cases staged with
  | some fee => rfl
  | none => cases t.fees.get? id <;> simp [overlay, Except.map]

theorem registerItem (h : m.Alike a) {w v : WriteSet} (hw : w.Alike v) (item : Item) :
    Outcomes (.registerItem item) (m.perform w (.registerItem item))
      (a.perform v (.registerItem item)) := by
  obtain ⟨t, hm, ha⟩ := h.store
  have hmitem : m.store.item? item.id = .ok (t.items.get? item.id) := by rw [hm]; rfl
  have haitem : a.store.item? item.id = .ok (t.items.get? item.id) := by
    rw [ha, Store.item?_ofTables]
  simp only [Shop.perform, hmitem, haitem]
  cases t.items.get? item.id with
  | some row => exact ⟨rfl, h, hw⟩
  | none =>
      refine ⟨rfl, ?_, hw⟩
      rw [hm, ha, Store.putItem, Store.putItem, Archive.putItem_ofTables]
      exact h.withStore _

/-- Whatever is done is answered alike in both shops and leaves them alike. -/
theorem perform (h : m.Alike a) {w v : WriteSet} (hw : w.Alike v) (action : Action) :
    Outcomes action (m.perform w action) (a.perform v action) := by
  obtain ⟨t, hm, ha⟩ := h.store
  cases action with
  | fails call => exact ⟨by simp only [Shop.perform, h.failing], h, hw⟩
  | now => exact ⟨h.clock, h, hw⟩
  | look what =>
      refine ⟨?_, h, hw⟩
      simp only [Shop.perform, Shop.look_memory hm, Shop.look_archive ha, Action.plain, Except.map,
        what.plain_plain]
  | readItem id =>
      refine ⟨?_, h, hw⟩
      simp only [Shop.perform, hm, ha, Store.item?_ofTables, hw.staged]
      rfl
  | readRental id =>
      refine ⟨?_, h, hw⟩
      simp only [Shop.perform, hm, ha, Store.rental?_ofTables, hw.staged]
      rfl
  | readFee id =>
      refine ⟨?_, h, hw⟩
      simp only [Shop.perform, Action.plain, hw.staged]
      exact h.readFee _ id
  | insertRental rental =>
      simp only [Shop.perform, h.sequences]
      exact ⟨rfl, h.withSequences _, hw.held, by
        simp only [WriteSet.insertRental, hw.inserted], by
        simp only [WriteSet.insertRental, hw.staged]⟩
  | insertFee fee =>
      simp only [Shop.perform, h.sequences]
      exact ⟨rfl, h.withSequences _, hw.held, by
        simp only [WriteSet.insertFee, hw.inserted], by
        simp only [WriteSet.insertFee, hw.staged]⟩
  | insertInvoice invoice =>
      simp only [Shop.perform, h.sequences]
      exact ⟨rfl, h.withSequences _, hw.held, hw.inserted, by
        simp only [WriteSet.insertInvoice, hw.staged]⟩
  | updateItem item => exact h.staged hw (hw.stageItem item)
  | updateRental rental => exact h.staged hw (hw.stageRental rental)
  | updateFee fee =>
      refine h.staged hw ?_
      rw [hm, ha, Store.fee?_ofTables, Store.fee?]
      exact hw.stageFee fee _
  | apply =>
      refine ⟨rfl, ?_, hw⟩
      simp only [Shop.perform, hm, ha, Store.apply, hw.staged, Archive.apply_ofTables]
      exact h.withStore _
  | release => exact ⟨rfl, h.withLocks _ _, .empty⟩
  | discard => exact ⟨rfl, h.withLocks _ _, .empty⟩
  | registerItem item => exact h.registerItem hw item
  | placeItem item =>
      refine ⟨rfl, ?_, hw⟩
      simp only [Shop.perform, hm, ha, Store.putItem, Archive.putItem_ofTables]
      exact h.withStore _
  | announce item =>
      exact ⟨rfl, ⟨h.store, h.sequences, h.lockWait, h.timer, h.clock, h.failing,
        congrArg (Returns.announce · item) h.returns⟩, hw⟩

end Shop.Alike

end RentalDesk
