import RentalDesk.Proofs.Sightings

/-!
# The same schedule in an archive

A floor whose rows are in memory has a twin whose rows are in an archive. As long as no amount is a
negative zero, a schedule that is followed on both leads to the same events, and to floors that are
twins again. So what happens in an archive can be computed in memory.
-/

namespace RentalDesk

namespace Store

/-- The store with its rows in an archive. -/
def archived : Store → Store
  | .memory t => t.keptIn .archive
  | .archive files => .archive files

/-- An archive gives all rows of the store back as they are. -/
def IsPlain : Store → Prop
  | .memory t => (∀ fee ∈ t.fees.values, fee.plain = fee) ∧
      ∀ invoice ∈ t.invoices.values, invoice.plain = invoice
  | .archive _ => True

instance : (store : Store) → Decidable store.IsPlain
  | .memory t => inferInstanceAs (Decidable ((∀ fee ∈ t.fees.values, fee.plain = fee) ∧
      ∀ invoice ∈ t.invoices.values, invoice.plain = invoice))
  | .archive _ => inferInstanceAs (Decidable True)

variable (store : Store)

@[simp] theorem item?_archived (id : ItemId) : store.archived.item? id = store.item? id := by
  cases store with
  | memory t => exact t.item?_keptIn .archive id
  | archive files => rfl

@[simp] theorem rental?_archived (id : RentalId) :
    store.archived.rental? id = store.rental? id := by
  cases store with
  | memory t => exact t.rental?_keptIn .archive id
  | archive files => rfl

@[simp] theorem items_archived : store.archived.items = store.items := by
  cases store with
  | memory t => exact t.items_keptIn .archive
  | archive files => rfl

@[simp] theorem rentals_archived : store.archived.rentals = store.rentals := by
  cases store with
  | memory t => exact t.rentals_keptIn .archive
  | archive files => rfl

@[simp] theorem putItem_archived (item : Item) :
    store.archived.putItem item = (store.putItem item).archived := by
  cases store with
  | memory t => exact t.putItem_keptIn .archive item
  | archive files => rfl

@[simp] theorem apply_archived (staged : Tables) :
    store.archived.apply staged = (store.apply staged).archived := by
  cases store with
  | memory t => exact t.apply_keptIn .archive staged
  | archive files => rfl

variable {store}

theorem fee?_archived (plain : store.IsPlain) (id : FeeId) :
    store.archived.fee? id = store.fee? id := by
  cases store with
  | memory t =>
      refine (t.fee?_keptIn .archive id).trans ?_
      cases found : t.fees.get? id with
      | none => exact congrArg Except.ok found.symm
      | some fee =>
          have same : fee.plain = fee := plain.1 fee (Table.mem_values.2 ⟨id, found⟩)
          rw [Option.map_some, Medium.fee, same, ← found]
          rfl
  | archive files => rfl

theorem fees_archived (plain : store.IsPlain) : store.archived.fees = store.fees := by
  cases store with
  | memory t =>
      refine (t.fees_keptIn .archive).trans (congrArg Except.ok ?_)
      exact (List.map_congr_left plain.1).trans (List.map_id' _)
  | archive files => rfl

theorem invoices_archived (plain : store.IsPlain) : store.archived.invoices = store.invoices := by
  cases store with
  | memory t =>
      refine (t.invoices_keptIn .archive).trans (congrArg Except.ok ?_)
      exact (List.map_congr_left plain.2).trans (List.map_id' _)
  | archive files => rfl

end Store

/-- The shop with its rows in an archive. -/
def Shop.archived (shop : Shop) : Shop := { shop with store := shop.store.archived }

namespace Shop

variable {shop : Shop}

theorem look_archived (plain : shop.store.IsPlain) (what : Look) :
    shop.archived.look what = shop.look what := by
  cases what <;>
    simp [look, archived, Store.fees_archived plain, Store.invoices_archived plain]

/-- An action has the same answer in both shops, and leaves the same change behind. -/
theorem perform_archived (plain : shop.store.IsPlain) (writes : WriteSet) (action : Action) :
    shop.archived.perform writes action = ((shop.perform writes action).1,
      (shop.perform writes action).2.1.archived, (shop.perform writes action).2.2) := by
  cases action with
  | look what => simp only [perform, look_archived plain]
  | readItem id => simp only [perform, archived, Store.item?_archived]
  | readRental id => simp only [perform, archived, Store.rental?_archived]
  | readFee id => simp only [perform, archived, Store.fee?_archived plain]
  | updateItem item =>
      simp only [perform]
      cases writes.stageItem item <;> rfl
  | updateRental rental =>
      simp only [perform]
      cases writes.stageRental rental <;> rfl
  | updateFee fee =>
      simp only [perform, archived, Store.fee?_archived plain]
      cases (shop.store.fee? fee.id).bind (writes.stageFee fee) <;> rfl
  | apply => simp only [perform, archived, Store.apply_archived]
  | placeItem item => simp only [perform, archived, Store.putItem_archived]
  | registerItem item =>
      simp only [perform, archived, Store.item?_archived, Store.putItem_archived]
      rcases shop.store.item? item.id with e | _ | row <;> rfl
  | _ => rfl

end Shop

namespace Session

variable {ρ : Type} {shop : Shop}

theorem goOn?_archived (plain : shop.store.IsPlain) (s : Session ρ) :
    s.goOn? shop.archived =
      (s.goOn? shop).map fun step => (step.1, step.2.1.archived, step.2.2) := by
  obtain ⟨writes, stage⟩ := s
  cases stage with
  | running task =>
      cases task with
      | done result => rfl
      | act action next => simp only [goOn?, Shop.perform_archived plain, Option.map_some]
      | acquire key next =>
          simp only [goOn?]
          split <;> rfl
  | waiting ticket deadline next =>
      simp only [goOn?, Option.map_map]
      rfl

theorem giveUp?_archived (s : Session ρ) :
    s.giveUp? shop.archived =
      (s.giveUp? shop).map fun step => (step.1, step.2.1.archived, step.2.2) := by
  obtain ⟨writes, stage⟩ := s
  cases stage <;> rfl

theorem drop_archived (s : Session ρ) : s.drop shop.archived = (s.drop shop).archived := by
  obtain ⟨writes, stage⟩ := s
  cases stage <;> rfl

end Session

namespace Floor

variable {ν ρ : Type} [DecidableEq ν] {f : Floor ν ρ}

/-- The twin of a floor with its rows in an archive. -/
def archived (f : Floor ν ρ) : Floor ν ρ := { f with shop := f.shop.archived }

/-- A move is possible for both twins or for neither, and makes the same happen. -/
theorem move?_archived (plain : f.shop.store.IsPlain) (m : Move ν ρ) :
    f.archived.move? m = (f.move? m).map fun step => (step.1, step.2.archived) := by
  cases m with
  | comes v task =>
      simp only [move?, archived]
      cases f.sessions v <;> rfl
  | goesOn v =>
      simp only [move?, archived]
      cases f.sessions v with
      | none => rfl
      | some s =>
          simp only [Option.bind_some, s.goOn?_archived plain, Option.map_map]
          rfl
  | givesUp v =>
      simp only [move?, archived]
      cases f.sessions v with
      | none => rfl
      | some s =>
          simp only [Option.bind_some, s.giveUp?_archived, Option.map_map]
          rfl
  | leaves v =>
      simp only [move?, archived]
      cases f.sessions v with
      | none => rfl
      | some s =>
          simp only [Option.map_some, s.drop_archived]
          rfl
  | turns o => rfl

/-- A schedule that comes by no negative zero is followed in the same way on both twins. -/
theorem follow_archived {ms : List (Move ν ρ)} (plain : ∀ store ∈ f.stores ms, store.IsPlain) :
    f.archived.follow ms = ((f.follow ms).1, (f.follow ms).2.archived) ∧
      f.archived.stores ms = (f.stores ms).map Store.archived := by
  induction ms generalizing f with
  | nil => exact ⟨rfl, rfl⟩
  | cons m ms ih =>
      rw [stores, List.forall_mem_cons] at plain
      have moved := f.move?_archived plain.1 m
      rw [follow, follow, stores, stores, moved, List.map_cons]
      cases hmove : f.move? m with
      | none =>
          rw [hmove] at plain
          obtain ⟨events, stores⟩ := ih plain.2
          exact ⟨events, congrArg _ stores⟩
      | some step =>
          rw [hmove] at plain
          obtain ⟨events, stores⟩ := ih plain.2
          exact ⟨by simp only [Option.map_some, events], congrArg _ stores⟩

end Floor

end RentalDesk
