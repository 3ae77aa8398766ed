import RentalDesk.House
import RentalDesk.Proofs.Alone
import RentalDesk.Proofs.Keeping
import RentalDesk.Proofs.Plain.Listings

/-!
# Working undisturbed

What a task does in a shop where nobody else is at work. Every row is granted at once and nothing
changes between two steps, so the task is followed by its position alone: the rows and identifiers
of the desk, the medium that keeps the rows, the time, and what the task has staged and may write.
There is one rule for each store call; a transaction comes to merging what its body has staged.
-/

namespace RentalDesk

variable {α : Type}

/-- Locks on which nobody has a claim can be anybody's. -/
theorem RowLocks.Serves.vacant {ν μ : Type} {l : RowLocks} {claims : ν → Claims}
    (h : l.Serves claims) (vacant : ∀ v, claims v = .none) : l.Serves fun _ : μ => .none where
  entry _ _ ht := nomatch ht
  holder id n := by
    rw [h.holder id n]
    simp [vacant, Claims.none]
  queue id n := by
    rw [h.queue id n]
    simp [vacant, Claims.none]
  queue_nodup := h.queue_nodup
  number_lt _ _ ht := nomatch ht
  number_inj _ _ _ _ ht := nomatch ht
  waiting_not_held _ _ ht := nomatch ht
  entry_lt := h.entry_lt
  entry_inj := h.entry_inj

/-- A shop where nobody but the transaction with the given write set is at work and where no call
is made to fail. -/
structure Shop.Quiet (shop : Shop) (writes : WriteSet) : Prop where
  calm : shop.failing = []
  locks : shop.locks.Serves fun _ : Unit => ⟨writes.held, none⟩

/-- Every action is done on the shop as the task left it, and every row is granted. -/
def undisturbed : Discipline (Shop × WriteSet) where
  permits _ _ := True
  answers s action answer s' := (answer, s') = s.1.perform s.2 action
  grants s key granted s' := granted = true ∧ (s.2.holds key ∧ s' = s ∨
    ∃ locks ticket, ticket.key = key ∧ s' = ({ s.1 with locks }, s.2.hold ticket))

/-- In a quiet shop a task is done without a wait, and the shop is quiet afterwards. -/
theorem Shop.Quiet.advance {shop : Shop} {writes : WriteSet} (quiet : shop.Quiet writes)
    {task : Task α} {ends : α → Shop × WriteSet → Prop}
    (follows : task.Follows undisturbed (shop, writes) ends) :
    ∃ shop' writes' a,
      Session.advance shop writes task = (shop', ⟨writes', .running (.done a)⟩) ∧
        ends a (shop', writes') ∧ shop'.Quiet writes' := by
  induction task generalizing shop writes with
  | done a => exact ⟨shop, writes, a, rfl, follows, quiet⟩
  | act action next ih =>
      refine ih _ ⟨?_, ?_⟩ (follows.2 _ _ rfl)
      · exact (shop.perform_clock writes action).2.trans quiet.calm
      · let session : Session α := ⟨writes, .running (.act action next)⟩
        exact Solitary.serves (s := session) quiet.locks .act
  | acquire key next ih =>
      rw [Session.advance]
      split
      · next holds => exact ih _ quiet (follows true _ ⟨rfl, .inl ⟨holds, rfl⟩⟩)
      · next holds =>
          obtain ⟨locks, hgrant, htake⟩ := Solitary.granted quiet.locks holds
          simp only [hgrant]
          exact ih true ⟨quiet.calm, htake⟩
            (follows true _ ⟨rfl, .inr ⟨locks, _, rfl, rfl⟩⟩)

/-- A desk runs a task that has no need to wait by advancing it once. -/
theorem Shop.run_eq {shop shop' : Shop} {task : Task α} {a : α}
    (h : Session.advance shop .empty task = (shop', ⟨.empty, .running (.done a)⟩)) :
    shop.run task = (shop', some a) := by
  let ended : Desk Unit α := ⟨shop', [((), ⟨.empty, .running (.done a)⟩)]⟩
  have hsettle : ((Desk.ofShop shop : Desk Unit α).start () task).settle = ended := by
    cases task with
    | done b =>
        cases h
        rfl
    | act action next =>
        simp [Desk.ofShop, Desk.start, Desk.drop, Desk.session?, Desk.settle, Desk.patience,
          Desk.rounds, Desk.turns, Session.start, Session.turn?, h, ended]
    | acquire key next =>
        simp [Desk.ofShop, Desk.start, Desk.drop, Desk.session?, Desk.settle, Desk.patience,
          Desk.rounds, Desk.turns, Session.start, Session.turn?, h, ended]
  have hjoin : ((Desk.ofShop shop : Desk Unit α).start () task).join () = (ended, some a) := by
    rw [Desk.join, hsettle]
    rfl
  rw [Shop.run, Desk.run, hjoin]
  rfl

/-- Where a task stands: what the desk keeps and on which medium, the time, what the task has
staged, and rows that it may write. -/
structure Position where
  medium : Medium
  desk : PlainDesk
  now : Instant
  staged : Tables
  rows : List RowKey

namespace Position

/-- The position of somebody who has nothing to himself. -/
def idle (medium : Medium) (desk : PlainDesk) (now : Instant) : Position :=
  ⟨medium, desk, now, .empty, []⟩

/-- The position after a rental was inserted. -/
def insertRental (p : Position) (row : NewRental) : Position :=
  { p with
    desk.next.rentals := ⟨p.desk.next.rentals.next + 1⟩
    staged := p.staged.putRental (row.withId p.desk.next.rentals.next) }

def insertFee (p : Position) (row : NewFee) : Position :=
  { p with
    desk.next.fees := ⟨p.desk.next.fees.next + 1⟩
    staged := p.staged.putFee (row.withId p.desk.next.fees.next) }

def insertInvoice (p : Position) (row : NewInvoice) : Position :=
  { p with
    desk.next.invoices := ⟨p.desk.next.invoices.next + 1⟩
    staged := p.staged.putInvoice (row.withId p.desk.next.invoices.next) }

/-- The position that a shop and a write set show. -/
structure Fits (p : Position) (s : Shop × WriteSet) : Prop where
  store : s.1.store = p.desk.tables.keptIn p.medium
  sequences : s.1.sequences = p.desk.next
  clock : s.1.clock = p.now
  calm : s.1.failing = []
  staged : s.2.staged = p.staged
  rows : ∀ key ∈ p.rows, s.2.holds key

/-- What the desk keeps once the staged rows are committed. -/
def committed (p : Position) : PlainDesk :=
  { p.desk with tables := p.desk.tables.merge p.staged }

end Position

/-- The shop shows a plain desk, and nobody has anything to himself. -/
structure Rests (medium : Medium) (desk : PlainDesk) (now : Instant) (s : Shop × WriteSet) :
    Prop where
  fits : (Position.idle medium desk now).Fits s
  writes : s.2 = .empty

namespace Position

variable {p : Position} {s : Shop × WriteSet}

theorem Fits.idle {medium : Medium} {shop : Shop} {desk : PlainDesk}
    (store : shop.store = desk.tables.keptIn medium) (sequences : shop.sequences = desk.next)
    (calm : shop.failing = []) : (Position.idle medium desk shop.clock).Fits (shop, .empty) where
  store := store
  sequences := sequences
  clock := rfl
  calm := calm
  staged := rfl
  rows _ h := absurd h List.not_mem_nil

end Position

namespace Operation

variable {p : Position} {s : Shop × WriteSet} {failed : Error → Shop × WriteSet → Prop}

/-- The operation of somebody undisturbed ends as required. -/
abbrev Ends (x : Operation α) (s : Shop × WriteSet) (ok : α → Shop × WriteSet → Prop)
    (failed : Error → Shop × WriteSet → Prop) : Prop :=
  x.Follows undisturbed s ok failed

theorem ends_perform {action : Action} {ok : action.Answer → Shop × WriteSet → Prop}
    (h : ok (s.1.perform s.2 action).1 (s.1.perform s.2 action).2) :
    (perform action).Ends s ok failed := by
  refine follows_perform.2 ⟨trivial, ?_⟩
  intro answer s' hanswer
  obtain ⟨rfl, rfl⟩ := Prod.mk.inj hanswer
  exact h

theorem ends_fails {call : StoreCall} {ok : Bool → Shop × WriteSet → Prop} (fits : p.Fits s)
    (h : ok false s) : (fails call).Ends s ok failed := by
  refine ends_perform ?_
  change ok (s.1.failing.contains call) s
  rw [fits.calm]
  exact h

theorem ends_checked {call : StoreCall} {x : Operation α} {ok : α → Shop × WriteSet → Prop}
    (fits : p.Fits s) (h : x.Ends s ok failed) : (checked call x).Ends s ok failed :=
  follows_bind.2 (follows_bind.2 (ends_fails fits h))

theorem ends_acquire {key : RowKey} {ok : Unit → Shop × WriteSet → Prop} (fits : p.Fits s)
    (h : ∀ s', { p with rows := key :: p.rows }.Fits s' → ok () s') :
    (acquire key).Ends s ok failed := by
  refine follows_acquire.2 ⟨?_, fun s' hs' => nomatch hs'.1⟩
  rintro _ ⟨-, ⟨holds, rfl⟩ | ⟨locks, ticket, hkey, rfl⟩⟩
  · refine h _ { fits with rows := fun other hother => ?_ }
    rcases List.mem_cons.1 hother with rfl | hother
    · exact holds
    · exact fits.rows other hother
  · refine h _ { fits with rows := fun other hother => ?_ }
    rw [WriteSet.holds_hold]
    rcases List.mem_cons.1 hother with rfl | hother
    · simp [hkey]
    · simp [fits.rows other hother]

theorem ends_now {ok : Instant → Shop × WriteSet → Prop} (fits : p.Fits s) (h : ok p.now s) :
    (perform .now).Ends s ok failed := by
  refine ends_perform ?_
  change ok s.1.clock s
  rwa [fits.clock]

theorem ends_readItem {id : ItemId} {row : Option Item}
    {ok : Except Error (Option Item) → Shop × WriteSet → Prop} (fits : p.Fits s)
    (unstaged : p.staged.items.get? id = none) (hrow : p.desk.tables.items.get? id = row)
    (h : ok (.ok row) s) : (perform (.readItem id)).Ends s ok failed := by
  refine ends_perform ?_
  simpa only [Shop.perform, fits.staged, unstaged, Shop.overlay, fits.store, Tables.item?_keptIn,
    hrow] using h

theorem ends_readRental {id : RentalId} {row : Option Rental}
    {ok : Except Error (Option Rental) → Shop × WriteSet → Prop} (fits : p.Fits s)
    (unstaged : p.staged.rentals.get? id = none) (hrow : p.desk.tables.rentals.get? id = row)
    (h : ok (.ok row) s) : (perform (.readRental id)).Ends s ok failed := by
  refine ends_perform ?_
  simpa only [Shop.perform, fits.staged, unstaged, Shop.overlay, fits.store,
    Tables.rental?_keptIn, hrow] using h

theorem ends_readFee {id : FeeId} {row : Option Fee}
    {ok : Except Error (Option Fee) → Shop × WriteSet → Prop} (fits : p.Fits s)
    (unstaged : p.staged.fees.get? id = none) (hrow : p.desk.tables.fees.get? id = row)
    (h : ok (.ok (row.map p.medium.fee)) s) : (perform (.readFee id)).Ends s ok failed := by
  refine ends_perform ?_
  simpa only [Shop.perform, fits.staged, unstaged, Shop.overlay, fits.store, Tables.fee?_keptIn,
    hrow] using h

theorem ends_look {what : Look} {ok : what.Answer → Shop × WriteSet → Prop}
    {rows : what.Answer} (shows : s.1.look what = .ok rows) (h : ok rows s) :
    (look what).Ends s ok failed := by
  refine follows_bind.2 (ends_perform (follows_ofExcept.2 ?_))
  have hshows : (s.1.perform s.2 (.look what)).1 = .ok rows := shows
  rw [hshows]
  exact h

theorem ends_insertRental {row : NewRental} {ok : Rental → Shop × WriteSet → Prop}
    (fits : p.Fits s)
    (h : ∀ s', (p.insertRental row).Fits s' → ok (row.withId p.desk.next.rentals.next) s') :
    (Transaction.insertRental row).Ends s ok failed := by
  refine ends_perform ?_
  simp only [Shop.perform, IdSequence.draw, fits.sequences]
  refine h _ { fits with sequences := rfl, staged := ?_, rows := fun key hkey => ?_ }
  · exact congrArg (Tables.putRental · (row.withId p.desk.next.rentals.next)) fits.staged
  · simp [fits.rows key hkey]

theorem ends_insertFee {row : NewFee} {ok : Fee → Shop × WriteSet → Prop} (fits : p.Fits s)
    (h : ∀ s', (p.insertFee row).Fits s' → ok (row.withId p.desk.next.fees.next) s') :
    (Transaction.insertFee row).Ends s ok failed := by
  refine ends_perform ?_
  simp only [Shop.perform, IdSequence.draw, fits.sequences]
  refine h _ { fits with sequences := rfl, staged := ?_, rows := fun key hkey => ?_ }
  · exact congrArg (Tables.putFee · (row.withId p.desk.next.fees.next)) fits.staged
  · simp [fits.rows key hkey]

theorem ends_insertInvoice {row : NewInvoice} {ok : Invoice → Shop × WriteSet → Prop}
    (fits : p.Fits s)
    (h : ∀ s', (p.insertInvoice row).Fits s' → ok (row.withId p.desk.next.invoices.next) s') :
    (Transaction.insertInvoice row).Ends s ok failed := by
  refine ends_perform ?_
  simp only [Shop.perform, IdSequence.draw, fits.sequences]
  refine h _ { fits with sequences := rfl, staged := ?_ }
  exact congrArg (Tables.putInvoice · (row.withId p.desk.next.invoices.next)) fits.staged

theorem ends_updateItem {item : Item} {ok : Unit → Shop × WriteSet → Prop} (fits : p.Fits s)
    (writable : .item item.id ∈ p.rows)
    (h : ∀ s', { p with staged := p.staged.putItem item }.Fits s' → ok () s') :
    (Transaction.updateItem item).Ends s ok failed := by
  refine follows_bind.2 (ends_perform ?_)
  have hstaged : s.1.perform s.2 (.updateItem item) =
      (.ok (), s.1, s.2.withStaged (s.2.staged.putItem item)) := by
    rw [Shop.perform, WriteSet.stageItem_eq, if_pos (fits.rows _ writable), Shop.staged]
  rw [hstaged]
  exact h _ { fits with staged := congrArg (·.putItem item) fits.staged }

theorem ends_updateRental {rental : Rental} {ok : Unit → Shop × WriteSet → Prop} (fits : p.Fits s)
    (writable : .rental rental.id ∈ p.rows)
    (h : ∀ s', { p with staged := p.staged.putRental rental }.Fits s' → ok () s') :
    (Transaction.updateRental rental).Ends s ok failed := by
  refine follows_bind.2 (ends_perform ?_)
  have hstaged : s.1.perform s.2 (.updateRental rental) =
      (.ok (), s.1, s.2.withStaged (s.2.staged.putRental rental)) := by
    rw [Shop.perform, WriteSet.stageRental_eq, if_pos (fits.rows _ writable), Shop.staged]
  rw [hstaged]
  exact h _ { fits with staged := congrArg (·.putRental rental) fits.staged }

/-- A fee that is not settled may be settled. -/
theorem ends_updateFee {fee : Fee} {ok : Unit → Shop × WriteSet → Prop} (fits : p.Fits s)
    (writable : .fee fee.id ∈ p.rows) (unstaged : p.staged.fees.get? fee.id = none)
    (keeps : (p.desk.tables.fees.get? fee.id).any (WriteSet.altersSettlement · fee) = false)
    (h : ∀ s', { p with staged := p.staged.putFee fee }.Fits s' → ok () s') :
    (Transaction.updateFee fee).Ends s ok failed := by
  refine follows_bind.2 (ends_perform ?_)
  have hstaged : s.1.perform s.2 (.updateFee fee) =
      (.ok (), s.1, s.2.withStaged (s.2.staged.putFee fee)) := by
    rw [Shop.perform, fits.store, Tables.fee?_keptIn]
    change s.1.staged s.2 (s.2.stageFee fee _) = _
    rw [WriteSet.stageFee_eq, if_pos (fits.rows _ writable), fits.staged, unstaged,
      Option.none_or, Option.any_map]
    simp only [WriteSet.altersSettlement, Medium.settlement_fee] at keeps ⊢
    rw [keeps]
    rfl
  rw [hstaged]
  exact h _ { fits with staged := congrArg (·.putFee fee) fits.staged }

/-- An item is read after it was locked. -/
theorem ends_lockItem {id : ItemId} {row : Option Item} {ok : Option Item → Shop × WriteSet → Prop}
    (fits : p.Fits s) (unstaged : p.staged.items.get? id = none)
    (hrow : p.desk.tables.items.get? id = row)
    (h : ∀ s', { p with rows := .item id :: p.rows }.Fits s' → ok row s') :
    (lockItem id).Ends s ok failed := by
  refine ends_checked fits (follows_bind.2 (ends_fails fits ?_))
  refine follows_bind.2 (follows_bind.2 (ends_acquire fits fun s' fits' => ?_))
  refine follows_bind.2 (ends_readItem fits' unstaged hrow ?_)
  exact follows_ofExcept.2 (h s' fits')

/-- Whoever gives everything back is idle. -/
theorem ends_release {ok : Unit → Shop × WriteSet → Prop} (fits : p.Fits s)
    (h : ∀ s', Rests p.medium p.desk p.now s' → ok () s') :
    (perform .release).Ends s ok failed := by
  refine ends_perform (h _ ⟨{ fits with staged := rfl, rows := ?_ }, rfl⟩)
  exact fun key hkey => absurd hkey List.not_mem_nil

theorem ends_apply {ok : Unit → Shop × WriteSet → Prop} (fits : p.Fits s)
    (h : ∀ s', { p with desk := p.committed }.Fits s' → ok () s') :
    (perform .apply).Ends s ok failed := by
  refine ends_perform (h _ { fits with store := ?_ })
  simp only [Shop.perform, fits.store, fits.staged, Tables.apply_keptIn, Position.committed]

/-- A transaction commits what its body has staged, or else nothing. -/
theorem ends_transaction {body : Operation α} {ok : α → Shop × WriteSet → Prop}
    (fits : p.Fits s)
    (hbody : body.Ends s
      (fun a s' => ∃ p' : Position, p'.Fits s' ∧
        ∀ s'', Rests p'.medium p'.committed p'.now s'' → ok a s'')
      fun e s' => ∃ p' : Position, p'.Fits s' ∧
        ∀ s'', Rests p'.medium p'.desk p'.now s'' → failed e s'') :
    (transaction body).Ends s ok failed := by
  refine follows_bind.2 (follows_bind.2 (ends_fails fits ?_))
  refine follows_bind.2 (follows_lift.2 (follows_run.2 (hbody.mono ?_ ?_)))
  · rintro a s' ⟨p', fits', h⟩
    refine follows_bind.2 (follows_bind.2 (ends_fails fits' ?_))
    refine follows_bind.2 (ends_apply fits' fun applied fits'' => ?_)
    exact ends_release fits'' h
  · rintro e s' ⟨p', fits', h⟩
    refine follows_bind.2 (follows_lift.2 (follows_run.2 (follows_bind.2 (ends_fails fits' ?_))))
    exact follows_bind.2 (ends_release fits' h)

end Operation

end RentalDesk
