import RentalDesk.Operations.Register
import RentalDesk.Proofs.Custody.Basic
import RentalDesk.Proofs.Quiet

/-!
# Rules of custody

One rule for each call that the operations of the desk make of their store. A row that is read under
its lock is known afterwards; what was staged and inserted is in the write set; after a transaction
nothing is in custody. A registration keeps to every policy.
-/

namespace RentalDesk

/-- What is in custody and a row that was read under its lock. -/
def Custody.knowing (c : Custody) (row : Row) : Custody :=
  { c with known := (row.key, some row) :: c.known }

/-- What is in custody, with other writes. -/
def Custody.withWrites (c : Custody) (writes : WriteSet) : Custody := { c with writes }

namespace Operation

variable {α β : Type} {p : Policy} {medium : Medium} {c : Custody} {ok : α → Custody → Prop}
  {failed : Error → Custody → Prop}

/-! ## Single calls -/

theorem permits_passes {action : Action} (passes : action.passes = true)
    (working : c.ended = false) : (p.discipline medium).permits c action := by
  cases action
  case look what => exact working
  case fails call => exact working
  case now => exact working
  all_goals cases passes

theorem answers_passes {action : Action} {answer : action.Answer} {c' : Custody}
    (passes : action.passes = true) (h : (p.discipline medium).answers c action answer c') :
    c' = c := by
  obtain ⟨_, _, _, -, -, -, -, rfl⟩ := h
  cases action
  case look what =>
      cases what
      case item id => cases passes
      all_goals rfl
  case fails call => rfl
  case now => rfl
  all_goals cases passes

theorem keeps_passes {action : Action} {ok : action.Answer → Custody → Prop}
    (passes : action.passes = true) (working : c.ended = false) (h : ∀ answer, ok answer c) :
    (perform action).Follows (p.discipline medium) c ok failed := by
  refine follows_perform.2 ⟨permits_passes passes working, fun answer c' hanswer => ?_⟩
  rw [answers_passes passes hanswer]
  exact h answer

/-- A quiet operation leaves everything as it is. -/
theorem Only.leaves {x : Operation α} (h : x.Only Action.passes) (working : c.ended = false)
    (hok : ∀ a, ok a c) (hfailed : ∀ e, failed e c) :
    x.Follows (p.discipline medium) c ok failed := by
  refine Task.Only.follows h (fun _ passes => permits_passes passes working)
    (fun _ _ _ => answers_passes) fun result => ?_
  cases result with
  | ok a => exact hok a
  | error e => exact hfailed e

theorem quiet_guard (call : StoreCall) : (guard call).Only Action.passes :=
  .guard (fun _ => rfl) call

theorem keeps_checked {call : StoreCall} {x : Operation α} (working : c.ended = false)
    (hfailed : ∀ e, failed e c) (h : x.Follows (p.discipline medium) c ok failed) :
    (checked call x).Follows (p.discipline medium) c ok failed :=
  follows_bind.2 ((quiet_guard call).leaves working (fun _ => h) hfailed)

theorem keeps_acquire {key : RowKey} {ok : Unit → Custody → Prop}
    (free : c.writes.holds key = false)
    (granted : ∀ ticket, ticket.key = key → ok () (c.withWrites (c.writes.hold ticket)))
    (refused : ∀ e, failed e c) :
    (acquire key).Follows (p.discipline medium) c ok failed := by
  refine follows_acquire.2 ⟨?_, ?_⟩
  · rintro _ (⟨holds, rfl⟩ | ⟨ticket, hkey, rfl⟩)
    · rw [free] at holds
      cases holds
    · exact granted ticket hkey
  · rintro _ rfl
    exact refused _

/-- An item that came back is announced. -/
theorem keeps_announce {item : ItemId} {ok : Unit → Custody → Prop} (working : c.ended = false)
    (h : ok () c) : (perform (.announce item)).Follows (p.discipline medium) c ok failed := by
  refine follows_perform.2 ⟨working, ?_⟩
  rintro _ _ ⟨_, _, _, -, -, -, -, rfl⟩
  exact h

/-! ## Rows that are read under their locks -/

theorem learn_found {t : Tables} {key : RowKey} {row : Row}
    (watched : p.watches key.tableName) (locks : c.writes.locks key)
    (hrow : t.row? key = some row) (hkey : row.key = key) :
    p.learn medium t key c = c.knowing row := by
  rw [Policy.learn, if_pos ⟨watched, locks, .inl (by rw [hrow]; rfl)⟩, hrow, Custody.knowing, hkey]

theorem keeps_readItem {id : ItemId} {ok : Except Error (Option Item) → Custody → Prop}
    (working : c.ended = false) (watched : p.watches .items)
    (unstaged : c.writes.staged.items.get? id = none) (locks : c.writes.locks (.item id))
    (found : ∀ item, item.id = id → ok (.ok (some item)) (c.knowing (.item item)))
    (missing : ∀ c', c'.ended = false → ok (.ok none) c') :
    (perform (.readItem id)).Follows (p.discipline medium) c ok failed := by
  refine follows_perform.2 ⟨working, ?_⟩
  rintro _ _ ⟨shop, t, last, store, keyed, -, rfl, rfl⟩
  rw [Shop.perform, unstaged, store, Tables.item?_keptIn, Shop.overlay]
  cases hitem : t.items.get? id with
  | none => exact missing _ (by rw [Policy.after_readItem, Policy.ended_learn, working])
  | some item =>
      have hid := keyed.item_id hitem
      rw [Policy.after_readItem, learn_found watched locks (Tables.row?_item.2 hitem)
        (congrArg RowKey.item hid)]
      exact found item hid

theorem keeps_readRental {id : RentalId} {ok : Except Error (Option Rental) → Custody → Prop}
    (working : c.ended = false) (watched : p.watches .rentals)
    (unstaged : c.writes.staged.rentals.get? id = none) (locks : c.writes.locks (.rental id))
    (found : ∀ rental, rental.id = id → ok (.ok (some rental)) (c.knowing (.rental rental)))
    (missing : ∀ c', c'.ended = false → ok (.ok none) c') :
    (perform (.readRental id)).Follows (p.discipline medium) c ok failed := by
  refine follows_perform.2 ⟨working, ?_⟩
  rintro _ _ ⟨shop, t, last, store, keyed, -, rfl, rfl⟩
  rw [Shop.perform, unstaged, store, Tables.rental?_keptIn, Shop.overlay]
  cases hrental : t.rentals.get? id with
  | none => exact missing _ (by rw [Policy.after_readRental, Policy.ended_learn, working])
  | some rental =>
      have hid := keyed.rental_id hrental
      rw [Policy.after_readRental, learn_found watched locks (Tables.row?_rental.2 hrental)
        (congrArg RowKey.rental hid)]
      exact found rental hid

/-- A fee is known as it is stored, which may differ from how it is read. -/
theorem keeps_readFee {id : FeeId} {ok : Except Error (Option Fee) → Custody → Prop}
    (working : c.ended = false) (watched : p.watches .fees)
    (unstaged : c.writes.staged.fees.get? id = none) (locks : c.writes.locks (.fee id))
    (found : ∀ fee, fee.id = id → ok (.ok (some (medium.fee fee))) (c.knowing (.fee fee)))
    (missing : ∀ c', c'.ended = false → ok (.ok none) c') :
    (perform (.readFee id)).Follows (p.discipline medium) c ok failed := by
  refine follows_perform.2 ⟨working, ?_⟩
  rintro _ _ ⟨shop, t, last, store, keyed, -, rfl, rfl⟩
  rw [Shop.perform, unstaged, store, Tables.fee?_keptIn, Shop.overlay]
  cases hfee : t.fees.get? id with
  | none => exact missing _ (by rw [Policy.after_readFee, Policy.ended_learn, working])
  | some fee =>
      have hid := keyed.fee_id hfee
      rw [Policy.after_readFee, learn_found watched locks (Tables.row?_fee.2 hfee)
        (congrArg RowKey.fee hid)]
      exact found fee hid

/-! ## Rows that are staged -/

theorem keeps_staged {shop : Shop} {result : Except Error WriteSet} {staged : Tables}
    {ok : Unit → Custody → Prop}
    (stages : ∀ w, result = .ok w → w = c.writes.withStaged staged)
    (done : ok () (c.withWrites (c.writes.withStaged staged))) (refused : ∀ e, failed e c) :
    (ofExcept (shop.staged c.writes result).1 : Operation Unit).Follows (p.discipline medium)
      (c.withWrites (shop.staged c.writes result).2.2) ok failed := by
  rw [follows_ofExcept]
  cases result with
  | ok w =>
      obtain rfl := stages w rfl
      exact done
  | error e => exact refused e

theorem keeps_updateItem {item : Item} {ok : Unit → Custody → Prop} (working : c.ended = false)
    (stages : p.stages c (.item item))
    (done : ok () (c.withWrites (c.writes.withStaged (c.writes.staged.putItem item))))
    (refused : ∀ e, failed e c) :
    (Transaction.updateItem item).Follows (p.discipline medium) c ok failed := by
  refine follows_bind.2 (follows_perform.2 ⟨⟨working, stages⟩, ?_⟩)
  rintro _ _ ⟨shop, t, last, -, -, -, rfl, rfl⟩
  exact keeps_staged (fun _ hw => (WriteSet.stageItem_eq_ok hw).2) done refused

theorem keeps_updateRental {rental : Rental} {ok : Unit → Custody → Prop}
    (working : c.ended = false) (stages : p.stages c (.rental rental))
    (done : ok () (c.withWrites (c.writes.withStaged (c.writes.staged.putRental rental))))
    (refused : ∀ e, failed e c) :
    (Transaction.updateRental rental).Follows (p.discipline medium) c ok failed := by
  refine follows_bind.2 (follows_perform.2 ⟨⟨working, stages⟩, ?_⟩)
  rintro _ _ ⟨shop, t, last, -, -, -, rfl, rfl⟩
  exact keeps_staged (fun _ hw => (WriteSet.stageRental_eq_ok hw).2) done refused

theorem keeps_updateFee {fee : Fee} {ok : Unit → Custody → Prop} (working : c.ended = false)
    (stages : p.stages c (.fee fee))
    (done : ok () (c.withWrites (c.writes.withStaged (c.writes.staged.putFee fee))))
    (refused : ∀ e, failed e c) :
    (Transaction.updateFee fee).Follows (p.discipline medium) c ok failed := by
  refine follows_bind.2 (follows_perform.2 ⟨⟨working, stages⟩, ?_⟩)
  rintro _ _ ⟨shop, t, last, -, -, -, rfl, rfl⟩
  refine keeps_staged (fun w hw => ?_) done refused
  obtain ⟨_, -, hw⟩ := Shop.stageFee_of_bind hw
  exact (WriteSet.stageFee_eq_ok hw).2

theorem keeps_insertRental {row : NewRental} {ok : Rental → Custody → Prop}
    (working : c.ended = false)
    (done : ∀ id, ok (row.withId id) (c.withWrites (c.writes.insertRental (row.withId id)))) :
    (Transaction.insertRental row).Follows (p.discipline medium) c ok failed := by
  refine follows_perform.2 ⟨working, ?_⟩
  rintro _ _ ⟨shop, t, last, -, -, -, rfl, rfl⟩
  exact done shop.sequences.rentals.next

theorem keeps_insertFee {row : NewFee} {ok : Fee → Custody → Prop} (working : c.ended = false)
    (done : ∀ id, ok (row.withId id) (c.withWrites (c.writes.insertFee (row.withId id)))) :
    (Transaction.insertFee row).Follows (p.discipline medium) c ok failed := by
  refine follows_perform.2 ⟨working, ?_⟩
  rintro _ _ ⟨shop, t, last, -, -, -, rfl, rfl⟩
  exact done shop.sequences.fees.next

theorem keeps_insertInvoice {row : NewInvoice} {ok : Invoice → Custody → Prop}
    (working : c.ended = false)
    (done : ∀ id, ok (row.withId id) (c.withWrites (c.writes.insertInvoice (row.withId id)))) :
    (Transaction.insertInvoice row).Follows (p.discipline medium) c ok failed := by
  refine follows_perform.2 ⟨working, ?_⟩
  rintro _ _ ⟨shop, t, last, -, -, -, rfl, rfl⟩
  exact done shop.sequences.invoices.next

/-! ## Transactions -/

theorem keeps_release {ok : Unit → Custody → Prop} (h : ok () .start) :
    (perform .release).Follows (p.discipline medium) c ok failed := by
  refine follows_perform.2 ⟨trivial, ?_⟩
  rintro _ _ ⟨_, _, _, -, -, -, -, rfl⟩
  exact h

theorem keeps_discard {ok : Unit → Custody → Prop} (h : ok () .start) :
    (perform .discard).Follows (p.discipline medium) c ok failed := by
  refine follows_perform.2 ⟨trivial, ?_⟩
  rintro _ _ ⟨_, _, _, -, -, -, -, rfl⟩
  exact h

/-- After a commit nothing is in custody, whether it fails or not. -/
theorem keeps_commit (working : c.ended = false) (commits : p.commits c.writes) :
    commit.Follows (p.discipline medium) c (fun _ c' => c' = .start) fun _ c' => c' = .start := by
  refine follows_bind.2 (keeps_passes rfl working fun failing => ?_)
  cases failing with
  | true => exact follows_bind.2 (keeps_release (follows_throw.2 rfl))
  | false =>
      refine follows_bind.2 (follows_perform.2 ⟨⟨working, commits⟩, fun _ _ _ => ?_⟩)
      exact keeps_release rfl

theorem keeps_rollback (working : c.ended = false) :
    rollback.run.Follows (p.discipline medium) c fun _ c' => c' = .start := by
  refine follows_run.2 (follows_bind.2 (keeps_passes rfl working fun failing => ?_))
  refine follows_bind.2 (keeps_release ?_)
  cases failing <;> rfl

/-- The operation starts with nothing in custody, and so it ends. -/
abbrev Keeps (p : Policy) (medium : Medium) (x : Operation α) : Prop :=
  x.Follows (p.discipline medium) .start (fun _ c => c = .start) fun _ c => c = .start

theorem Keeps.bind {x : Operation α} {f : α → Operation β} (hx : x.Keeps p medium)
    (hf : ∀ a, (f a).Keeps p medium) : (x >>= f).Keeps p medium := by
  refine follows_bind.2 (hx.mono ?_ fun _ _ => id)
  rintro a _ rfl
  exact hf a

theorem Only.keeps {x : Operation α} (h : x.Only Action.passes) : x.Keeps p medium :=
  h.leaves rfl (fun _ => rfl) fun _ => rfl

/-- A transaction whose body prepares what may be committed. -/
theorem keeps_transaction {body : Operation α}
    (hbody : body.Follows (p.discipline medium) .start
      (fun _ c => c.ended = false ∧ p.commits c.writes) fun _ c => c.ended = false) :
    (transaction body).Keeps p medium := by
  refine follows_bind.2 ((quiet_guard .begin).leaves rfl (fun _ => ?_) fun _ => rfl)
  refine follows_bind.2 (follows_lift.2 (follows_run.2 (hbody.mono ?_ ?_)))
  · rintro a c ⟨working, commits⟩
    refine follows_bind.2 ((keeps_commit working commits).mono ?_ fun _ _ => id)
    rintro _ _ rfl
    exact follows_pure.2 rfl
  · intro e c working
    refine follows_bind.2 (follows_lift.2 ((keeps_rollback working).mono ?_))
    rintro _ _ rfl
    exact follows_throw.2 rfl

/-! ## Registrations -/

/-- An item that is looked at without its lock does not get known. -/
theorem Keeps.lookItem (id : ItemId) : (Operation.look (.item id)).Keeps p medium := by
  refine follows_bind.2 (follows_perform.2 ⟨rfl, ?_⟩)
  rintro answer _ ⟨shop, t, last, -, -, -, -, rfl⟩
  have hlearn : p.learn medium t (.item id) .start = .start := by
    rw [Policy.learn, if_neg]
    rintro ⟨-, locks, -⟩
    cases locks
  rw [Policy.after_lookItem, hlearn]
  exact (Only.ofExcept answer).keeps

/-- Memory registers an item in one action. An archive does it under the lock of the item, under
which it has seen that there is none. -/
theorem keeps_register (terms : Terms) (item : Item) :
    (terms.register item).Keeps p terms.medium := by
  refine .bind (quiet_guard _).keeps fun _ => ?_
  cases terms.medium with
  | memory =>
      refine follows_bind.2 (follows_perform.2 ⟨⟨rfl, fun _ => rfl⟩, ?_⟩)
      rintro answer _ ⟨shop, t, last, -, -, -, -, rfl⟩
      have hafter : p.after .memory t .start
          (shop.perform Custody.start.writes (.registerItem item)).2.2 (.registerItem item) =
            .start :=
        congrArg Custody.start.withWrites (shop.writes_registerItem Custody.start.writes item)
      rw [hafter]
      exact (Only.ofExcept answer).keeps
  | archive =>
      refine follows_bind.2 (keeps_acquire rfl (fun ticket hkey => ?_) fun _ => rfl)
      refine follows_bind.2 (follows_lift.2 (follows_run.2 (follows_bind.2 ?_)))
      refine follows_perform.2 ⟨rfl, ?_⟩
      rintro _ _ ⟨shop, t, last, store, -, -, rfl, rfl⟩
      rw [Shop.perform, Shop.look, store, Tables.item?_keptIn]
      refine follows_ofExcept.2 ?_
      cases hitem : t.items.get? item.id with
      | some row => exact follows_bind.2 (keeps_discard rfl)
      | none =>
          refine follows_bind.2 (follows_perform.2 ⟨⟨?_, rfl, fun watched => ?_⟩, ?_⟩)
          · exact Policy.ended_learn ..
          · have locks : ((WriteSet.empty).hold ticket).locks (.item item.id) := by simp [hkey]
            have hrow : t.row? (.item item.id) = none := by rw [Tables.row?, hitem, Option.map_none]
            rw [Policy.after_lookItem, Policy.learn, if_pos ⟨watched, locks, .inr ⟨rfl, rfl⟩⟩, hrow]
            exact List.mem_cons_self
          · intro _ _ _
            exact follows_bind.2 (keeps_discard rfl)

/-! ## Rows that are locked -/

/-- An item is locked and read. It may be hidden. -/
theorem keeps_lockItem {id : ItemId} {ok : Option Item → Custody → Prop}
    (working : c.ended = false) (watched : p.watches .items)
    (free : c.writes.holds (.item id) = false)
    (unstaged : c.writes.staged.items.get? id = none)
    (found : ∀ ticket item, ticket.key = .item id → item.id = id →
      ok (some item) ((c.withWrites (c.writes.hold ticket)).knowing (.item item)))
    (missing : ∀ c', c'.ended = false → ok none c')
    (refused : ∀ e c', c'.ended = false → failed e c') :
    (lockItem id).Follows (p.discipline medium) c ok failed := by
  refine keeps_checked working (fun e => refused e c working) ?_
  refine follows_bind.2 (keeps_passes rfl working fun hidden => ?_)
  refine follows_bind.2 (follows_bind.2 (keeps_acquire free (fun ticket hkey => ?_)
    fun e => refused e c working))
  have locks : (c.writes.hold ticket).locks (.item id) := by simp [hkey]
  refine follows_bind.2 (keeps_readItem working watched unstaged locks (fun item hid => ?_)
    fun c' working' => ?_)
  · refine follows_ofExcept.2 (follows_pure.2 ?_)
    cases hidden with
    | true => exact missing _ working
    | false => exact found ticket item hkey hid
  · refine follows_ofExcept.2 (follows_pure.2 ?_)
    cases hidden <;> exact missing c' working'

/-- A fee and its rental are locked and read, the rental after the fee. -/
theorem keeps_lockFee {id : FeeId} {ok : Option (Fee × Rental) → Custody → Prop}
    (hfees : p.watches .fees) (hrentals : p.watches .rentals)
    (found : ∀ first second fee rental, first.key = .fee id → second.key = .rental fee.rentalId →
      fee.id = id → rental.id = fee.rentalId → ok (some (medium.fee fee, rental))
        ⟨(WriteSet.empty.hold first).hold second,
          [(.rental rental.id, some (.rental rental)), (.fee fee.id, some (.fee fee))], false⟩)
    (missing : ∀ c', c'.ended = false → ok none c')
    (refused : ∀ e c', c'.ended = false → failed e c') :
    (Transaction.lockFee id).Follows (p.discipline medium) .start ok failed := by
  refine follows_bind.2 (keeps_acquire rfl (fun first hfirst => ?_) fun e => refused e _ rfl)
  refine follows_bind.2 (keeps_readFee rfl hfees rfl (by simp [Custody.withWrites, hfirst])
    (fun fee hfee => follows_bind.2 (follows_ofExcept.2 ?_)) fun c' working => ?_)
  · refine follows_bind.2 (keeps_acquire ?_ (fun second hsecond => ?_) fun e => refused e _ rfl)
    · simp [Custody.withWrites, Custody.knowing, hfirst, Custody.start]
    rw [Medium.rentalId_fee] at hsecond ⊢
    refine follows_bind.2 (keeps_readRental rfl hrentals rfl ?_ (fun rental hrental => ?_)
      fun c' working => ?_)
    · simp [Custody.withWrites, hsecond]
    · exact follows_bind.2 (follows_ofExcept.2 (follows_pure.2
        (found first second fee rental hfirst hsecond hfee hrental)))
    · exact follows_bind.2 (follows_ofExcept.2 (follows_throw.2 (refused _ c' working)))
  · exact follows_bind.2 (follows_ofExcept.2 (follows_pure.2 (missing c' working)))

end Operation

/-- The task keeps to the policy, and leaves nothing in custody. -/
abbrev Task.Keeps {α : Type} (p : Policy) (medium : Medium) (task : Task α) : Prop :=
  task.Follows (p.discipline medium) .start fun _ c => c = .start

theorem Operation.Keeps.answered {α β : Type} {p : Policy} {medium : Medium} {x : Operation α}
    (h : x.Keeps p medium) (answer : Except Error α → β) :
    Task.Keeps p medium (x.run >>= fun result => pure (answer result)) := by
  refine Task.follows_bind.2 (follows_run.2 (h.mono ?_ ?_))
  · rintro a _ rfl
    exact Task.follows_pure.2 rfl
  · rintro e _ rfl
    exact Task.follows_pure.2 rfl

end RentalDesk
