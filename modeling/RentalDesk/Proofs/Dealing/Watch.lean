import RentalDesk.Proofs.Custody.Services

/-!
# Watching those who are at work

A policy says how each row goes on by itself. What a service of the desk commits has more to it: the
rows belong together, they belong to the renter on whose behalf the service is done, and they bear
the time that was read on the clock while the rows they go on from were known. The watch over
somebody at work is his custody together with his last reading and his renter. `dealing` is the
discipline of those who commit nothing but what `Watch.Prepared` lists.

Most calls of a service only work in a transaction: they neither read the clock nor end it. For
them the rules of custody are enough: `Task.Asks.deals` lifts what was shown of their custody to the
watch.
-/

namespace RentalDesk

variable {α β : Type}

/-! ## What a task asks for -/

/-- All actions that the task asks for are good. It may ask for rows. -/
def Task.Asks (good : Action → Bool) : Task α → Prop
  | .done _ => True
  | .act action next => good action = true ∧ ∀ answer, (next answer).Asks good
  | .acquire _ next => ∀ granted, (next granted).Asks good

namespace Task

variable {good better : Action → Bool}

theorem Asks.mono {t : Task α} (h : t.Asks good)
    (imp : ∀ action, good action = true → better action = true) : t.Asks better := by
  induction t with
  | done a => trivial
  | act action next ih => exact ⟨imp _ h.1, fun answer => ih answer (h.2 answer)⟩
  | acquire key next ih => exact fun granted => ih granted (h granted)

theorem Asks.bind {t : Task α} {f : α → Task β} (h : t.Asks good) (hf : ∀ a, (f a).Asks good) :
    (t >>= f).Asks good := by
  change (t.bind f).Asks good
  induction t with
  | done a => exact hf a
  | act action next ih => exact ⟨h.1, fun answer => ih answer (h.2 answer)⟩
  | acquire key next ih => exact fun granted => ih granted (h granted)

theorem Only.asks {t : Task α} (h : t.Only good) : t.Asks good := by
  induction t with
  | done a => trivial
  | act action next ih => exact ⟨h.1, fun answer => ih answer (h.2 answer)⟩
  | acquire key next ih => exact h.elim

end Task

/-- The action is neither a reading of the clock nor the end of a transaction. -/
def Action.still : Action → Bool
  | .now | .apply | .placeItem _ | .release | .discard => false
  | _ => true

/-- The action only looks, or stages and inserts rows. -/
def Action.works : Action → Bool
  | .fails _ | .look _ | .readItem _ | .readRental _ | .readFee _ | .insertRental _ | .insertFee _
  | .insertInvoice _ | .updateItem _ | .updateRental _ | .updateFee _ => true
  | _ => false

/-- The action does not commit what a transaction has staged. -/
def Action.commitsNothing : Action → Bool
  | .apply => false
  | _ => true

/-- What is done to register the item, besides asking for its row. -/
def Action.registers (item : Item) : Action → Bool
  | .fails _ | .look _ | .discard => true
  | .registerItem row | .placeItem row => row = item
  | _ => false

theorem commitsNothing_of_registers {item : Item} (action : Action)
    (registers : action.registers item = true) : action.commitsNothing = true := by
  cases action <;> first | rfl | cases registers

theorem still_of_works (action : Action) (works : action.works = true) : action.still = true := by
  cases action <;> first | rfl | cases works

theorem commitsNothing_of_still (action : Action) (still : action.still = true) :
    action.commitsNothing = true := by
  cases action <;> first | rfl | cases still

theorem commitsNothing_of_works (action : Action) (works : action.works = true) :
    action.commitsNothing = true := commitsNothing_of_still action (still_of_works action works)

theorem commitsNothing_of_passes (action : Action) (passes : action.passes = true) :
    action.commitsNothing = true := by
  cases action <;> first | rfl | cases passes

namespace Operation

variable {good : Action → Bool}

/-- All actions that the operation asks for are good. It may ask for rows. -/
abbrev Asks (good : Action → Bool) (x : Operation α) : Prop := Task.Asks good x.run

theorem Asks.bind {x : Operation α} {f : α → Operation β} (h : x.Asks good)
    (hf : ∀ a, (f a).Asks good) : (x >>= f).Asks good := by
  rw [Asks, ExceptT.run_bind]
  refine Task.Asks.bind h fun result => ?_
  cases result with
  | ok a => exact hf a
  | error e => trivial

theorem Asks.pure (a : α) : (Pure.pure a : Operation α).Asks good := trivial

theorem Asks.throw (e : Error) : (MonadExcept.throw e : Operation α).Asks good := trivial

/-- What follows on an error is not asked for. -/
theorem Asks.throw_bind (e : Error) (f : α → Operation β) :
    ((MonadExcept.throw e : Operation α) >>= f).Asks good := trivial

theorem Asks.ofExcept (result : Except Error α) :
    (MonadExcept.ofExcept result : Operation α).Asks good := by
  cases result <;> trivial

theorem Asks.perform {action : Action} (h : good action = true) :
    (Operation.perform action).Asks good := ⟨h, fun _ => trivial⟩

theorem Asks.acquire (key : RowKey) : (Operation.acquire key).Asks good := by
  intro granted
  cases granted <;> trivial

theorem Asks.lift {t : Task α} (h : t.Asks good) : Asks good (ExceptT.lift t : Operation α) := by
  rw [Asks, ExceptT.run_lift]
  exact Task.Asks.bind h fun _ => trivial

theorem Asks.look {what : Look} (h : good (.look what) = true) :
    (Operation.look what).Asks good := .bind (.perform h) fun answer => .ofExcept answer

theorem Asks.checked (asks : ∀ call, good (.fails call) = true) {call : StoreCall}
    {x : Operation α} (h : x.Asks good) : (checked call x).Asks good :=
  .bind (Task.Only.asks (Only.guard asks call)) fun _ => h

/-! ## Work in a transaction -/

theorem works_lockItem (id : ItemId) : (lockItem id).Asks Action.works := by
  refine .checked (fun _ => rfl) (.bind (.perform rfl) fun hidden => ?_)
  refine .bind (.bind (.acquire _) fun _ => .bind (.perform rfl) fun _ => .ofExcept _) fun _ => ?_
  exact .pure _

theorem works_lockFee (id : FeeId) : (Transaction.lockFee id).Asks Action.works := by
  refine .bind (.acquire _) fun _ => .bind (.perform rfl) fun found =>
    .bind (.ofExcept found) fun fee => ?_
  cases fee with
  | none => exact .pure _
  | some fee =>
      refine .bind (.acquire _) fun _ => .bind (.perform rfl) fun found =>
        .bind (.ofExcept found) fun rental => ?_
      cases rental with
      | none => exact .throw _
      | some rental => exact .pure _

theorem works_updateItem (item : Item) : (Transaction.updateItem item).Asks Action.works :=
  .bind (.perform rfl) fun result => .ofExcept result

theorem works_updateRental (rental : Rental) :
    (Transaction.updateRental rental).Asks Action.works :=
  .bind (.perform rfl) fun result => .ofExcept result

theorem works_updateFee (fee : Fee) : (Transaction.updateFee fee).Asks Action.works :=
  .bind (.perform rfl) fun result => .ofExcept result

theorem works_closeRental (terms : Terms) (fee : Fee) (rental : Rental) (now : Instant) :
    (terms.closeRental fee rental now).Asks Action.works := by
  refine .bind (works_lockItem _) fun found => ?_
  cases found with
  | none => exact .throw _
  | some item =>
      refine .bind (.ofExcept _) fun amount => ?_
      refine .bind (.checked (fun _ => rfl) (works_updateRental _)) fun _ => ?_
      exact .bind (.checked (fun _ => rfl) (works_updateItem _)) fun _ => .pure _

theorem works_settle (fee : Fee) (renter : RenterId) (now : Instant) :
    (Terms.settle fee renter now).Asks Action.works := by
  refine .bind (.checked (fun _ => rfl) (.perform rfl)) fun invoice => ?_
  exact .bind (.checked (fun _ => rfl) (works_updateFee _)) fun _ => .pure _

theorem works_isKnown (id : ItemId) : (isKnown id).Asks Action.works := by
  refine .bind (.lift (Asks.checked (fun _ => rfl) (.look rfl))) fun found => ?_
  cases found with
  | ok item => exact .pure _
  | error e => exact .pure _

theorem asks_register (terms : Terms) (item : Item) :
    (terms.register item).Asks (Action.registers item) := by
  have same : decide (item = item) = true := decide_eq_true rfl
  refine .checked (fun _ => rfl) ?_
  cases terms.medium with
  | memory => exact .bind (.perform same) fun result => .ofExcept result
  | archive =>
      refine .bind (.acquire _) fun _ => .bind (.lift (Asks.look rfl)) fun found => ?_
      match found with
      | .ok none => exact .bind (.perform same) fun _ => .bind (.perform rfl) fun _ => .pure _
      | .ok (some _) => exact .bind (.perform rfl) fun _ => .pure _
      | .error e => exact .bind (.perform rfl) fun _ => .throw e

end Operation

/-! ## Watches -/

/-- A reading of the clock, with the rows that were known at that time. -/
structure Moment where
  now : Instant
  known : List (RowKey × Option Row)

/-- What is to be seen of somebody at work: what he has in custody, when he has read the clock, if
he has done so in this transaction, and on whose behalf he works. -/
structure Watch where
  custody : Custody
  moment? : Option Moment
  renter? : Option RenterId

namespace Watch

/-- Nothing was done yet. -/
def start (renter? : Option RenterId) : Watch := ⟨.start, none, renter?⟩

/-- The watch over somebody who has something else in custody now. -/
def hand (w : Watch) (custody : Custody) : Watch := { w with custody }

/-- The watch after an action that was answered and leaves the given custody. -/
def after (w : Watch) : (action : Action) → action.Answer → Custody → Watch
  | .now, now, custody => ⟨custody, some ⟨now, custody.known⟩, w.renter?⟩
  | .apply, _, custody | .placeItem _, _, custody | .release, _, custody
  | .discard, _, custody => ⟨custody, none, w.renter?⟩
  | _, _, custody => w.hand custody

@[simp] theorem custody_after (w : Watch) (action : Action) (answer : action.Answer)
    (custody : Custody) : (w.after action answer custody).custody = custody := by
  cases action <;> rfl

@[simp] theorem renter?_after (w : Watch) (action : Action) (answer : action.Answer)
    (custody : Custody) : (w.after action answer custody).renter? = w.renter? := by
  cases action <;> rfl

theorem after_still (w : Watch) {action : Action} (still : action.still = true)
    (answer : action.Answer) (custody : Custody) :
    w.after action answer custody = w.hand custody := by
  cases action
  case now => cases still
  case apply => cases still
  case placeItem => cases still
  case release => cases still
  case discard => cases still
  all_goals rfl

/-- The row was known when the clock was read, and is known still. -/
def Knows (w : Watch) (known : List (RowKey × Option Row)) (row : Row) : Prop :=
  (row.key, some row) ∈ known ∧ (row.key, some row) ∈ w.custody.known

/-- What is staged can be committed for a request that is then answered by the reply: an item is
lent, or a fee is settled, and if the rental of the fee is open, it is closed by that. The
circumstances are the prices of the desk, the last reading of the clock, and the identifiers that
were drawn. -/
inductive Prepared (terms : Terms) (w : Watch) : Command → Reply → Prop
  | lent {c : Circumstances} {known : List (RowKey × Option Row)} {renter : RenterId} {item : Item}
      (prices : c.tariff = terms.tariff) (moment : w.moment? = some ⟨c.now, known⟩)
      (behalf : w.renter? = some renter) (found : w.Knows known (.item item))
      (available : item.available = true)
      (rentalDrawn : w.custody.writes.drew .rentals (c.ids.next .rentals))
      (feeDrawn : w.custody.writes.drew .fees (c.ids.next .fees))
      (staged : w.custody.writes.staged =
        Tables.empty.lend item (c.rental renter item.id) c.fee) :
      Prepared terms w (.rent item.id renter) (.rent .ok c.fee.amount)
  | returned {c : Circumstances} {known : List (RowKey × Option Row)} {fee : Fee} {rental : Rental}
      {item : Item} {amount : Decimal} (prices : c.tariff = terms.tariff)
      (moment : w.moment? = some ⟨c.now, known⟩) (behalf : w.renter? = some rental.renterId)
      (owed : w.Knows known (.fee fee)) (unsettled : fee.isSettled = false)
      (lent : w.Knows known (.rental rental)) (of : rental.id = fee.rentalId)
      (still : rental.isOpen = true)
      (found : (.item item.id, some (.item item)) ∈ w.custody.known)
      (home : item.id = rental.itemId)
      (accrued : terms.tariff.accrued (terms.medium.fee fee).amount rental.rentedAt c.now =
        .ok amount)
      (drawn : w.custody.writes.drew .invoices (c.ids.next .invoices))
      (staged : w.custody.writes.staged = (Tables.empty.close item rental c.now).settle
        (c.finalFee (terms.medium.fee fee) rental amount) (c.invoice rental.renterId amount)) :
      Prepared terms w (.pay fee.id rental.renterId) (.pay .settled amount)
  | paid {c : Circumstances} {known : List (RowKey × Option Row)} {fee : Fee} {rental : Rental}
      (prices : c.tariff = terms.tariff) (moment : w.moment? = some ⟨c.now, known⟩)
      (behalf : w.renter? = some rental.renterId) (owed : w.Knows known (.fee fee))
      (unsettled : fee.isSettled = false) (lent : w.Knows known (.rental rental))
      (of : rental.id = fee.rentalId) (closed : rental.isOpen = false)
      (drawn : w.custody.writes.drew .invoices (c.ids.next .invoices))
      (staged : w.custody.writes.staged = Tables.empty.settle (terms.medium.fee fee)
        (c.invoice rental.renterId (terms.medium.fee fee).amount)) :
      Prepared terms w (.pay fee.id rental.renterId) (.pay .settled (terms.medium.fee fee).amount)

/-- What is prepared alters few of the rows that are there. -/
theorem Prepared.modest {terms : Terms} {w : Watch} {command : Command} {reply : Reply}
    (h : w.Prepared terms command reply) : w.custody.writes.Modest := by
  cases h with
  | @lent c _ renter item _ _ _ _ _ rentalDrawn feeDrawn staged =>
      refine ⟨item.id, 0, 0, fun key row hrow => ?_⟩
      have hrental := List.contains_iff_mem.1 rentalDrawn
      have hfee := List.contains_iff_mem.1 feeDrawn
      simp only [staged, Tables.lend, Tables.row?_putFee, Tables.row?_putRental,
        Tables.row?_putItem, Tables.row?_empty] at hrow
      split at hrow
      · next hkey => exact .inl (hkey ▸ hfee)
      split at hrow
      · next hkey => exact .inl (hkey ▸ hrental)
      split at hrow
      · next hkey => exact .inr (.inl hkey)
      · cases hrow
  | @returned _ _ fee rental item _ _ _ _ _ _ _ _ _ _ _ _ _ staged =>
      refine ⟨item.id, rental.id, fee.id, fun key row hrow => ?_⟩
      simp only [staged, Tables.settle, Tables.close, Tables.row?_putFee, Tables.row?_putInvoice,
        Tables.row?_putItem, Tables.row?_putRental, Tables.row?_empty,
        Circumstances.finalFee, Medium.id_fee] at hrow
      grind
  | @paid _ _ fee rental _ _ _ _ _ _ _ _ _ staged =>
      refine ⟨0, 0, fee.id, fun key row hrow => ?_⟩
      simp only [staged, Tables.settle, Tables.row?_putFee, Tables.row?_putInvoice,
        Tables.row?_empty, Medium.id_fee] at hrow
      grind

end Watch

/-- The discipline of those who keep to the policy of the desk and commit nothing that is not
prepared. -/
def dealing (terms : Terms) : Discipline Watch where
  permits w action := (Policy.history.discipline terms.medium).permits w.custody action ∧
    (action = .apply → ∃ command reply, w.Prepared terms command reply)
  answers w action answer w' := ∃ c,
    (Policy.history.discipline terms.medium).answers w.custody action answer c ∧
      w' = w.after action answer c
  grants w key granted w' := ∃ c,
    (Policy.history.discipline terms.medium).grants w.custody key granted c ∧ w' = w.hand c

/-! ## From custody to the watch -/

section

variable {terms : Terms} {w : Watch}

/-- What was shown of the custody of a task holds of the watch over it, if the task only works in
a transaction. -/
theorem Task.Asks.deals {t : Task α} {ends : α → Watch → Prop} (h : t.Asks Action.works)
    (follows : t.Follows (Policy.history.discipline terms.medium) w.custody
      fun a c => ends a (w.hand c)) : t.Follows (dealing terms) w ends := by
  induction t generalizing w with
  | done a => exact follows
  | act action next ih =>
      refine ⟨⟨follows.1, ?_⟩, ?_⟩
      · rintro rfl
        cases h.1
      · rintro answer _ ⟨c, answers, rfl⟩
        rw [w.after_still (still_of_works action h.1)]
        exact ih answer (h.2 answer) (follows.2 answer c answers)
  | acquire key next ih =>
      rintro granted _ ⟨c, grants, rfl⟩
      exact ih granted (h granted) (follows granted c grants)

/-- A task that commits nothing may do whatever the policy permits. -/
theorem Task.Asks.idles {t : Task α} {ends : α → Custody → Prop}
    (h : t.Asks Action.commitsNothing)
    (follows : t.Follows (Policy.history.discipline terms.medium) w.custody ends) :
    t.Follows (dealing terms) w fun a w' => ends a w'.custody ∧ w'.renter? = w.renter? := by
  induction t generalizing w with
  | done a => exact ⟨follows, rfl⟩
  | act action next ih =>
      refine ⟨⟨follows.1, ?_⟩, ?_⟩
      · rintro rfl
        cases h.1
      · rintro answer _ ⟨c, answers, rfl⟩
        have rest := follows.2 answer c answers
        rw [← w.custody_after action answer c] at rest
        rw [← w.renter?_after action answer c]
        exact ih answer (h.2 answer) rest
  | acquire key next ih =>
      rintro granted _ ⟨c, grants, rfl⟩
      exact ih granted (h granted) (follows granted c grants)

namespace Operation

variable {ok : α → Watch → Prop} {failed : Error → Watch → Prop}

theorem Asks.deals {x : Operation α} (h : x.Asks Action.works)
    (follows : x.Follows (Policy.history.discipline terms.medium) w.custody
      (fun a c => ok a (w.hand c)) fun e c => failed e (w.hand c)) :
    x.Follows (dealing terms) w ok failed := by
  refine Task.Asks.deals h (Task.Follows.mono follows fun result c hend => ?_)
  cases result <;> exact hend

/-- The clock is read, and what is known now was known at that time. -/
theorem deals_now {ok : Instant → Watch → Prop} (working : w.custody.ended = false)
    (h : ∀ now, ok now { w with moment? := some ⟨now, w.custody.known⟩ }) :
    (perform .now).Follows (dealing terms) w ok failed := by
  refine follows_perform.2 ⟨⟨working, nofun⟩, ?_⟩
  rintro now _ ⟨c, answers, rfl⟩
  rw [answers_passes rfl answers]
  exact h now

theorem deals_fails {call : StoreCall} {ok : Bool → Watch → Prop}
    (working : w.custody.ended = false) (h : ∀ failing, ok failing w) :
    (fails call).Follows (dealing terms) w ok failed :=
  Asks.deals (.perform rfl) (keeps_passes rfl working h)

/-! ## Transactions -/

/-- Nothing is in custody, and the renter is the one given. -/
def Rests (renter? : Option RenterId) (w : Watch) : Prop :=
  w.custody = .start ∧ w.renter? = renter?

theorem deals_release {ok : Unit → Watch → Prop} (h : ok () (.start w.renter?)) :
    (perform .release).Follows (dealing terms) w ok failed := by
  refine follows_perform.2 ⟨⟨trivial, nofun⟩, ?_⟩
  rintro _ _ ⟨_, ⟨_, _, _, -, -, -, -, rfl⟩, rfl⟩
  exact h

theorem deals_commit {command : Command} {reply : Reply} (working : w.custody.ended = false)
    (prepared : w.Prepared terms command reply) :
    commit.Follows (dealing terms) w (fun _ => Rests w.renter?) fun _ => Rests w.renter? := by
  refine follows_bind.2 (deals_fails working fun failing => ?_)
  cases failing with
  | true => exact follows_bind.2 (deals_release (follows_throw.2 ⟨rfl, rfl⟩))
  | false =>
      have permits := And.intro working prepared.modest
      refine follows_bind.2 (follows_perform.2 ⟨⟨permits, fun _ => ⟨_, _, prepared⟩⟩, ?_⟩)
      rintro _ _ ⟨c, -, rfl⟩
      exact deals_release ⟨rfl, rfl⟩

theorem deals_rollback (working : w.custody.ended = false) :
    rollback.run.Follows (dealing terms) w fun _ => Rests w.renter? := by
  refine follows_run.2 (follows_bind.2 (deals_fails working fun failing => ?_))
  refine follows_bind.2 (deals_release ?_)
  cases failing <;> exact ⟨rfl, rfl⟩

/-- The operation starts with nothing in custody, and so it ends, on behalf of the same renter. -/
def Deals (terms : Terms) (renter? : Option RenterId) (x : Operation α) : Prop :=
  ∀ w, Rests renter? w →
    x.Follows (dealing terms) w (fun _ => Rests renter?) fun _ => Rests renter?

variable {renter? : Option RenterId}

theorem Deals.bind {x : Operation α} {f : α → Operation β} (hx : x.Deals terms renter?)
    (hf : ∀ a, (f a).Deals terms renter?) : (x >>= f).Deals terms renter? :=
  fun w rests => follows_bind.2 ((hx w rests).mono (fun a w' => hf a w') fun _ _ => id)

/-- What follows on an error is not done. -/
theorem Deals.throw_bind (e : Error) (f : α → Operation β) :
    ((MonadExcept.throw e : Operation α) >>= f).Deals terms renter? :=
  fun _ rests => follows_bind.2 (follows_throw.2 rests)

/-- An operation that commits nothing and keeps to the policy. -/
theorem Keeps.deals {x : Operation α} (keeps : x.Keeps .history terms.medium)
    (h : x.Asks Action.commitsNothing) : x.Deals terms renter? := by
  rintro w ⟨rests, rfl⟩
  have keeps : x.Follows (Policy.history.discipline terms.medium) w.custody
      (fun _ c => c = .start) fun _ c => c = .start := by
    rw [rests]
    exact keeps
  refine (Task.Asks.idles h keeps).mono fun result w' hend => ?_
  cases result <;> exact hend

theorem Only.deals {x : Operation α} (h : x.Only Action.passes) : x.Deals terms renter? :=
  Keeps.deals h.keeps ((Task.Only.asks h).mono commitsNothing_of_passes)

theorem deals_announce (item : ItemId) : (perform (.announce item)).Deals terms renter? :=
  Keeps.deals (keeps_announce rfl rfl) (.perform rfl)

/-- The operation prepares what is committed for a request, or fails. -/
def Prepares (terms : Terms) (renter? : Option RenterId) (command : Command) (reply : α → Reply)
    (x : Operation α) : Prop :=
  ∀ w, Rests renter? w → x.Follows (dealing terms) w
    (fun a w' => w'.custody.ended = false ∧ w'.renter? = renter? ∧
      w'.Prepared terms command (reply a))
    fun _ w' => w'.custody.ended = false ∧ w'.renter? = renter?

/-- A transaction whose body prepares what is committed. -/
theorem deals_transaction {body : Operation α} {command : Command} {reply : α → Reply}
    (hbody : body.Prepares terms renter? command reply) :
    (transaction body).Deals terms renter? := by
  intro w rests
  have working : w.custody.ended = false := by rw [rests.1]; rfl
  refine follows_bind.2 (Asks.deals (Task.Only.asks (Only.guard (fun _ => rfl) .begin))
    ((quiet_guard .begin).leaves working (fun _ => ?_) fun _ => rests))
  refine follows_bind.2 (follows_lift.2 (follows_run.2 ((hbody w rests).mono ?_ ?_)))
  · rintro a w' ⟨working, rfl, prepared⟩
    exact follows_bind.2 ((deals_commit working prepared).mono
      (fun _ _ rests => follows_pure.2 rests) fun _ _ => id)
  · rintro e w' ⟨working, rfl⟩
    exact follows_bind.2 (follows_lift.2 ((deals_rollback working).mono
      fun _ _ rests => follows_throw.2 rests))

end Operation

end

end RentalDesk
