import RentalDesk.Proofs.Custody.Rules
import RentalDesk.Proofs.Dialogue

/-!
# Honest clients

A client is honest if he updates no fee but those that his transaction has inserted, or has locked
and found. Apart from that he may call what he likes. Honest clients keep to the policy that watches
the fees alone and asks for nothing but that a settlement stays what it is.
-/

namespace RentalDesk

open Operation Script

/-! ## Honesty -/

/-- The fees that a transaction may update after a call and its answer, given those that it might
update before. -/
def Script.Move.got (got : List FeeId) : Script.Move → Script.Answer → List FeeId
  | .lockFee id, .fee (.ok (some _)) => id :: got
  | .insertFee _, .newFee (.ok row) => row.id :: got
  | .commit, _ | .rollback, _ | .drop, _ => []
  | _, _ => got

/-- The client updates only fees that his transaction has inserted or got by locking them. -/
def Dialogue.Honest : Dialogue → List FeeId → Prop
  | .ends _, _ => True
  | .calls move next, got => (∀ fee, move = .updateFee fee → fee.id ∈ got) ∧
      ∀ answer, (next answer).Honest (move.got got answer)

/-- Whoever registers an item is honest. -/
def Comer.Honest : Comer → Prop
  | .client dialogue => dialogue.Honest []
  | .registrar _ => True

/-! ## The policy -/

/-- The settlement of a row, if it is a fee that has one. -/
def Row.settlement? : Row → Option InvoiceId
  | .fee row => row.settlement
  | _ => none

/-- Fees are watched. A fee that is written again was inserted or is known, and a settlement stays
what it is. -/
def Policy.settlement : Policy where
  watches name := decide (name = .fees)
  continues old new := ∀ invoice, old.settlement? = some invoice → new.settlement? = some invoice
  stages c row := ∀ fee, row = .fee fee →
    .fee fee.id ∈ c.writes.inserted ∨ ∃ old, (.fee fee.id, some old) ∈ c.known
  commits _ := True

/-- Whatever a fee is staged for keeps its settlement. -/
theorem WriteSet.settlement_of_kept {previous fee : Fee} {invoice : InvoiceId}
    (h : altersSettlement previous fee = false) (settled : previous.settlement = some invoice) :
    fee.settlement = some invoice := by
  rw [altersSettlement, settled, Option.isSome_some, Bool.true_and, bne_eq_false_iff_eq] at h
  exact h.symm

theorem Policy.settlement_sound (medium : Medium) : Policy.settlement.Sound medium where
  refl _ _ := id
  trans h h' invoice settled := h' invoice (h invoice settled)
  stages := by
    intro t last c row fits _ working watched stages guard
    cases row with
    | item row => cases watched
    | rental row => cases watched
    | fee fee =>
        refine or_iff_not_imp_left.2 fun inserted => ?_
        obtain ⟨old, known⟩ := (stages fee rfl).resolve_left inserted
        have hold := (fits.known _ _ known).2.2.1
        refine ⟨old, hold, fun invoice settled => ?_⟩
        have kept := guard fee rfl
        obtain ⟨stored, hstored, rfl⟩ := Option.map_eq_some_iff.1 hold
        cases hstaged : c.writes.staged.fees.get? fee.id with
        | none =>
            rw [hstaged, hstored] at kept
            have previous : (medium.fee stored).settlement = some invoice := by
              rw [Medium.settlement_fee]
              exact settled
            exact WriteSet.settlement_of_kept kept previous
        | some previous =>
            rw [hstaged] at kept
            obtain ⟨found, hfound, continues⟩ := (fits.staged working (.fee fee.id) (.fee previous)
              (Tables.row?_fee.2 hstaged) watched).resolve_left inserted
            obtain rfl := Option.some.inj (hold.symm.trans hfound)
            have settled' : previous.settlement = some invoice := continues invoice settled
            exact WriteSet.settlement_of_kept kept settled'

/-! ## What a transaction keeps -/

/-- The transaction goes on, and has inserted and known no less than before. -/
structure Custody.Leads (c c' : Custody) : Prop where
  working : c'.ended = false
  inserted : ∀ key ∈ c.writes.inserted, key ∈ c'.writes.inserted
  known : ∀ entry ∈ c.known, entry ∈ c'.known

/-- The transaction goes on, and the fees are among those that it has inserted or known. -/
structure Custody.Backs (c : Custody) (got : List FeeId) : Prop where
  working : c.ended = false
  fees : ∀ id ∈ got, .fee id ∈ c.writes.inserted ∨ ∃ old, (.fee id, some old) ∈ c.known

namespace Custody

variable {c c' c'' : Custody} {got : List FeeId}

theorem Leads.refl (working : c.ended = false) : c.Leads c := ⟨working, fun _ => id, fun _ => id⟩

theorem Leads.trans (h : c.Leads c') (h' : c'.Leads c'') : c.Leads c'' :=
  ⟨h'.working, fun key hkey => h'.inserted key (h.inserted key hkey), fun entry hentry =>
    h'.known entry (h.known entry hentry)⟩

theorem Leads.hold (working : c.ended = false) (ticket : Ticket) :
    c.Leads { c with writes := c.writes.hold ticket } := ⟨working, fun _ => id, fun _ => id⟩

theorem Leads.learn {p : Policy} {medium : Medium} {t : Tables} {key : RowKey}
    (working : c.ended = false) : c.Leads (p.learn medium t key c) := by
  rw [Policy.learn]
  split
  · exact ⟨working, fun _ => id, fun _ => List.mem_cons_of_mem _⟩
  · exact .refl working

theorem Backs.start : Custody.start.Backs [] := ⟨rfl, nofun⟩

theorem Backs.mono (h : c.Backs got) (leads : c.Leads c') : c'.Backs got := by
  refine ⟨leads.working, fun id hid => (h.fees id hid).imp (leads.inserted _) ?_⟩
  rintro ⟨old, known⟩
  exact ⟨old, leads.known _ known⟩

theorem Backs.cons (h : c.Backs got) {id : FeeId}
    (hid : .fee id ∈ c.writes.inserted ∨ ∃ old, (.fee id, some old) ∈ c.known) :
    c.Backs (id :: got) :=
  ⟨h.working, List.forall_mem_cons.2 ⟨hid, h.fees⟩⟩

theorem Backs.tail {id : FeeId} (h : c.Backs (id :: got)) : c.Backs got :=
  ⟨h.working, fun other hother => h.fees other (List.mem_cons_of_mem _ hother)⟩

end Custody

/-- The action ends a transaction, or is none of a transaction. -/
def Action.ends : Action → Bool
  | .apply | .release | .discard | .placeItem _ => true
  | _ => false

theorem Shop.inserted_staged {shop : Shop} {writes : WriteSet} {result : Except Error WriteSet}
    (ok : ∀ w, result = .ok w → w.inserted = writes.inserted) :
    (shop.staged writes result).2.2.inserted = writes.inserted :=
  staged_cases (P := fun _ w => w.inserted = writes.inserted) ok rfl

theorem Shop.inserted_perform {shop : Shop} {writes : WriteSet} {action : Action}
    (h : action.ends = false) :
    ∀ key ∈ writes.inserted, key ∈ (shop.perform writes action).2.2.inserted := by
  intro key hkey
  have staged : ∀ result : Except Error WriteSet,
      (∀ w, result = .ok w → ∃ rows, w = writes.withStaged rows) →
      key ∈ (shop.staged writes result).2.2.inserted := by
    intro result ok
    rw [inserted_staged fun w hw => ?_]
    · exact hkey
    · obtain ⟨rows, rfl⟩ := ok w hw
      rfl
  cases action
  case insertRental row => exact List.mem_cons_of_mem _ hkey
  case insertFee row => exact List.mem_cons_of_mem _ hkey
  case updateItem row => exact staged _ fun w hw => ⟨_, (WriteSet.stageItem_eq_ok hw).2⟩
  case updateRental row => exact staged _ fun w hw => ⟨_, (WriteSet.stageRental_eq_ok hw).2⟩
  case updateFee row =>
      refine staged _ fun w hw => ?_
      obtain ⟨_, -, hw⟩ := stageFee_of_bind hw
      exact ⟨_, (WriteSet.stageFee_eq_ok hw).2⟩
  case registerItem item => rwa [writes_registerItem]
  case apply => cases h
  case release => cases h
  case discard => cases h
  case placeItem item => cases h
  all_goals exact hkey

namespace Operation

variable {α β : Type} {p : Policy} {medium : Medium} {c : Custody}
  {failed : Error → Custody → Prop}

theorem leads_perform (action : Action) (permits : p.Permits medium c action)
    (working : c.ended = false) (h : action.ends = false) :
    (perform action).Follows (p.discipline medium) c (fun _ c' => c.Leads c') failed := by
  refine follows_perform.2 ⟨permits, ?_⟩
  rintro answer _ ⟨shop, t, last, -, -, -, -, rfl⟩
  have inserted : ∀ key ∈ c.writes.inserted, key ∈ (shop.perform c.writes action).2.2.inserted :=
    shop.inserted_perform h
  cases action
  case look what =>
      cases what
      case item id => exact .learn working
      all_goals exact ⟨working, inserted, fun _ => id⟩
  case readItem id => exact .learn working
  case readRental id => exact .learn working
  case readFee id => exact .learn working
  case apply => cases h
  case release => cases h
  case discard => cases h
  case placeItem item => cases h
  all_goals exact ⟨working, inserted, fun _ => id⟩

/-- However the operation ends, the transaction goes on. -/
abbrev Leads (p : Policy) (medium : Medium) (x : Operation α) (c : Custody) : Prop :=
  x.Follows (p.discipline medium) c (fun _ c' => c.Leads c') fun _ c' => c.Leads c'

theorem Leads.bind {x : Operation α} {f : α → Operation β} (hx : x.Leads p medium c)
    (hf : ∀ a c', c'.ended = false → (f a).Leads p medium c') : (x >>= f).Leads p medium c := by
  refine follows_bind.2 (hx.mono (fun a c' leads => ?_) fun _ _ => id)
  exact (hf a c' leads.working).mono (fun _ _ => leads.trans) fun _ _ => leads.trans

theorem Leads.ofExcept (result : Except Error α) (working : c.ended = false) :
    (MonadExcept.ofExcept result : Operation α).Leads p medium c := by
  rw [Leads, follows_ofExcept]
  cases result <;> exact .refl working

theorem Leads.acquire (key : RowKey) (working : c.ended = false) :
    (Operation.acquire key).Leads p medium c := by
  refine follows_acquire.2 ⟨?_, ?_⟩
  · rintro _ (⟨-, rfl⟩ | ⟨ticket, -, rfl⟩)
    · exact .refl working
    · exact .hold working ticket
  · rintro _ rfl
    exact .refl working

/-- An action whose answer may be an error. -/
theorem Leads.tried (action : Action) (ends : action.ends = false)
    (permits : p.Permits medium c action) (working : c.ended = false)
    (answer : action.Answer → Except Error α) :
    (do MonadExcept.ofExcept (answer (← perform action)) : Operation α).Leads p medium c := by
  refine follows_bind.2 ((leads_perform action permits working ends).mono (fun a c' leads => ?_)
    fun _ _ => id)
  exact (Leads.ofExcept (answer a) leads.working).mono (fun _ _ => leads.trans)
    fun _ _ => leads.trans

/-- A fee that is read under its lock was inserted by the reader, or is known to him. -/
theorem backed_readFee {t : Tables} {last : Series → Nat} {shop : Shop} {id : FeeId} {fee : Fee}
    (fits : p.Fits medium t last c) (working : c.ended = false) (watched : p.watches .fees)
    (store : shop.store = t.keptIn medium) (holds : c.writes.holds (.fee id))
    (found : (shop.perform c.writes (.readFee id)).1 = .ok (some fee)) :
    .fee id ∈ (p.learn medium t (.fee id) c).writes.inserted ∨
      ∃ old, (.fee id, some old) ∈ (p.learn medium t (.fee id) c).known := by
  rw [Policy.writes_learn]
  refine or_iff_not_imp_left.2 fun inserted => ?_
  have locks := (WriteSet.holds_iff.1 holds).resolve_right inserted
  have present : (t.row? (.fee id)).isSome := by
    rw [Shop.perform, store, Tables.fee?_keptIn] at found
    cases hstaged : c.writes.staged.fees.get? id with
    | some staged =>
        obtain ⟨old, hold, -⟩ := (fits.staged working (.fee id) (.fee staged)
          (Tables.row?_fee.2 hstaged) watched).resolve_left inserted
        rw [hold]
        rfl
    | none =>
        rw [hstaged, Shop.overlay] at found
        obtain ⟨stored, hstored, -⟩ := Option.map_eq_some_iff.1 (Except.ok.inj found)
        rw [Tables.row?, hstored]
        rfl
  rw [Policy.learn, if_pos ⟨watched, locks, .inl present⟩]
  obtain ⟨old, hold⟩ := Option.isSome_iff_exists.1 present
  exact ⟨old, List.mem_cons.2 (.inl (by rw [hold]))⟩

/-- What a fee that was locked and found backs. -/
theorem backs_lockFee {got : List FeeId} {id : FeeId} (backs : c.Backs got)
    (watched : p.watches .fees) :
    (Transaction.lockFee id).Follows (p.discipline medium) c
      (fun found c' => c'.Backs (match found with | some _ => id :: got | none => got))
      fun _ c' => c'.Backs got := by
  have working := backs.working
  have locked : (acquire (.fee id)).Follows (p.discipline medium) c
      (fun _ c' => c.Leads c' ∧ c'.writes.holds (.fee id)) fun _ c' => c.Leads c' := by
    refine follows_acquire.2 ⟨?_, ?_⟩
    · rintro _ (⟨holds, rfl⟩ | ⟨ticket, hkey, rfl⟩)
      · exact ⟨.refl working, holds⟩
      · exact ⟨.hold working ticket, by simp [hkey]⟩
    · rintro _ rfl
      exact .refl working
  refine follows_bind.2 (locked.mono ?_ fun _ _ => backs.mono)
  rintro _ c' ⟨leads, holds⟩
  replace backs := backs.mono leads
  refine follows_bind.2 (follows_perform.2 ⟨backs.working, ?_⟩)
  rintro answer _ ⟨shop, t, last, store, -, fits, hanswer, rfl⟩
  have after : (p.learn medium t (.fee id) c').Backs got := backs.mono (.learn backs.working)
  refine follows_bind.2 (follows_ofExcept.2 ?_)
  match answer with
  | .error e => exact after
  | .ok none => exact follows_pure.2 after
  | .ok (some fee) =>
      have both := after.cons (backed_readFee fits backs.working watched store holds hanswer.symm)
      refine follows_bind.2 ((Leads.acquire _ both.working).mono (fun _ c' leads => ?_)
        fun _ c' leads => after.mono leads)
      replace both := both.mono leads
      have reads : (perform (.readRental fee.rentalId)).Follows (p.discipline medium) c'
          (fun _ c => c'.Leads c) fun _ c => c.Backs got :=
        leads_perform _ both.working both.working rfl
      refine follows_bind.2 (reads.mono (fun answer c' leads => ?_) fun _ _ after => after)
      replace both := both.mono leads
      refine follows_bind.2 (follows_ofExcept.2 ?_)
      match answer with
      | .error e => exact both.tail
      | .ok none => exact follows_throw.2 both.tail
      | .ok (some rental) => exact follows_pure.2 both

end Operation

/-! ## Calls and dialogues -/

section

variable {p : Policy} {medium : Medium} {c : Custody} {got : List FeeId} {α : Type}

theorem Operation.Leads.answered {x : Operation α} (h : x.Leads p medium c) (backs : c.Backs got)
    {move : Script.Move} {answer : Except Error α → Script.Answer}
    (same : ∀ result, move.got got (answer result) = got) :
    (x.run >>= fun result => pure (answer result) : Task Script.Answer).Follows
      (p.discipline medium) c fun a c' => c'.Backs (move.got got a) := by
  refine Task.follows_bind.2 (follows_run.2 (h.mono ?_ ?_))
  · intro a c' leads
    rw [Task.follows_pure, same]
    exact backs.mono leads
  · intro e c' leads
    rw [Task.follows_pure, same]
    exact backs.mono leads

/-- A call keeps to the policy and ends with what its answer says, if it updates no fee but those
that are backed. -/
theorem Script.Move.backs (move : Script.Move) (backs : c.Backs got)
    (honest : ∀ fee, move = .updateFee fee → fee.id ∈ got) :
    move.task.Follows (Policy.settlement.discipline medium) c
      fun answer c' => c'.Backs (move.got got answer) := by
  have working := backs.working
  cases move with
  | lockItem id =>
      refine Leads.answered (.bind (.acquire _ working) fun _ c' working => ?_) backs fun _ => rfl
      exact .tried (.readItem id) rfl working working fun answer => answer
  | lockFee id =>
      refine Task.follows_bind.2 (follows_run.2 ((backs_lockFee backs rfl).mono ?_ ?_))
      · intro found c' h
        cases found <;> exact Task.follows_pure.2 h
      · exact fun e c' h => Task.follows_pure.2 h
  | insertRental rental =>
      exact Leads.answered (leads_perform (.insertRental rental) working working rfl) backs
        fun _ => rfl
  | insertFee row =>
      refine Task.follows_bind.2 (follows_run.2 (keeps_insertFee working fun id => ?_))
      have backs : (c.withWrites (c.writes.insertFee (row.withId id))).Backs got :=
        ⟨working, fun other hother => (backs.fees other hother).imp_left (List.mem_cons_of_mem _)⟩
      exact Task.follows_pure.2 (backs.cons (.inl List.mem_cons_self))
  | insertInvoice invoice =>
      exact Leads.answered (leads_perform (.insertInvoice invoice) working working rfl) backs
        fun _ => rfl
  | updateItem item =>
      exact Leads.answered (.tried (.updateItem item) rfl ⟨working, fun _ h => nomatch h⟩ working
        fun answer => answer) backs fun _ => rfl
  | updateRental rental =>
      exact Leads.answered (.tried (.updateRental rental) rfl ⟨working, fun _ h => nomatch h⟩
        working fun answer => answer) backs fun _ => rfl
  | updateFee fee =>
      refine Leads.answered (.tried (.updateFee fee) rfl ⟨working, ?_⟩ working
        fun answer => answer) backs fun _ => rfl
      intro fee' hfee
      obtain rfl := Row.fee.inj hfee
      exact backs.fees _ (honest _ rfl)
  | commit =>
      refine Task.follows_bind.2 (follows_run.2 (follows_bind.2 (follows_perform.2
        ⟨⟨working, trivial⟩, fun _ _ _ => ?_⟩)))
      exact keeps_release (Task.follows_pure.2 .start)
  | rollback =>
      exact Task.follows_bind.2 (follows_run.2 (keeps_release (Task.follows_pure.2 .start)))
  | drop =>
      exact Task.follows_bind.2 (follows_run.2 (keeps_discard (Task.follows_pure.2 .start)))

/-- An honest client keeps to the policy. -/
theorem Dialogue.backs {dialogue : Dialogue} (honest : dialogue.Honest got) (backs : c.Backs got) :
    dialogue.task.Follows (Policy.settlement.discipline medium) c fun _ _ => True := by
  induction dialogue generalizing c got with
  | ends answer => trivial
  | calls move next ih =>
      refine Task.follows_bind.2 ((move.backs backs honest.1).mono fun answer c' backs => ?_)
      exact ih answer (honest.2 answer) backs

/-- Whoever comes to a store and is honest keeps to the policy. -/
theorem Comer.Honest.keeps {comer : Comer} (honest : comer.Honest) (terms : Terms) :
    (comer.task terms).Follows (Policy.settlement.discipline terms.medium) .start
      fun _ _ => True := by
  cases comer with
  | client dialogue => exact dialogue.backs honest .start
  | registrar item =>
      exact ((keeps_register terms item).answered _).mono fun _ _ _ => trivial

end

end RentalDesk
