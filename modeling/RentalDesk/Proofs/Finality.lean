import RentalDesk.Proofs.Custody.Clients
import RentalDesk.Proofs.Custody.Floor

/-!
# Settlements are final

Clients work on transactions of their own, with any calls and any arguments, and all at once. If
they update only fees that they have inserted or got by locking them, a settlement that is committed
is never taken back. Nor is one that a transaction has staged, as long as the transaction goes on.
-/

namespace RentalDesk

open Script

/-- An honest client comes, or somebody who registers an item. -/
def Event.Honest {ν : Type} (medium : Medium) : Event ν Answer → Prop
  | .comes _ task => ∃ (comer : Comer) (tariff : Tariff),
      task = comer.task ⟨tariff, medium⟩ ∧ comer.Honest
  | _ => True

theorem Event.Honest.heeded {ν : Type} {medium : Medium} {e : Event ν Answer}
    (h : e.Honest medium) : e.Heeded .settlement medium := by
  cases e with
  | comes v task =>
      obtain ⟨comer, tariff, rfl, honest⟩ := h
      exact honest.keeps ⟨tariff, medium⟩
  | _ => trivial

/-- The event ends the transaction of the given name. -/
def Event.closes {ν ρ : Type} [DecidableEq ν] (v : ν) : Event ν ρ → Bool
  | .does w (.did .release _) | .does w (.did .discard _) | .leaves w => v = w
  | _ => false

/-! ## What is staged -/

/-- The invoice that settles a fee. -/
def Tables.settlement? (t : Tables) (id : FeeId) : Option InvoiceId :=
  (t.row? (.fee id)).bind Row.settlement?

theorem Tables.settlement?_eq_some {t : Tables} {id : FeeId} {invoice : InvoiceId} :
    t.settlement? id = some invoice ↔
      ∃ fee, t.fees.get? id = some fee ∧ fee.settlement = some invoice := by
  rw [settlement?, row?, Option.bind_map, Option.bind_eq_some_iff]
  rfl

theorem Tables.settlement?_congr {t t' : Tables} {id : FeeId} (h : t.fees = t'.fees) :
    t.settlement? id = t'.settlement? id := by
  rw [settlement?, row?, h]
  rfl

theorem Tables.settlement?_putFee {t : Tables} {row : Fee} {id : FeeId} :
    (t.putFee row).settlement? id =
      if id = row.id then row.settlement else t.settlement? id := by
  rw [settlement?, row?_putFee]
  by_cases h : id = row.id
  · rw [if_pos (congrArg _ h), if_pos h]
    rfl
  · rw [if_neg fun heq => h (RowKey.fee.inj heq), if_neg h, settlement?]

/-- The action neither ends a transaction nor stages a fee. -/
def Action.sparesFees : Action → Bool
  | .insertFee _ | .updateFee _ | .release | .discard => false
  | _ => true

namespace Shop

variable {shop : Shop} {writes : WriteSet} {id : FeeId} {invoice : InvoiceId}

theorem fees_staged {result : Except Error WriteSet}
    (ok : ∀ w, result = .ok w → w.staged.fees = writes.staged.fees) :
    (shop.staged writes result).2.2.staged.fees = writes.staged.fees :=
  staged_cases (P := fun _ w => w.staged.fees = writes.staged.fees) ok rfl

theorem fees_perform {action : Action} (h : action.sparesFees = true) :
    (shop.perform writes action).2.2.staged.fees = writes.staged.fees := by
  cases action
  case insertFee => cases h
  case updateFee => cases h
  case release => cases h
  case discard => cases h
  case updateItem item =>
      exact fees_staged fun w hw => congrArg (·.staged.fees) (WriteSet.stageItem_eq_ok hw).2
  case updateRental rental =>
      exact fees_staged fun w hw => congrArg (·.staged.fees) (WriteSet.stageRental_eq_ok hw).2
  case registerItem item => rw [writes_registerItem]
  all_goals rfl

/-- Whether an update is taken or refused, what is staged for a fee keeps its settlement. -/
theorem settlement_updateFee {row : Fee} (h : writes.staged.settlement? id = some invoice) :
    (shop.perform writes (.updateFee row)).2.2.staged.settlement? id = some invoice := by
  refine staged_cases (P := fun _ w => w.staged.settlement? id = some invoice)
    (fun w hw => ?_) h
  obtain ⟨committed, -, hw⟩ := stageFee_of_bind hw
  have kept := WriteSet.kept_of_stageFee hw
  obtain ⟨-, rfl⟩ := WriteSet.stageFee_eq_ok hw
  refine Tables.settlement?_putFee.trans ?_
  split
  · next hid =>
      obtain ⟨fee, hfee, settled⟩ := Tables.settlement?_eq_some.1 h
      rw [← hid, hfee] at kept
      exact WriteSet.settlement_of_kept kept settled
  · exact h

/-- An update that is refused leaves everything as it was. -/
theorem perform_updateFee_error {row : Fee} {e : Error}
    (h : (shop.perform writes (.updateFee row)).1 = .error e) :
    (shop.perform writes (.updateFee row)).2 = (shop, writes) := by
  rw [perform] at h ⊢
  cases hresult : (shop.store.fee? row.id).bind (writes.stageFee row) with
  | ok w =>
      rw [hresult] at h
      cases h
  | error e => rfl

end Shop

/-! ## What everybody does -/

namespace Floor

variable {ν : Type} [DecidableEq ν] {medium : Medium} {shop : Shop} {t : Tables}
  {last : Series → Nat} {events more : List (Event ν Answer)} {e : Event ν Answer}
  {f g : Floor ν Answer} {v : ν} {id : FeeId} {invoice : InvoiceId}

/-- The committed fee is settled by the invoice. -/
def Settled (f : Floor ν Answer) (id : FeeId) (invoice : InvoiceId) : Prop :=
  ∃ fee, f.shop.store.fee? id = .ok (some fee) ∧ fee.settlement = some invoice

/-- The transaction has staged the fee as settled by the invoice. -/
def StagedSettled (f : Floor ν Answer) (v : ν) (id : FeeId) (invoice : InvoiceId) : Prop :=
  ∃ s, f.sessions v = some s ∧
    ∃ fee, s.writes.staged.fees.get? id = some fee ∧ fee.settlement = some invoice

/-- Until it ends, a transaction keeps what it has staged of a settlement. -/
theorem Kept.stagedSettled (h : f.Kept .settlement medium t last) (step : f.Step e g)
    (few : ∀ s, e.tally last s < UInt64.size) (goes : e.closes v = false)
    (staged : f.StagedSettled v id invoice) : g.StagedSettled v id invoice := by
  obtain ⟨s, present, staged⟩ := staged
  rw [← Tables.settlement?_eq_some] at staged
  suffices ∃ s, g.sessions v = some s ∧ s.writes.staged.settlement? id = some invoice by
    obtain ⟨s, present, staged⟩ := this
    exact ⟨s, present, Tables.settlement?_eq_some.1 staged⟩
  by_cases hname : e.name? = some v
  swap
  · exact ⟨s, (step.sessions_of_ne hname).trans present, staged⟩
  cases step with
  | turns => cases hname
  | comes absent =>
      obtain rfl := Option.some.inj hname
      cases absent.symm.trans present
  | leaves =>
      obtain rfl := Option.some.inj hname
      simp [Event.closes] at goes
  | @does w s₀ s' deed shop present₀ step =>
      obtain rfl := Option.some.inj hname
      obtain rfl := Option.some.inj (present₀.symm.trans present)
      refine ⟨s', put_sessions_self .., ?_⟩
      cases step with
      | @act writes action next =>
          obtain ⟨c, rfl, fits, permits, -⟩ := h.sessions w _ present
          cases action
          case insertFee row =>
              obtain ⟨fee, hfee, -⟩ := Tables.settlement?_eq_some.1 staged
              have few : last .fees + 1 < UInt64.size := few .fees
              have new := h.counts.next_ne_staged fits permits rfl few
                (Tables.uses_fees.2 (by rw [Tables.row?_fee.2 hfee]; rfl))
              exact Tables.settlement?_putFee.trans ((if_neg new.symm).trans staged)
          case updateFee row => exact Shop.settlement_updateFee staged
          case release => simp [Event.closes] at goes
          case discard => simp [Event.closes] at goes
          all_goals exact (Tables.settlement?_congr (Shop.fees_perform rfl)).trans staged
      | _ => exact staged

omit [DecidableEq ν] in
theorem Kept.settled_iff (h : f.Kept .settlement medium t last) :
    f.Settled id invoice ↔ t.settlement? id = some invoice := by
  rw [Settled, h.store, Tables.fee?_keptIn, Tables.settlement?_eq_some]
  constructor
  · rintro ⟨fee, hfee, settled⟩
    obtain ⟨stored, hstored, rfl⟩ := Option.map_eq_some_iff.1 (Except.ok.inj hfee)
    exact ⟨stored, hstored, (medium.settlement_fee stored).symm.trans settled⟩
  · rintro ⟨fee, hfee, settled⟩
    exact ⟨medium.fee fee, by rw [hfee, Option.map_some],
      (medium.settlement_fee fee).trans settled⟩

/-- A run of honest clients in which a transaction goes on. -/
theorem Run.stagedSettled (run : f.Run events g) (h : f.Kept .settlement medium t last)
    (honest : ∀ e ∈ events, e.Honest medium) (few : ∀ s, last s + draws events s < UInt64.size)
    (goes : ∀ e ∈ events, e.closes v = false) (staged : f.StagedSettled v id invoice) :
    g.StagedSettled v id invoice := by
  induction run with
  | nil => exact staged
  | @snoc events g g' e run step ih =>
      rw [List.forall_mem_append] at honest goes
      have few' := (few_of_append few).1
      obtain ⟨t', kept, -⟩ := run.kept (Policy.settlement_sound medium) h
        (fun e he => (honest.1 e he).heeded) few'
      refine kept.stagedSettled step ?_ (goes.2 e List.mem_cons_self) (ih honest.1 few' goes.1)
      rwa [Event.tally_draws]

/-- An update that is refused leaves the write set of its transaction as it was. -/
theorem Step.writes_updateFee_error {row : Fee} {e : Error}
    (step : f.Step (.does v (.did (.updateFee row) (.error e))) g) :
    (g.sessions v).map Session.writes = (f.sessions v).map Session.writes := by
  generalize hdeed : Deed.did (.updateFee row) (.error e) = deed at step
  cases step with
  | does present step =>
      rw [put_sessions_self, present, Option.map_some, Option.map_some]
      cases step with
      | act =>
          obtain ⟨rfl, hanswer⟩ := Deed.did.inj hdeed
          exact congrArg (some ·.2) (Shop.perform_updateFee_error (eq_of_heq hanswer).symm)
      | _ => cases hdeed

/-- Any number of clients work on transactions at the same time, on either medium, with calls and
arguments of their own choice. Each of them updates only fees that its transaction has inserted or
got by locking them. A fee that is settled by a commit stays so in every later state. A fee that a
transaction has staged as settled stays so until the transaction ends, whatever updates are taken,
and an update that is refused leaves what is staged as it was. -/
theorem Run.settlement_final (opened : shop.Opened medium t last)
    (run : (ofShop shop).Run events f) (rest : f.Run more g)
    (honest : ∀ e ∈ events ++ more, e.Honest medium)
    (few : ∀ s, last s + draws (events ++ more) s < UInt64.size) :
    (∀ id invoice, f.Settled id invoice → g.Settled id invoice) ∧
      (∀ v id invoice, (∀ e ∈ more, e.closes v = false) → f.StagedSettled v id invoice →
        g.StagedSettled v id invoice) ∧
      ∀ v row e, more = [.does v (.did (.updateFee row) (.error e))] →
        (g.sessions v).map Session.writes = (f.sessions v).map Session.writes := by
  have sound := Policy.settlement_sound medium
  obtain ⟨before, after⟩ := few_of_append few
  rw [List.forall_mem_append] at honest
  obtain ⟨now, kept, -⟩ := run.kept sound (kept_ofShop opened)
    (fun e he => (honest.1 e he).heeded) before
  obtain ⟨later, kept', onward⟩ := rest.kept sound kept (fun e he => (honest.2 e he).heeded) after
  refine ⟨fun id invoice settled => ?_, fun v id invoice goes staged =>
    rest.stagedSettled kept honest.2 after goes staged, ?_⟩
  · obtain ⟨old, hold, settled⟩ := Option.bind_eq_some_iff.1 (kept.settled_iff.1 settled)
    obtain ⟨new, hnew, continues⟩ := onward.rows (.fee id) old rfl hold
    exact kept'.settled_iff.2 (Option.bind_eq_some_iff.2 ⟨new, hnew, continues invoice settled⟩)
  · rintro v row e rfl
    obtain ⟨h, step, rest⟩ := rest.uncons
    obtain rfl := rest.eq_of_nil
    exact step.writes_updateFee_error

end Floor

/-! ## A client who thinks better of it -/

/-- Writes fees one after another and commits. -/
def Dialogue.updating : List Fee → Dialogue
  | [] => .calls .commit .ends
  | row :: rows => .calls (.updateFee row) fun _ => updating rows

theorem Dialogue.honest_updating {rows : List Fee} {got : List FeeId}
    (h : ∀ row ∈ rows, row.id ∈ got) : (updating rows).Honest got := by
  induction rows with
  | nil => exact ⟨nofun, fun _ => trivial⟩
  | cons row rows ih =>
      rw [List.forall_mem_cons] at h
      refine ⟨fun fee hfee => ?_, fun _ => ih h.2⟩
      obtain rfl := Script.Move.updateFee.inj hfee
      exact h.1

/-- Locks a fee, and if it is there writes it in several ways one after another. -/
def Dialogue.amending (id : FeeId) (rows : List Fee) : Dialogue :=
  .calls (.lockFee id) fun
    | .fee (.ok (some _)) => updating rows
    | answer => .ends answer

theorem Dialogue.honest_amending {id : FeeId} {rows : List Fee} (h : ∀ row ∈ rows, row.id = id) :
    (amending id rows).Honest [] := by
  refine ⟨nofun, fun answer => ?_⟩
  dsimp only
  split
  · exact honest_updating fun row hrow => List.mem_singleton.2 (h row hrow)
  · trivial

/-- A rental and its fee, which nobody else knows yet. -/
def Dialogue.lending : Dialogue :=
  .calls (.insertRental ⟨3, 7, .epoch⟩) fun _ => .calls (.insertFee ⟨1, .zero, "Late return"⟩)
    fun _ => .calls .commit .ends

theorem Dialogue.honest_lending : lending.Honest [] :=
  ⟨nofun, fun _ => ⟨nofun, fun _ => ⟨nofun, fun _ => trivial⟩⟩⟩

/-- A sitting of clients. -/
def conversations {ν : Type} (terms : Terms) (clients : List (ν × Dialogue))
    (turns : List (ν × Nat)) : List (Move ν Answer) :=
  sitting (clients.map fun c => (c.1, (Comer.client c.2).task terms)) turns []

theorem honest_follow {ν : Type} [DecidableEq ν] {tariff : Tariff} {medium : Medium}
    {clients : List (ν × Dialogue)} {turns : List (ν × Nat)} {f : Floor ν Answer}
    {e : Event ν Answer} (honest : ∀ c ∈ clients, c.2.Honest [])
    (h : e ∈ (f.follow (conversations ⟨tariff, medium⟩ clients turns)).1) : e.Honest medium := by
  rcases mem_follow_sitting h with ⟨t, ht, rfl⟩ | ⟨v, deed, rfl⟩ | ⟨v, rfl⟩
  · obtain ⟨c, hc, rfl⟩ := List.mem_map.1 ht
    exact ⟨.client c.2, tariff, rfl, honest c hc⟩
  · trivial
  · trivial

/-- The fee of the only rental. -/
def paidFee (reason : String) (invoice : InvoiceId) : Fee := ⟨1, 1, .zero, reason, some invoice⟩

/-- Somebody lends an item, somebody else settles its fee, and a third one has changed the reason
and would like to settle the fee once more. -/
def amendments : List (Move Nat Answer) :=
  conversations ⟨.standard, .memory⟩
    [(0, .lending), (1, .amending 1 [paidFee "Late return" 5]),
      (2, .amending 1 [paidFee "Paid in cash" 5, paidFee "Paid in cash" 6])]
    [(0, 4), (1, 9), (2, 7)]

/-- He settles the fee once more. -/
def amendment : List (Move Nat Answer) := conversations ⟨.standard, .memory⟩ [] [(2, 1)]

theorem Floor.Run.settlement_final_amendment :
    let f := ((ofShop (Shop.opened (.empty .memory) .fresh 100 .epoch)).follow amendments).2
    f.Settled 1 5 ∧ f.StagedSettled 2 1 5 ∧
      (∃ e, (f.follow amendment).1 =
        [.does 2 (.did (.updateFee (paidFee "Paid in cash" 6)) (.error e))]) ∧
      (∀ id invoice, f.Settled id invoice → (f.follow amendment).2.Settled id invoice) ∧
      (∀ v id invoice, (∀ e ∈ (f.follow amendment).1, e.closes v = false) →
        f.StagedSettled v id invoice → (f.follow amendment).2.StagedSettled v id invoice) ∧
      ∀ v row e, (f.follow amendment).1 = [.does v (.did (.updateFee row) (.error e))] →
        ((f.follow amendment).2.sessions v).map Session.writes =
          (f.sessions v).map Session.writes := by
  intro f
  refine ⟨⟨paidFee "Late return" 5, rfl, rfl⟩, ⟨_, rfl, paidFee "Paid in cash" 5, rfl, rfl⟩,
    ⟨_, rfl⟩, ?_⟩
  have clients : ∀ c ∈ [(0, Dialogue.lending), (1, .amending 1 [paidFee "Late return" 5]),
      (2, .amending 1 [paidFee "Paid in cash" 5, paidFee "Paid in cash" 6])], c.2.Honest [] := by
    simp only [List.forall_mem_cons]
    refine ⟨Dialogue.honest_lending, Dialogue.honest_amending ?_, Dialogue.honest_amending ?_,
      nofun⟩ <;> decide
  refine Floor.Run.settlement_final (Shop.opened_empty .memory 100 .epoch) (run_follow _ amendments)
    (run_follow f amendment) (List.forall_mem_append.2
      ⟨fun e => honest_follow clients, fun e => honest_follow nofun⟩) fun s => ?_
  have first :=
    draws_follow_le (ofShop (Shop.opened (.empty .memory) .fresh 100 .epoch)) amendments s
  have second := draws_follow_le f amendment s
  rw [draws_append]
  have : amendments.length + amendment.length < UInt64.size := by decide +kernel
  omega

end RentalDesk
