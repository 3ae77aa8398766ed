import RentalDesk.Proofs.Custody.Basic
import RentalDesk.Proofs.Schedule

/-!
# Custody on the floor

Everybody on the floor keeps to one policy. Then what each of them has in custody fits the committed
rows at all times: `Floor.Kept` holds at the beginning and is kept by every event. So the committed
rows go on as the policy says, and no watched row ever disappears.
-/

namespace RentalDesk

/-- The committed rows go on as the policy says, and none of them disappears. -/
structure Policy.Onward (p : Policy) (t t' : Tables) : Prop where
  rows : ∀ key old, p.watches key.tableName → t.row? key = some old →
    ∃ new, t'.row? key = some new ∧ p.continues old new
  invoices : p.watches .invoices → ∀ id invoice, t.invoices.get? id = some invoice →
    t'.invoices.get? id = some invoice

namespace Policy

variable {p : Policy} {medium : Medium} {t t' t'' : Tables} {last : Series → Nat} {c : Custody}

theorem Onward.refl (sound : p.Sound medium) (t : Tables) : p.Onward t t :=
  ⟨fun _ old _ hold => ⟨old, hold, sound.refl old⟩, fun _ _ _ => id⟩

theorem Onward.trans (sound : p.Sound medium) (h : p.Onward t t') (h' : p.Onward t' t'') :
    p.Onward t t'' where
  rows key old watched hold := by
    obtain ⟨mid, hmid, first⟩ := h.rows key old watched hold
    obtain ⟨new, hnew, second⟩ := h'.rows key mid watched hmid
    exact ⟨new, hnew, sound.trans first second⟩
  invoices watched id invoice hinvoice :=
    h'.invoices watched id invoice (h.invoices watched id invoice hinvoice)

theorem Onward.putItem (sound : p.Sound medium) {item : Item}
    (new : p.watches .items → t.row? (.item item.id) = none) : p.Onward t (t.putItem item) where
  rows key old watched hold := by
    refine ⟨old, ?_, sound.refl old⟩
    rw [Tables.row?_putItem, if_neg, hold]
    rintro rfl
    rw [new watched] at hold
    cases hold
  invoices _ _ _ := id

theorem Onward.merge (sound : p.Sound medium) (h : p.Fits medium t last c)
    (working : c.ended = false) : p.Onward t (t.merge c.writes.staged) where
  rows key old watched hold := by
    rw [Tables.row?_merge]
    cases hrow : c.writes.staged.row? key with
    | none => exact ⟨old, hold, sound.refl old⟩
    | some row =>
        have inserted := h.not_inserted working watched (by rw [hold]; rfl)
        obtain ⟨found, hfound, continues⟩ :=
          (h.staged working key row hrow watched).resolve_left inserted
        obtain rfl := Option.some.inj (hold.symm.trans hfound)
        exact ⟨row, rfl, continues⟩
  invoices watched id invoice hinvoice := by
    have undrawn : c.writes.drew .invoices id = false := by
      refine Bool.eq_false_iff.2 fun hdrew => ?_
      have unused := h.fresh working .invoices id watched hdrew
      rw [Tables.uses, Table.contains, hinvoice] at unused
      cases unused
    have unstaged : c.writes.staged.invoices.get? id = none :=
      Option.not_isSome_iff_eq_none.1 (Bool.eq_false_iff.1 undrawn)
    rw [Tables.merge, Table.get?_merge, unstaged, Option.none_or, hinvoice]

/-- An action that the policy permits lets the rows go on as the policy says. -/
theorem Onward.performed (sound : p.Sound medium) (h : p.Fits medium t last c) {action : Action}
    (permits : p.Permits medium c action) : p.Onward t (t.performed c.writes action) := by
  cases action
  case apply => exact .merge sound h permits.1
  case placeItem item =>
      exact .putItem sound fun watched => (h.known _ _ (permits.2.2 watched)).2.2.1
  case registerItem item =>
      rw [Tables.performed]
      split
      · exact .refl sound t
      · next new => exact .putItem sound fun _ => Tables.row?_item_of_new new
  all_goals exact .refl sound t

/-- The rows that come into use were numbered by the sequences. -/
theorem Counts.performed (h : p.Fits medium t last c) {shop : Shop} {action : Action}
    (counts : p.Counts t shop.sequences last) (permits : p.Permits medium c action) :
    p.Counts (t.performed c.writes action) (shop.perform c.writes action).2.1.sequences
      ((Deed.did action (shop.perform c.writes action).1).tally last) where
  next s watched := by
    rw [shop.perform_next, Deed.tally]
    split
    · rw [counts.next s watched, UInt64.ofNat_add, UInt64.ofNat_add, UInt64.ofNat_add]
      rfl
    · exact counts.next s watched
  used s id watched hused := by
    refine Nat.le_trans ?_ (Deed.le_tally ..)
    cases action
    case apply =>
        rw [Tables.performed, Tables.uses_merge, Bool.or_eq_true] at hused
        rcases hused with hstaged | hused
        · rcases h.uses_staged permits.1 watched hstaged with hdrew | hused
          · exact h.drawn s id watched hdrew
          · exact counts.used s id watched hused
        · exact counts.used s id watched hused
    case placeItem item =>
        rw [Tables.performed, Tables.uses_putItem] at hused
        exact counts.used s id watched hused
    case registerItem item =>
        rw [Tables.performed] at hused
        split at hused
        · exact counts.used s id watched hused
        · rw [Tables.uses_putItem] at hused
          exact counts.used s id watched hused
    all_goals exact counts.used s id watched hused

end Policy

/-! ## The floor -/

/-- The series that an event draws from. -/
def Event.draws? {ν ρ : Type} : Event ν ρ → Option Series
  | .does _ deed => deed.draws?
  | _ => none

/-- The numbers of the identifiers that were drawn last, after an event. -/
def Event.tally {ν ρ : Type} (last : Series → Nat) : Event ν ρ → Series → Nat
  | .does _ deed => deed.tally last
  | _ => last

/-- How many identifiers of a series are drawn. -/
def draws {ν ρ : Type} (events : List (Event ν ρ)) (s : Series) : Nat :=
  events.countP fun e => e.draws? = some s

section

variable {ν ρ : Type} (events more : List (Event ν ρ)) (e : Event ν ρ)

theorem draws_append (s : Series) : draws (events ++ more) s = draws events s + draws more s :=
  List.countP_append

/-- Where few identifiers are drawn by all events, few are drawn by the first ones, and few by the
others after them. -/
theorem few_of_append {events more : List (Event ν ρ)} {last : Series → Nat} {most : Nat}
    (few : ∀ s, last s + draws (events ++ more) s < most) :
    (∀ s, last s + draws events s < most) ∧
      ∀ s, last s + draws events s + draws more s < most := by
  have after : ∀ s, last s + draws events s + draws more s < most := fun s => by
    rw [Nat.add_assoc, ← draws_append]
    exact few s
  exact ⟨fun s => Nat.lt_of_le_of_lt (Nat.le_add_right ..) (after s), after⟩

theorem Event.tally_eq (last : Series → Nat) (s : Series) :
    e.tally last s = last s + draws [e] s := by
  cases e with
  | does v deed =>
      by_cases h : deed.draws? = some s <;> simp [tally, Deed.tally, draws, draws?, h]
  | _ => rfl

theorem Event.tally_draws (last : Series → Nat) :
    e.tally (fun s => last s + draws events s) = fun s => last s + draws (events ++ [e]) s := by
  funext s
  rw [tally_eq, draws_append, Nat.add_assoc]

end

theorem draws_follow_le {ν ρ : Type} [DecidableEq ν] (f : Floor ν ρ) (ms : List (Move ν ρ))
    (s : Series) : draws (f.follow ms).1 s ≤ ms.length :=
  Nat.le_trans List.countP_le_length (f.length_follow_le ms)

/-- A shop in which nobody is at work yet. The identifiers in use are not above those that were
drawn last, behind which the sequences go on. -/
structure Shop.Opened (shop : Shop) (medium : Medium) (t : Tables) (last : Series → Nat) :
    Prop where
  store : shop.store = t.keptIn medium
  locks : shop.locks = .empty
  keyed : t.Keyed
  next : ∀ s, shop.sequences.next s = .ofNat (last s + 1)
  used : ∀ s id, t.uses s id → id.toNat ≤ last s

/-- A store without rows can be opened. -/
theorem Shop.opened_empty (medium : Medium) (lockWait : Nat) (clock : Instant) :
    (Shop.opened (.empty medium) .fresh lockWait clock).Opened medium .empty fun _ => 0 where
  store := (Tables.keptIn_empty medium).symm
  locks := rfl
  keyed := .empty
  next s := by cases s <;> rfl
  used s id hused := by
    rw [Tables.uses_empty] at hused
    cases hused

/-- Whoever comes keeps to the policy. -/
def Event.Heeded {ν ρ : Type} (p : Policy) (medium : Medium) : Event ν ρ → Prop
  | .comes _ task => task.Follows (p.discipline medium) .start fun _ _ => True
  | _ => True

namespace Floor

variable {ν ρ : Type} [DecidableEq ν] {f g : Floor ν ρ} {p : Policy} {medium : Medium}
  {t t' : Tables} {last last' : Series → Nat} {e : Event ν ρ} {events : List (Event ν ρ)}

/-- The tables after an event. -/
def performed (f : Floor ν ρ) (t : Tables) : Event ν ρ → Tables
  | .does v (.did action _) => (f.sessions v).elim t fun s => t.performed s.writes action
  | _ => t

/-- The rows after an event. -/
theorem Step.store (step : f.Step e g) (store : f.shop.store = t.keptIn medium) :
    g.shop.store = (f.performed t e).keptIn medium := by
  cases step with
  | @does v s s' deed shop present step =>
      cases step with
      | act =>
          rw [put_shop, Shop.store_perform store, performed, present, Option.elim_some]
      | _ => exact store
  | @leaves v s present =>
      rw [remove_shop, drop_eq]
      exact store
  | _ => exact store

/-- The rows are those of the tables, and everybody has in custody what fits them. -/
structure Kept (f : Floor ν ρ) (p : Policy) (medium : Medium) (t : Tables) (last : Series → Nat) :
    Prop where
  store : f.shop.store = t.keptIn medium
  keyed : t.Keyed
  serves : f.shop.locks.Serves f.claims
  counts : p.Counts t f.shop.sequences last
  sessions : ∀ v s, f.sessions v = some s → ∃ c : Custody, c.writes = s.writes ∧
    p.Fits medium t last c ∧ s.Follows (p.discipline medium) c fun _ _ => True
  /-- No two sessions have drawn the same identifier. -/
  apart : ∀ v w s u, v ≠ w → f.sessions v = some s → f.sessions w = some u → ∀ series id,
    p.watches series.table → s.writes.drew series id → u.writes.drew series id = false

namespace Kept

variable {v w : ν} {s s' u : Session ρ} {shop : Shop}

omit [DecidableEq ν] in
/-- Nobody holds the lock of a row that somebody else holds. -/
theorem locks_apart (h : f.Kept p medium t last) (hne : v ≠ w) (hv : f.sessions v = some s)
    (hw : f.sessions w = some u) (key : RowKey) (locks : s.writes.locks key) :
    u.writes.locks key = false := by
  refine Bool.eq_false_iff.2 fun locks' => hne ?_
  obtain ⟨ticket, hticket, rfl⟩ := WriteSet.locks_iff.1 locks
  obtain ⟨ticket', hticket', hkey⟩ := WriteSet.locks_iff.1 locks'
  refine h.serves.held_exclusive (t := ticket) (u := ticket') ?_ ?_ hkey.symm
  · rwa [claims_of_session hv]
  · rwa [claims_of_session hw]

omit [DecidableEq ν] in
/-- An action spares what others have in custody. -/
theorem spares (h : f.Kept p medium t last) {writes : WriteSet} {action : Action}
    {next : action.Answer → Task ρ} {c : Custody}
    (present : f.sessions v = some ⟨writes, .running (.act action next)⟩) (hne : v ≠ w)
    (hw : f.sessions w = some u) (hc : c.writes = u.writes) :
    p.Spares medium t (t.performed writes action) c := by
  obtain ⟨own, rfl, fits, permits, -⟩ := h.sessions v _ present
  refine .performed fits permits (fun key locks => ?_) fun s id watched hdrew => ?_
  · rw [hc]
    exact h.locks_apart hne present hw key locks
  · rw [hc]
    exact h.apart v w _ u hne present hw s id watched hdrew

/-- An event that is about somebody else spares what somebody has in custody. -/
theorem fits_other (h : f.Kept p medium t last) {c : Custody} (step : f.Step e g)
    (other : e.name? ≠ some w) (present : f.sessions w = some u) (hc : c.writes = u.writes)
    (fits : p.Fits medium t last c) : p.Fits medium (f.performed t e) (e.tally last) c := by
  cases step with
  | @does v s s' deed shop hv step =>
      cases step with
      | act =>
          rw [performed, hv, Option.elim_some]
          have hne : v ≠ w := fun heq => other (congrArg some heq)
          exact fits.spared (h.spares hv hne present hc) (Deed.le_tally _ last)
      | _ => exact fits.later (Deed.le_tally _ last)
  | _ => exact fits

/-- A step of a session, given what it means for the session itself and for all others. -/
theorem put (h : f.Kept p medium t last) (store : shop.store = t'.keptIn medium) (keyed : t'.Keyed)
    (serves : shop.locks.Serves (Function.update f.claims v s'.claims))
    (counts : p.Counts t' shop.sequences last')
    (own : ∃ c : Custody, c.writes = s'.writes ∧ p.Fits medium t' last' c ∧
      s'.Follows (p.discipline medium) c fun _ _ => True)
    (others : ∀ w u c, w ≠ v → f.sessions w = some u → c.writes = u.writes →
      p.Fits medium t last c → p.Fits medium t' last' c)
    (drew : ∀ w u, w ≠ v → f.sessions w = some u → ∀ series id, p.watches series.table →
      s'.writes.drew series id → u.writes.drew series id = false) :
    (f.put v shop s').Kept p medium t' last' where
  store := store
  keyed := keyed
  serves := by rwa [claims_put]
  counts := counts
  sessions w u hu := by
    by_cases hw : w = v
    · subst hw
      obtain rfl := Option.some.inj ((put_sessions_self ..).symm.trans hu)
      exact own
    · rw [put_sessions_of_ne f hw] at hu
      obtain ⟨c, hc, fits, follows⟩ := h.sessions w u hu
      exact ⟨c, hc, others w u c hw hu hc fits, follows⟩
  apart w x u y hne hu hy series id watched hdrew := by
    by_cases hw : w = v
    · subst hw
      obtain rfl := Option.some.inj ((put_sessions_self ..).symm.trans hu)
      rw [put_sessions_of_ne f hne.symm] at hy
      exact drew x y hne.symm hy series id watched hdrew
    · rw [put_sessions_of_ne f hw] at hu
      by_cases hx : x = v
      · subst hx
        obtain rfl := Option.some.inj ((put_sessions_self ..).symm.trans hy)
        refine Bool.eq_false_iff.2 fun hdrew' => ?_
        rw [drew w u hw hu series id watched hdrew'] at hdrew
        cases hdrew
      · rw [put_sessions_of_ne f hx] at hy
        exact h.apart w x u y hne hu hy series id watched hdrew

/-- An action. -/
theorem act (h : f.Kept p medium t last) (sound : p.Sound medium) {writes : WriteSet}
    {action : Action} {next : action.Answer → Task ρ}
    (present : f.sessions v = some ⟨writes, .running (.act action next)⟩)
    (few : ∀ s, (Deed.did action (f.shop.perform writes action).1).tally last s < UInt64.size) :
    (f.put v (f.shop.perform writes action).2.1 ⟨(f.shop.perform writes action).2.2,
      .running (next (f.shop.perform writes action).1)⟩).Kept p medium
      (t.performed writes action)
      ((Deed.did action (f.shop.perform writes action).1).tally last) := by
  have serves := serves_session h.serves present .act
  obtain ⟨c, rfl, fits, permits, goes⟩ := h.sessions v _ present
  have follows := goes _ _ ⟨f.shop, t, last, h.store, h.keyed, fits, rfl, rfl⟩
  refine h.put (Shop.store_perform h.store _ _) (h.keyed.performed fits.keyed action) serves
    (h.counts.performed fits permits) ⟨_, p.writes_after medium t c f.shop action,
      fits.act sound h.keyed h.store h.counts permits few, follows⟩ ?_ ?_
  · intro w u c' hw hu hc' fits'
    exact fits'.spared (h.spares present (Ne.symm hw) hu hc') (Deed.le_tally _ last)
  · intro w u hw hu series id watched hdrew
    rcases h.counts.drew_perform few watched hdrew with hold | ⟨hlast, -⟩
    · exact h.apart v w _ u (Ne.symm hw) present hu series id watched hold
    · refine Bool.eq_false_iff.2 fun hdrew' => ?_
      obtain ⟨c', hc', fits', -⟩ := h.sessions w u hu
      have := fits'.drawn series id watched (hc' ▸ hdrew')
      omega

/-- What a session does by going on with a row, asking for one, being granted one or giving up. -/
theorem wait (h : f.Kept p medium t last) (present : f.sessions v = some s)
    (store : shop.store = f.shop.store) (sequences : shop.sequences = f.shop.sequences)
    (serves : shop.locks.Serves (Function.update f.claims v s'.claims))
    (own : ∀ c : Custody, c.writes = s.writes → p.Fits medium t last c →
      s.Follows (p.discipline medium) c (fun _ _ => True) → ∃ c' : Custody,
        c'.writes = s'.writes ∧ p.Fits medium t last c' ∧
          s'.Follows (p.discipline medium) c' fun _ _ => True)
    (drew : ∀ series id, s'.writes.drew series id = s.writes.drew series id) :
    (f.put v shop s').Kept p medium t last := by
  obtain ⟨c, hc, fits, follows⟩ := h.sessions v s present
  refine h.put (store.trans h.store) h.keyed serves (sequences ▸ h.counts) (own c hc fits follows)
    (fun w u c' _ _ _ => id) fun w u hw hu series id watched hdrew => ?_
  rw [drew] at hdrew
  exact h.apart v w s u (Ne.symm hw) present hu series id watched hdrew

theorem does (h : f.Kept p medium t last) (sound : p.Sound medium) {deed : Deed}
    (present : f.sessions v = some s) (step : Session.Step f.shop s deed shop s')
    (few : ∀ s, deed.tally last s < UInt64.size) :
    (f.put v shop s').Kept p medium (f.performed t (.does v deed)) (deed.tally last) := by
  have serves := serves_session h.serves present step
  cases step with
  | act =>
      rw [performed, present, Option.elim_some]
      exact h.act sound present few
  | pass holds =>
      exact h.wait present rfl rfl serves
        (fun c hc fits follows => ⟨c, hc, fits, follows true c (.inl ⟨by rwa [hc], rfl⟩)⟩)
        fun _ _ => rfl
  | ask holds =>
      exact h.wait present rfl rfl serves (fun c hc fits follows => ⟨c, hc, fits, follows⟩)
        fun _ _ => rfl
  | @take writes ticket deadline next locks granted =>
      refine h.wait present rfl rfl serves (fun c hc fits follows =>
        ⟨_, ?_, fits.hold ticket, follows true _ (.inr ⟨ticket, rfl, rfl⟩)⟩) fun series _ => ?_
      · rw [hc]
      · cases series <;> rfl
  | giveUp =>
      exact h.wait present rfl rfl serves
        (fun c hc fits follows => ⟨c, hc, fits, follows false c rfl⟩) fun _ _ => rfl

theorem comes (h : f.Kept p medium t last) {task : Task ρ} (absent : f.sessions v = none)
    (heeded : task.Follows (p.discipline medium) .start fun _ _ => True) :
    (f.put v f.shop (.start task)).Kept p medium t last := by
  have hv : f.claims v = .none := by rw [claims, absent, Option.elim_none]
  refine h.put h.store h.keyed ?_ h.counts ⟨.start, rfl, .start, heeded⟩ (fun _ _ _ _ _ _ => id)
    fun _ _ _ _ series id _ hdrew => ?_
  · rw [Session.claims_start, update_claims hv]
    exact h.serves
  · rw [Session.start, WriteSet.drew_empty] at hdrew
    cases hdrew

theorem leaves (h : f.Kept p medium t last) (present : f.sessions v = some s) :
    (f.remove v (s.drop f.shop)).Kept p medium t last := by
  have serves := (Step.leaves present).serves h.serves
  have hshop := drop_eq f.shop s
  have others : ∀ w u, (f.remove v (s.drop f.shop)).sessions w = some u →
      f.sessions w = some u := by
    intro w u hu
    by_cases hw : w = v
    · subst hw
      cases (remove_sessions_self ..).symm.trans hu
    · rwa [remove_sessions_of_ne f hw] at hu
  constructor
  case store => rw [remove_shop, hshop]; exact h.store
  case keyed => exact h.keyed
  case serves => exact serves
  case counts => rw [remove_shop, hshop]; exact h.counts
  case sessions => exact fun w u hu => h.sessions w u (others w u hu)
  case apart =>
    exact fun w x u y hne hu hy => h.apart w x u y hne (others w u hu) (others x y hy)

/-- Every event keeps what everybody has in custody. -/
theorem step (h : f.Kept p medium t last) (sound : p.Sound medium)
    (step : f.Step e g) (heeded : e.Heeded p medium) (few : ∀ s, e.tally last s < UInt64.size) :
    g.Kept p medium (f.performed t e) (e.tally last) := by
  cases step with
  | comes absent => exact h.comes absent heeded
  | does present step => exact h.does sound present step few
  | leaves present => exact h.leaves present
  | turns => exact ⟨h.store, h.keyed, h.serves, h.counts, h.sessions, h.apart⟩

/-- Every event lets the rows go on as the policy says. -/
theorem onward (h : f.Kept p medium t last) (sound : p.Sound medium)
    (step : f.Step e g) : p.Onward t (f.performed t e) := by
  cases step with
  | @does v s s' deed shop present step =>
      cases step with
      | act =>
          obtain ⟨c, rfl, fits, permits, -⟩ := h.sessions v _ present
          rw [performed, present, Option.elim_some]
          exact .performed sound fits permits
      | _ => exact .refl sound t
  | _ => exact .refl sound t

end Kept

omit [DecidableEq ν] in
/-- When a shop is opened, nobody has anything in custody. -/
theorem kept_ofShop {shop : Shop} (h : shop.Opened medium t last) :
    (ofShop shop : Floor ν ρ).Kept p medium t last where
  store := h.store
  keyed := h.keyed
  serves := by
    rw [show (ofShop shop : Floor ν ρ).shop.locks = .empty from h.locks]
    exact .empty
  counts := ⟨fun s _ => h.next s, fun s id _ => h.used s id⟩
  sessions v s present := by cases present
  apart v w s u _ present := by cases present

/-- In every run of those who keep to a policy the committed rows go on as it says. -/
theorem Run.kept (run : f.Run events g) (sound : p.Sound medium) (h : f.Kept p medium t last)
    (heeded : ∀ e ∈ events, e.Heeded p medium)
    (few : ∀ s, last s + draws events s < UInt64.size) :
    ∃ t', g.Kept p medium t' (fun s => last s + draws events s) ∧ p.Onward t t' := by
  induction run with
  | nil => exact ⟨t, h, .refl sound t⟩
  | @snoc events g g' e run step ih =>
      rw [List.forall_mem_append] at heeded
      obtain ⟨t', kept, onward⟩ := ih heeded.1 (few_of_append few).1
      refine ⟨g.performed t' e, ?_, onward.trans sound (kept.onward sound step)⟩
      rw [← Event.tally_draws]
      refine kept.step sound step (heeded.2 e List.mem_cons_self) ?_
      rwa [Event.tally_draws]

end Floor

end RentalDesk
