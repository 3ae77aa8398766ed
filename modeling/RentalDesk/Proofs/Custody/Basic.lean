import RentalDesk.Proofs.Chronicle
import RentalDesk.Proofs.Discipline
import RentalDesk.Proofs.Keeping
import RentalDesk.Proofs.Records

/-!
# Custody of rows

A policy says which tables are watched, how a committed row of theirs may go on, and what may be
staged and committed for it. Whoever keeps to a policy has rows in custody: the rows that he has
staged and inserted, and those that he has looked at under their locks. What is in custody is as it
was found as long as the others spare it, and an action of somebody who keeps to the policy spares
what the others have in custody, whatever the medium is.
-/

namespace RentalDesk

/-- The table that a series numbers. -/
def Series.table : Series → TableName
  | .rentals => .rentals
  | .fees => .fees
  | .invoices => .invoices

/-- What somebody who is at work has in custody. -/
structure Custody where
  writes : WriteSet
  /-- The rows that were looked at under their locks, as they were found. -/
  known : List (RowKey × Option Row)
  /-- Whether the staged rows are visible already. -/
  ended : Bool

/-- Nothing is in custody yet. -/
def Custody.start : Custody := ⟨.empty, [], false⟩

/-- What is watched, and what is asked of those who write it. -/
structure Policy where
  watches : TableName → Bool
  /-- How a committed row may go on. -/
  continues : Row → Row → Prop
  stages : Custody → Row → Prop
  commits : WriteSet → Prop

/-- The tables after an action of a transaction. -/
def Tables.performed (t : Tables) (writes : WriteSet) : Action → Tables
  | .apply => t.merge writes.staged
  | .placeItem item => t.putItem item
  | .registerItem item => if (t.items.get? item.id).isSome then t else t.putItem item
  | _ => t

theorem Shop.store_perform {shop : Shop} {t : Tables} {medium : Medium}
    (store : shop.store = t.keptIn medium) (writes : WriteSet) (action : Action) :
    (shop.perform writes action).2.1.store = (t.performed writes action).keptIn medium := by
  cases action
  case apply => simp only [perform, Tables.performed, store, Tables.apply_keptIn]
  case placeItem item => simp only [perform, Tables.performed, store, Tables.putItem_keptIn]
  case registerItem item =>
      simp only [perform, Tables.performed, store, Tables.item?_keptIn]
      cases t.items.get? item.id with
      | none => exact t.putItem_keptIn medium item
      | some row => exact store
  case updateItem item => simpa only [perform, staged_shop, Tables.performed] using store
  case updateRental rental => simpa only [perform, staged_shop, Tables.performed] using store
  case updateFee fee => simpa only [perform, staged_shop, Tables.performed] using store
  all_goals exact store

theorem Shop.writes_registerItem (shop : Shop) (writes : WriteSet) (item : Item) :
    (shop.perform writes (.registerItem item)).2.2 = writes := by
  simp only [perform]
  split <;> rfl

namespace Tables

variable {t staged : Tables}

@[simp] theorem uses_merge (t staged : Tables) (s : Series) (id : UInt64) :
    (t.merge staged).uses s id = (staged.uses s id || t.uses s id) := by
  cases s <;> simp [uses, merge]

theorem row?_item_of_new {item : ItemId} (new : ¬(t.items.get? item).isSome = true) :
    t.row? (.item item) = none := by
  rw [row?, Option.not_isSome_iff_eq_none.1 new, Option.map_none]

theorem Keyed.merge (h : t.Keyed) (hstaged : staged.Keyed) : (t.merge staged).Keyed := by
  intro key row hrow
  rw [row?_merge, Option.or_eq_some_iff] at hrow
  rcases hrow with hrow | ⟨-, hrow⟩
  · exact hstaged key row hrow
  · exact h key row hrow

theorem Keyed.performed (h : t.Keyed) {writes : WriteSet} (hstaged : writes.staged.Keyed)
    (action : Action) : (t.performed writes action).Keyed := by
  cases action
  case apply => exact h.merge hstaged
  case placeItem item => exact h.putItem item
  case registerItem item =>
      rw [Tables.performed]
      split
      · exact h
      · exact h.putItem item
  all_goals exact h

end Tables

namespace Policy

variable (p : Policy) (medium : Medium) (t : Tables)

/-- The row under the key is known from now on, if nobody else can change it: if it is locked, and
is there or could only come under this lock. -/
def learn (key : RowKey) (c : Custody) : Custody :=
  if p.watches key.tableName ∧ c.writes.locks key ∧
      ((t.row? key).isSome ∨ medium = .archive ∧ key.tableName = .items) then
    { c with known := (key, t.row? key) :: c.known }
  else c

/-- What is in custody after an action that leaves the given write set. -/
def after (c : Custody) (writes : WriteSet) : Action → Custody
  | .look (.item id) | .readItem id => p.learn medium t (.item id) c
  | .readRental id => p.learn medium t (.rental id) c
  | .readFee id => p.learn medium t (.fee id) c
  | .apply | .placeItem _ => ⟨writes, [], true⟩
  | .release | .discard => .start
  | _ => { c with writes }

@[simp] theorem after_lookItem (c : Custody) (writes : WriteSet) (id : ItemId) :
    p.after medium t c writes (.look (.item id)) = p.learn medium t (.item id) c := rfl

@[simp] theorem after_readItem (c : Custody) (writes : WriteSet) (id : ItemId) :
    p.after medium t c writes (.readItem id) = p.learn medium t (.item id) c := rfl

@[simp] theorem after_readRental (c : Custody) (writes : WriteSet) (id : RentalId) :
    p.after medium t c writes (.readRental id) = p.learn medium t (.rental id) c := rfl

@[simp] theorem after_readFee (c : Custody) (writes : WriteSet) (id : FeeId) :
    p.after medium t c writes (.readFee id) = p.learn medium t (.fee id) c := rfl

@[simp] theorem writes_learn (key : RowKey) (c : Custody) :
    (p.learn medium t key c).writes = c.writes := by
  rw [learn]
  split <;> rfl

@[simp] theorem ended_learn (key : RowKey) (c : Custody) :
    (p.learn medium t key c).ended = c.ended := by
  rw [learn]
  split <;> rfl

theorem writes_after (c : Custody) (shop : Shop) (action : Action) :
    (p.after medium t c (shop.perform c.writes action).2.2 action).writes =
      (shop.perform c.writes action).2.2 := by
  cases action
  case look what =>
      cases what
      case item id => exact p.writes_learn medium t (.item id) c
      all_goals rfl
  case readItem id => exact p.writes_learn medium t (.item id) c
  case readRental id => exact p.writes_learn medium t (.rental id) c
  case readFee id => exact p.writes_learn medium t (.fee id) c
  all_goals rfl

/-- What may be done. After a commit all locks are given back. -/
def Permits (c : Custody) : Action → Prop
  | .release | .discard => True
  | .updateItem row => c.ended = false ∧ p.stages c (.item row)
  | .updateRental row => c.ended = false ∧ p.stages c (.rental row)
  | .updateFee row => c.ended = false ∧ p.stages c (.fee row)
  | .apply => c.ended = false ∧ p.commits c.writes
  | .placeItem row => c.ended = false ∧ medium = .archive ∧
      (p.watches .items → (.item row.id, none) ∈ c.known)
  | .registerItem _ => c.ended = false ∧ (p.watches .items → medium = .memory)
  | _ => c.ended = false

/-- What is in custody fits the committed rows, and `last` are the identifiers that were drawn
last. -/
structure Fits (last : Series → Nat) (c : Custody) : Prop where
  covered : c.writes.Covered
  keyed : c.writes.staged.Keyed
  staged : c.ended = false → ∀ key row, c.writes.staged.row? key = some row →
    p.watches key.tableName → key ∈ c.writes.inserted ∨
      ∃ old, t.row? key = some old ∧ p.continues old row
  known : ∀ key found, (key, found) ∈ c.known → p.watches key.tableName ∧ c.writes.locks key ∧
    t.row? key = found ∧ (found.isSome ∨ medium = .archive ∧ key.tableName = .items)
  fresh : c.ended = false → ∀ s id, p.watches s.table → c.writes.drew s id → t.uses s id = false
  drawn : ∀ s id, p.watches s.table → c.writes.drew s id → id.toNat ≤ last s

/-- The discipline of those who keep to the policy. -/
def discipline : Discipline Custody where
  permits c action := p.Permits medium c action
  answers c action answer c' := ∃ (shop : Shop) (t : Tables) (last : Series → Nat),
    shop.store = t.keptIn medium ∧ t.Keyed ∧ p.Fits medium t last c ∧
    answer = (shop.perform c.writes action).1 ∧
    c' = p.after medium t c (shop.perform c.writes action).2.2 action
  grants c key granted c' := match granted with
    | true => (c.writes.holds key ∧ c' = c) ∨
      ∃ ticket, ticket.key = key ∧ c' = { c with writes := c.writes.hold ticket }
    | false => c' = c

/-- The policy achieves what it is for: rows go on as they may, whatever is staged. The fee that a
staged one takes the place of keeps its settlement. -/
structure Sound : Prop where
  refl : ∀ row, p.continues row row
  trans : ∀ {a b c}, p.continues a b → p.continues b c → p.continues a c
  stages : ∀ {t last c row}, p.Fits medium t last c → t.Keyed → c.ended = false →
    p.watches row.key.tableName → p.stages c row →
    (∀ fee, row = .fee fee →
      ((c.writes.staged.fees.get? fee.id).or ((t.fees.get? fee.id).map medium.fee)).any
        (WriteSet.altersSettlement · fee) = false) →
    row.key ∈ c.writes.inserted ∨ ∃ old, t.row? row.key = some old ∧ p.continues old row

/-- Whatever changes, it spares what is in custody. -/
structure Spares (t t' : Tables) (c : Custody) : Prop where
  row : ∀ key, p.watches key.tableName → c.writes.locks key → (t.row? key).isSome →
    t'.row? key = t.row? key
  item : medium = .archive → ∀ key, p.watches key.tableName → c.writes.locks key →
    key.tableName = .items → t'.row? key = t.row? key
  fresh : c.ended = false → ∀ s id, p.watches s.table → c.writes.drew s id →
    t.uses s id = false → t'.uses s id = false

namespace Fits

variable {p : Policy} {medium : Medium} {t t' : Tables} {last last' : Series → Nat} {c c' : Custody}

theorem start : p.Fits medium t last .start where
  covered := .empty
  keyed := .empty
  staged _ key row hrow := by simp [Custody.start, WriteSet.empty] at hrow
  known key found hfound := by simp [Custody.start] at hfound
  fresh _ s id _ hdrew := by simp [Custody.start] at hdrew
  drawn s id _ hdrew := by simp [Custody.start] at hdrew

/-- A row that is there was not inserted by somebody who has not committed yet. -/
theorem not_inserted (h : p.Fits medium t last c) (working : c.ended = false) {key : RowKey}
    (watched : p.watches key.tableName) (present : (t.row? key).isSome) :
    key ∉ c.writes.inserted := by
  intro hinserted
  cases key with
  | item id => exact h.covered.inserted id hinserted
  | rental id =>
      have hfresh := h.fresh working .rentals id watched (by simpa [WriteSet.drew] using hinserted)
      rw [Tables.uses_rentals.2 present] at hfresh
      cases hfresh
  | fee id =>
      have hfresh := h.fresh working .fees id watched (by simpa [WriteSet.drew] using hinserted)
      rw [Tables.uses_fees.2 present] at hfresh
      cases hfresh

/-- What is staged for a row that is there is staged under its lock. -/
theorem locks_of_staged (h : p.Fits medium t last c) (working : c.ended = false) {key : RowKey}
    {row : Row} (hrow : c.writes.staged.row? key = some row) (watched : p.watches key.tableName)
    (present : (t.row? key).isSome) : c.writes.locks key :=
  (WriteSet.holds_iff.1 (h.covered.staged key row hrow)).resolve_right
    (h.not_inserted working watched present)

/-- An identifier that is staged was drawn or is in use. -/
theorem uses_staged (h : p.Fits medium t last c) (working : c.ended = false) {s : Series}
    {id : UInt64} (watched : p.watches s.table) (hstaged : c.writes.staged.uses s id) :
    c.writes.drew s id ∨ t.uses s id := by
  have there : ∀ key row, p.watches key.tableName → c.writes.staged.row? key = some row →
      key ∈ c.writes.inserted ∨ (t.row? key).isSome := by
    intro key row hkey hrow
    refine (h.staged working key row hrow hkey).imp_right ?_
    rintro ⟨old, hold, -⟩
    rw [hold]
    rfl
  cases s with
  | rentals =>
      obtain ⟨row, hrow⟩ := Option.isSome_iff_exists.1 (Tables.uses_rentals.1 hstaged)
      exact (there (.rental id) row watched hrow).imp (by simp [WriteSet.drew])
        Tables.uses_rentals.2
  | fees =>
      obtain ⟨row, hrow⟩ := Option.isSome_iff_exists.1 (Tables.uses_fees.1 hstaged)
      exact (there (.fee id) row watched hrow).imp (by simp [WriteSet.drew]) Tables.uses_fees.2
  | invoices => exact .inl hstaged

theorem spared (h : p.Fits medium t last c) (spares : p.Spares medium t t' c)
    (hlast : ∀ s, last s ≤ last' s) : p.Fits medium t' last' c where
  covered := h.covered
  keyed := h.keyed
  staged working key row hrow watched := by
    refine (h.staged working key row hrow watched).imp_right ?_
    rintro ⟨old, hold, continues⟩
    have present : (t.row? key).isSome := by rw [hold]; rfl
    have locks := h.locks_of_staged working hrow watched present
    exact ⟨old, (spares.row key watched locks present).trans hold, continues⟩
  known key found hmem := by
    obtain ⟨watched, locks, hfound, lasting⟩ := h.known key found hmem
    refine ⟨watched, locks, ?_, lasting⟩
    rcases lasting with present | ⟨hmedium, hitem⟩
    · exact (spares.row key watched locks (hfound ▸ present)).trans hfound
    · exact (spares.item hmedium key watched locks hitem).trans hfound
  fresh working s id watched hdrew :=
    spares.fresh working s id watched hdrew (h.fresh working s id watched hdrew)
  drawn s id watched hdrew := Nat.le_trans (h.drawn s id watched hdrew) (hlast s)

end Fits

namespace Spares

variable {p : Policy} {medium : Medium} {t : Tables} {last : Series → Nat} {c c' : Custody}

theorem refl : p.Spares medium t t c :=
  ⟨fun _ _ _ _ => rfl, fun _ _ _ _ _ => rfl, fun _ _ _ _ _ => id⟩

/-- A new item spares whoever has not locked it. -/
theorem putItem {item : Item} (new : p.watches .items → t.row? (.item item.id) = none)
    (free : medium = .archive → p.watches .items → c.writes.locks (.item item.id) = false) :
    p.Spares medium t (t.putItem item) c where
  row key watched locks present := by
    rw [Tables.row?_putItem, if_neg]
    rintro rfl
    rw [new watched] at present
    cases present
  item hmedium key watched locks hitem := by
    rw [Tables.row?_putItem, if_neg]
    rintro rfl
    rw [free hmedium watched] at locks
    cases locks
  fresh working s id watched hdrew unused := by rwa [Tables.uses_putItem]

/-- A commit spares whoever has locked and drawn other rows. -/
theorem merge (h : p.Fits medium t last c) (working : c.ended = false)
    (locks : ∀ key, c.writes.locks key → c'.writes.locks key = false)
    (drew : ∀ s id, p.watches s.table → c.writes.drew s id → c'.writes.drew s id = false) :
    p.Spares medium t (t.merge c.writes.staged) c' where
  row key watched hlocks present := by
    rw [Tables.row?_merge]
    cases hrow : c.writes.staged.row? key with
    | none => rfl
    | some row =>
        rw [locks key (h.locks_of_staged working hrow watched present)] at hlocks
        cases hlocks
  item hmedium key watched hlocks hitem := by
    rw [Tables.row?_merge]
    cases hrow : c.writes.staged.row? key with
    | none => rfl
    | some row =>
        have holds := h.covered.staged key row hrow
        cases key with
        | item id =>
            have own := (WriteSet.holds_iff.1 holds).resolve_right (h.covered.inserted id)
            rw [locks _ own] at hlocks
            cases hlocks
        | rental id => cases hitem
        | fee id => cases hitem
  fresh _ s id watched hdrew unused := by
    rw [Tables.uses_merge, unused, Bool.or_false]
    refine Bool.eq_false_iff.2 fun hstaged => ?_
    rcases h.uses_staged working watched hstaged with hown | hused
    · rw [drew s id watched hown] at hdrew
      cases hdrew
    · rw [unused] at hused
      cases hused

/-- So does a registration, where nobody has to lock items. -/
theorem registerItem {item : Item} (new : ¬(t.items.get? item.id).isSome = true)
    (memory : p.watches .items → medium = .memory) : p.Spares medium t (t.putItem item) c := by
  refine putItem (fun _ => Tables.row?_item_of_new new) fun archive watched => ?_
  cases archive.symm.trans (memory watched)

/-- An action of somebody who keeps to the policy spares what others have in custody. -/
theorem performed (h : p.Fits medium t last c) {action : Action}
    (permits : p.Permits medium c action)
    (locks : ∀ key, c.writes.locks key → c'.writes.locks key = false)
    (drew : ∀ s id, p.watches s.table → c.writes.drew s id → c'.writes.drew s id = false) :
    p.Spares medium t (t.performed c.writes action) c' := by
  cases action
  case apply => exact merge h permits.1 locks drew
  case placeItem item =>
      obtain ⟨-, -, known⟩ := permits
      refine putItem (fun watched => ?_) fun _ watched => ?_
      · exact (h.known _ _ (known watched)).2.2.1
      · exact locks _ (h.known _ _ (known watched)).2.1
  case registerItem item =>
      rw [Tables.performed]
      split
      · exact refl
      · next new => exact registerItem new permits.2
  all_goals exact refl

end Spares

end Policy

/-- The numbers of the identifiers that were drawn last, after a deed. -/
def Deed.tally (deed : Deed) (last : Series → Nat) (s : Series) : Nat :=
  if deed.draws? = some s then last s + 1 else last s

theorem Deed.le_tally (deed : Deed) (last : Series → Nat) (s : Series) :
    last s ≤ deed.tally last s := by
  rw [tally]
  split <;> omega

theorem Shop.keyed_perform {writes : WriteSet} (h : writes.staged.Keyed) (shop : Shop)
    (action : Action) : (shop.perform writes action).2.2.staged.Keyed := by
  cases action
  case insertRental row => exact h.putRental _
  case insertFee row => exact h.putFee _
  case insertInvoice row => exact h.putInvoice _
  case updateItem row =>
      refine staged_cases (P := fun _ w => w.staged.Keyed) (fun w hw => ?_) h
      obtain ⟨-, rfl⟩ := WriteSet.stageItem_eq_ok hw
      exact h.putItem row
  case updateRental row =>
      refine staged_cases (P := fun _ w => w.staged.Keyed) (fun w hw => ?_) h
      obtain ⟨-, rfl⟩ := WriteSet.stageRental_eq_ok hw
      exact h.putRental row
  case updateFee row =>
      refine staged_cases (P := fun _ w => w.staged.Keyed) (fun w hw => ?_) h
      obtain ⟨_, -, hw⟩ := stageFee_of_bind hw
      obtain ⟨-, rfl⟩ := WriteSet.stageFee_eq_ok hw
      exact h.putFee row
  case release => exact .empty
  case discard => exact .empty
  case registerItem item =>
      simp only [perform]
      split <;> exact h
  all_goals exact h

/-- A fee that is staged keeps the settlement of the one that it takes the place of. -/
theorem WriteSet.kept_of_stageFee {w w' : WriteSet} {fee : Fee} {committed : Option Fee}
    (h : w.stageFee fee committed = .ok w') :
    ((w.staged.fees.get? fee.id).or committed).any (altersSettlement · fee) = false := by
  rw [stageFee_eq] at h
  split at h
  · split at h
    · cases h
    · next hkept => exact Bool.eq_false_iff.2 hkept
  · cases h

namespace Policy

/-- The identifiers in use are among those that were drawn, and the sequences go on behind them. -/
structure Counts (p : Policy) (t : Tables) (sequences : Sequences) (last : Series → Nat) :
    Prop where
  next : ∀ s, p.watches s.table → sequences.next s = .ofNat (last s + 1)
  used : ∀ s id, p.watches s.table → t.uses s id → id.toNat ≤ last s

section

variable {p : Policy} {medium : Medium} {t : Tables} {last last' : Series → Nat} {c : Custody}
  {shop : Shop} {action : Action}

/-- The identifier that is drawn next is the one behind those that were drawn. -/
theorem Counts.toNat_next (h : p.Counts t shop.sequences last) {s : Series}
    (watched : p.watches s.table) (few : last s + 1 < UInt64.size) :
    (shop.sequences.next s).toNat = last s + 1 := by
  rw [h.next s watched, UInt64.toNat_ofNat_of_lt' few]

theorem Counts.unused_next (h : p.Counts t shop.sequences last) {s : Series}
    (watched : p.watches s.table) (few : last s + 1 < UInt64.size) :
    t.uses s (shop.sequences.next s) = false := by
  refine Bool.eq_false_iff.2 fun hused => ?_
  have := h.used s _ watched hused
  rw [h.toNat_next watched few] at this
  omega

namespace Fits

theorem later (h : p.Fits medium t last c) (hlast : ∀ s, last s ≤ last' s) :
    p.Fits medium t last' c := h.spared .refl hlast

theorem withWrites (h : p.Fits medium t last c) {w : WriteSet} (covered : w.Covered)
    (keyed : w.staged.Keyed) (locks : ∀ key, c.writes.locks key → w.locks key)
    (staged : c.ended = false → ∀ key row, w.staged.row? key = some row →
      p.watches key.tableName → key ∈ w.inserted ∨ ∃ old, t.row? key = some old ∧
        p.continues old row)
    (drew : ∀ s id, p.watches s.table → w.drew s id →
      c.writes.drew s id ∨ t.uses s id = false ∧ id.toNat ≤ last' s)
    (hlast : ∀ s, last s ≤ last' s) : p.Fits medium t last' { c with writes := w } where
  covered := covered
  keyed := keyed
  staged := staged
  known key found hmem := by
    obtain ⟨watched, hlocks, hfound⟩ := h.known key found hmem
    exact ⟨watched, locks key hlocks, hfound⟩
  fresh working s id watched hdrew := by
    rcases drew s id watched hdrew with hold | ⟨unused, -⟩
    · exact h.fresh working s id watched hold
    · exact unused
  drawn s id watched hdrew := by
    rcases drew s id watched hdrew with hold | ⟨-, hnumber⟩
    · exact Nat.le_trans (h.drawn s id watched hold) (hlast s)
    · exact hnumber

theorem hold (h : p.Fits medium t last c) (ticket : Ticket) :
    p.Fits medium t last { c with writes := c.writes.hold ticket } := by
  refine h.withWrites (h.covered.hold ticket) h.keyed (fun key hlocks => ?_) h.staged
    (fun s id _ hdrew => .inl ?_) fun _ => Nat.le_refl _
  · rw [WriteSet.locks_hold, hlocks, Bool.true_or]
  · cases s <;> exact hdrew

/-- What is found under a lock is known. -/
theorem learn (h : p.Fits medium t last c) (key : RowKey) :
    p.Fits medium t last (p.learn medium t key c) := by
  rw [Policy.learn]
  split
  · next hlearn =>
      obtain ⟨watched, locks, lasting⟩ := hlearn
      refine ⟨h.covered, h.keyed, h.staged, fun other found hmem => ?_, h.fresh, h.drawn⟩
      rcases List.mem_cons.1 hmem with heq | hmem
      · obtain ⟨rfl, rfl⟩ := Prod.mk.inj heq
        exact ⟨watched, locks, rfl, lasting⟩
      · exact h.known other found hmem
  · exact h

end Fits

/-- An identifier that a transaction has drawn after an action it had drawn before, or nobody uses
it. -/
theorem Counts.drew_perform (counts : p.Counts t shop.sequences last) {writes : WriteSet}
    (few : ∀ s, (Deed.did action (shop.perform writes action).1).tally last s < UInt64.size)
    {s : Series} {id : UInt64} (watched : p.watches s.table)
    (hdrew : (shop.perform writes action).2.2.drew s id) :
    writes.drew s id ∨ last s < id.toNat ∧ t.uses s id = false ∧
      id.toNat ≤ (Deed.did action (shop.perform writes action).1).tally last s := by
  rcases shop.drew_perform writes action s hdrew with ⟨hdraws, rfl⟩ | hold
  · have few := few s
    rw [Deed.tally, if_pos hdraws] at few ⊢
    rw [counts.toNat_next watched few]
    exact .inr ⟨Nat.lt_succ_self _, counts.unused_next watched few, Nat.le_refl _⟩
  · exact .inl hold

/-- The identifier that is drawn next is not staged yet. -/
theorem Counts.next_ne_staged (counts : p.Counts t shop.sequences last)
    (h : p.Fits medium t last c) (working : c.ended = false) {s : Series} {id : UInt64}
    (watched : p.watches s.table) (few : last s + 1 < UInt64.size)
    (hstaged : c.writes.staged.uses s id) : shop.sequences.next s ≠ id := by
  rintro rfl
  have hnext := counts.toNat_next watched few
  rcases h.uses_staged working watched hstaged with hdrew | hused
  · have := h.drawn s _ watched hdrew
    omega
  · have := counts.used s _ watched hused
    omega

/-- A row that was inserted is staged beside the rows that were staged before. -/
theorem Fits.staged_insert (h : p.Fits medium t last c) (working : c.ended = false)
    {w : WriteSet} {key : RowKey} {row : Row} (inserted : w.inserted = key :: c.writes.inserted)
    (put : ∀ other, w.staged.row? other =
      if other = key then some row else c.writes.staged.row? other)
    (other : RowKey) (found : Row) (hfound : w.staged.row? other = some found)
    (watched : p.watches other.tableName) :
    other ∈ w.inserted ∨ ∃ old, t.row? other = some old ∧ p.continues old found := by
  rw [put] at hfound
  rw [inserted]
  split at hfound
  · next hkey => exact .inl (hkey ▸ List.mem_cons_self)
  · exact (h.staged working other found hfound watched).imp_left (List.mem_cons_of_mem _)

/-- A row that was staged as the policy asks may go on as it does. -/
theorem Fits.staged_update (h : p.Fits medium t last c) (working : c.ended = false)
    {staged : Tables} {row : Row}
    (put : ∀ other, staged.row? other =
      if other = row.key then some row else c.writes.staged.row? other)
    (goes : p.watches row.key.tableName → row.key ∈ c.writes.inserted ∨
      ∃ old, t.row? row.key = some old ∧ p.continues old row)
    (other : RowKey) (found : Row) (hfound : staged.row? other = some found)
    (watched : p.watches other.tableName) :
    other ∈ c.writes.inserted ∨ ∃ old, t.row? other = some old ∧ p.continues old found := by
  rw [put] at hfound
  split at hfound
  · next hkey =>
      subst hkey
      obtain rfl := Option.some.inj hfound
      exact goes watched
  · exact h.staged working other found hfound watched

/-- What is in custody after a commit needs no more care. -/
theorem Fits.ending (h : p.Fits medium t last c) (t' : Tables) (hlast : ∀ s, last s ≤ last' s) :
    p.Fits medium t' last' ⟨c.writes, [], true⟩ where
  covered := h.covered
  keyed := h.keyed
  staged working := by cases working
  known key found hmem := by cases hmem
  fresh working := by cases working
  drawn s id watched hdrew := Nat.le_trans (h.drawn s id watched hdrew) (hlast s)

/-- Staging keeps what is in custody fitting, whether the row is taken or refused. -/
theorem Fits.stage (h : p.Fits medium t last c) (shop : Shop) (row : Row)
    {result : Except Error WriteSet} {staged : Tables} (keyed : staged.Keyed)
    (stages : ∀ w, result = .ok w → c.writes.holds row.key = true ∧ w = c.writes.withStaged staged)
    (put : ∀ other, staged.row? other =
      if other = row.key then some row else c.writes.staged.row? other)
    (invoices : staged.invoices = c.writes.staged.invoices)
    (goes : ∀ w, result = .ok w → c.ended = false → p.watches row.key.tableName →
      row.key ∈ c.writes.inserted ∨ ∃ old, t.row? row.key = some old ∧ p.continues old row) :
    p.Fits medium t last { c with writes := (shop.staged c.writes result).2.2 } := by
  cases result with
  | error e => exact h
  | ok w =>
      obtain ⟨holds, rfl⟩ := stages w rfl
      refine h.withWrites (WriteSet.covered_of_put h.covered holds put) keyed (fun _ => id)
        (fun working => h.staged_update working put (goes _ rfl working))
        (fun s id _ hdrew => .inl ?_) fun _ => Nat.le_refl _
      rwa [Shop.staged, WriteSet.drew_withStaged invoices] at hdrew

/-- Whoever does what the policy permits has in custody what fits the rows afterwards. -/
theorem Fits.act (h : p.Fits medium t last c) (sound : p.Sound medium) (keyed : t.Keyed)
    (store : shop.store = t.keptIn medium) (counts : p.Counts t shop.sequences last)
    (permits : p.Permits medium c action)
    (few : ∀ s, (Deed.did action (shop.perform c.writes action).1).tally last s < UInt64.size) :
    p.Fits medium (t.performed c.writes action)
      ((Deed.did action (shop.perform c.writes action).1).tally last)
      (p.after medium t c (shop.perform c.writes action).2.2 action) := by
  have hlast := (Deed.did action (shop.perform c.writes action).1).le_tally last
  have covered : (shop.perform c.writes action).2.2.Covered := Shop.covered_perform h.covered action
  have hkeyed := shop.keyed_perform h.keyed action
  have drew := fun s id (watched : p.watches s.table)
      (hdrew : (shop.perform c.writes action).2.2.drew s id) =>
    (counts.drew_perform few watched hdrew).imp_right And.right
  cases action
  case look what =>
      cases what
      case item id => exact (h.learn (.item id)).later hlast
      all_goals exact h.later hlast
  case readItem id => exact (h.learn (.item id)).later hlast
  case readRental id => exact (h.learn (.rental id)).later hlast
  case readFee id => exact (h.learn (.fee id)).later hlast
  case insertRental row =>
      exact h.withWrites covered hkeyed (fun _ => id)
        (fun working => h.staged_insert working rfl (c.writes.staged.row?_putRental _)) drew hlast
  case insertFee row =>
      exact h.withWrites covered hkeyed (fun _ => id)
        (fun working => h.staged_insert working rfl (c.writes.staged.row?_putFee _)) drew hlast
  case insertInvoice row =>
      exact h.withWrites covered hkeyed (fun _ => id) h.staged drew hlast
  case updateItem row =>
      refine (h.stage shop (.item row) (h.keyed.putItem row)
        (fun _ => WriteSet.stageItem_eq_ok) (c.writes.staged.row?_putItem row) rfl
        fun _ _ working watched => ?_).later hlast
      exact sound.stages h keyed working watched permits.2 nofun
  case updateRental row =>
      refine (h.stage shop (.rental row) (h.keyed.putRental row)
        (fun _ => WriteSet.stageRental_eq_ok) (c.writes.staged.row?_putRental row) rfl
        fun _ _ working watched => ?_).later hlast
      exact sound.stages h keyed working watched permits.2 nofun
  case updateFee row =>
      refine (h.stage shop (.fee row) (h.keyed.putFee row) (fun w hw => ?_)
        (c.writes.staged.row?_putFee row) rfl fun w hw working watched => ?_).later hlast
      · obtain ⟨_, -, hw⟩ := Shop.stageFee_of_bind hw
        exact WriteSet.stageFee_eq_ok hw
      · obtain ⟨committed, hread, hw⟩ := Shop.stageFee_of_bind hw
        rw [store, Tables.fee?_keptIn] at hread
        obtain rfl := Except.ok.inj hread
        refine sound.stages h keyed working watched permits.2 ?_
        intro fee hfee
        obtain rfl := Row.fee.inj hfee
        exact WriteSet.kept_of_stageFee hw
  case apply => exact h.ending _ hlast
  case placeItem item => exact h.ending _ hlast
  case release => exact .start
  case discard => exact .start
  case registerItem item =>
      change p.Fits _ _ _ { c with writes := (shop.perform c.writes (.registerItem item)).2.2 }
      rw [shop.writes_registerItem, Tables.performed]
      split
      · exact h.later hlast
      · next new => exact h.spared (.registerItem new permits.2) hlast
  all_goals exact h.later hlast

end

end Policy

end RentalDesk
