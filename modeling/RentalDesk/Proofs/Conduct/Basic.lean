import RentalDesk.Proofs.Chronicle
import RentalDesk.Proofs.Discipline

/-!
# The conduct of a visit

What a visit relies on and what it promises, without a look at the other visits. It relies on the
rows that it has read under their locks: whatever the others do, these rows stay as they are. It
promises to commit only what the verdict on the present rows commits, and to end with the outcome
of that verdict. If it commits nothing, it ends with the outcome of the verdict on rows that it has
seen, unless a store call failed or a row was refused.
-/

namespace RentalDesk

/-- Where a visit stands. The known rows were read under their locks, the seen tables are those that
anything was read from, and the promise is the outcome that was committed. -/
structure Standing where
  writes : WriteSet
  diary : Diary
  known : List Row
  seen : List Tables
  promise : Option Outcome

/-- Whether the error is a store call that failed or a row that was refused. -/
def Error.isHindrance : Error → Bool
  | .storage (.injected _) | .lockTimeout _ => true
  | _ => false

namespace Standing

variable (s : Standing) (tariff : Tariff) (errand : Errand) (shop : Shop) (t : Tables)

@[simp] def circumstances : Circumstances := ⟨tariff, s.diary.now, s.diary.ids⟩

/-- The known rows are among the rows. -/
structure Fits : Prop where
  keyed : t.Keyed
  known : ∀ row ∈ s.known, t.row? row.key = some row

/-- The known rows after a row was read. Only a locked row stays as it is. -/
def learn (key : RowKey) : List Row :=
  if s.writes.locks key then (t.row? key).toList ++ s.known else s.known

def knownAfter : Action → List Row
  | .readItem id => s.learn t (.item id)
  | .readRental id => s.learn t (.rental id)
  | .readFee id => s.learn t (.fee id)
  | .apply | .release | .discard | .registerItem _ | .placeItem _ => []
  | _ => s.known

def seenAfter : Action → List Tables
  | .look (.item _) | .readItem _ | .readRental _ | .readFee _ | .registerItem _ => t :: s.seen
  | _ => s.seen

/-- The standing after an action on a shop with the given rows. -/
def after (action : Action) : Standing where
  writes := (shop.perform s.writes action).2.2
  diary := s.diary.note (.did action (shop.perform s.writes action).1)
  known := s.knownAfter t action
  seen := s.seenAfter t action
  promise :=
    if (Deed.did action (shop.perform s.writes action).1).commits then
      some ((s.circumstances tariff).verdict t errand).2
    else s.promise

/-- The standing after a row was granted. -/
@[simp] def hold (ticket : Ticket) : Standing := { s with writes := s.writes.hold ticket }

/-- The standing after a row was refused. -/
@[simp] def hinder : Standing := { s with diary := { s.diary with hindered := true } }

/-- The staged rows are what the verdict commits, on all rows that fit what is known. -/
structure Prepared (o : Outcome) : Prop where
  promise : s.promise = none
  drew : ∀ series ∈ errand.draws, s.writes.drew series (s.diary.ids.next series)
  verdict : ∀ t, s.Fits t →
    (s.circumstances tariff).verdict t errand = (some (t.merge s.writes.staged), o)

/-- What may be asked for. Identifiers are drawn once and before the commit. -/
def Permits : Action → Prop
  | .insertRental _ => s.promise = none ∧ .rentals ∉ s.diary.drawn
  | .insertFee _ => s.promise = none ∧ .fees ∉ s.diary.drawn
  | .insertInvoice _ => s.promise = none ∧ .invoices ∉ s.diary.drawn
  | .apply => ∃ o, s.Prepared tariff errand o
  | .registerItem item => s.promise = none ∧
      ∃ id title, item = .new id title ∧ errand = .register id title
  | .placeItem _ | .discard => False
  | _ => True

/-- The outcome is that of the verdict on rows that were seen, on which nothing is committed, or a
store call failed or a row was refused. -/
def Explains (o : Outcome) : Prop :=
  (∃ t ∈ s.seen, (s.circumstances tariff).verdict t errand = (none, o)) ∨
    s.diary.hindered = true ∧ ∃ e, e.isHindrance = true ∧ o = errand.failed e

/-- How a visit may end. -/
structure Ends (o : Outcome) : Prop where
  writes : s.writes = .empty
  promised : ∀ p, s.promise = some p → o = p
  unpromised : s.promise = none → s.Explains tariff errand o

end Standing

@[simp] theorem Standing.mem_learn {s : Standing} {t : Tables} {key : RowKey} {row : Row} :
    row ∈ s.learn t key ↔ s.writes.locks key = true ∧ t.row? key = some row ∨ row ∈ s.known := by
  rw [learn]
  split
  · next h => simp [h]
  · next h => simp [h]

/-- The conduct of a visit with an errand, among visits that may do anything but take its rows
away. -/
def Errand.conduct (errand : Errand) (tariff : Tariff) : Discipline Standing where
  permits s action := s.Permits tariff errand action
  answers s action answer s' := ∃ shop t, shop.store = .memory t ∧ s.Fits t ∧
    .hideItem ∉ shop.failing ∧ answer = (shop.perform s.writes action).1 ∧
    s' = s.after tariff errand shop t action
  grants s key granted s' := match granted with
    | true => (s.writes.holds key ∧ s' = s) ∨ ∃ ticket, ticket.key = key ∧ s' = s.hold ticket
    | false => s' = s.hinder

namespace Standing

variable {s : Standing} {tariff : Tariff} {errand : Errand} {shop : Shop} {t : Tables}

theorem promise_after_of_not_commits {action : Action}
    (h : (Deed.did action (shop.perform s.writes action).1).commits = false) :
    (s.after tariff errand shop t action).promise = s.promise :=
  if_neg (by rw [h]; exact Bool.false_ne_true)

theorem promise_after_of_commits {action : Action}
    (h : (Deed.did action (shop.perform s.writes action).1).commits = true) :
    (s.after tariff errand shop t action).promise =
      some ((s.circumstances tariff).verdict t errand).2 := if_pos h

/-- What a commit of a visit does to the rows: it makes the change of the verdict, and of the rows
that are there it touches none that the visit does not hold. -/
structure Commits (s : Standing) (tariff : Tariff) (errand : Errand) (t after : Tables)
    (o : Outcome) : Prop where
  promise : s.promise = none
  verdict : (s.circumstances tariff).verdict t errand = (some after, o)
  drew : ∀ series ∈ errand.draws, s.writes.drew series (s.diary.ids.next series)
  touches : ∀ key, after.row? key = t.row? key ∨ s.writes.holds key ∨ t.row? key = none

theorem Prepared.commits {o : Outcome} (h : s.Prepared tariff errand o)
    (covered : s.writes.Covered) (fits : s.Fits t) :
    s.Commits tariff errand t (t.merge s.writes.staged) o where
  promise := h.promise
  verdict := h.verdict t fits
  drew := h.drew
  touches key := by
    cases hrow : s.writes.staged.row? key with
    | none => exact .inl (by rw [Tables.row?_merge, hrow, Option.none_or])
    | some row => exact .inr (.inl (covered.staged key row hrow))

/-- An action either leaves the rows as they are or is a commit. -/
theorem store_perform (hstore : shop.store = .memory t) {action : Action}
    (permits : s.Permits tariff errand action) (covered : s.writes.Covered) (fits : s.Fits t) :
    ((Deed.did action (shop.perform s.writes action).1).commits = false ∧
        (shop.perform s.writes action).2.1.store = .memory t) ∨
      (Deed.did action (shop.perform s.writes action).1).commits = true ∧
        ∃ after o, s.Commits tariff errand t after o ∧
          (shop.perform s.writes action).2.1.store = .memory after := by
  cases action
  case apply =>
      obtain ⟨o, prepared⟩ := permits
      refine .inr ⟨rfl, _, o, prepared.commits covered fits, ?_⟩
      simp only [Shop.perform, hstore, Store.apply]
  case registerItem item =>
      obtain ⟨hpromise, id, title, rfl, rfl⟩ := permits
      cases hitem : t.items.get? id with
      | none =>
          rw [Shop.perform_registerItem_new hstore hitem]
          refine .inr ⟨rfl, t.putItem (.new id title), .registered (.ok true),
            ⟨hpromise, ?_, ?_, fun key => ?_⟩, rfl⟩
          · simp [Circumstances.verdict, Table.contains, hitem]
          · simp [Errand.draws]
          · rw [Tables.row?_putItem]
            split
            · next hkey =>
                subst hkey
                exact .inr (.inr (by simp [Tables.row?, Item.new, hitem]))
            · exact .inl rfl
      | some row =>
          rw [Shop.perform_registerItem_known hstore hitem]
          exact .inl ⟨rfl, hstore⟩
  case updateItem item => exact .inl ⟨rfl, by simpa [Shop.perform] using hstore⟩
  case updateRental rental => exact .inl ⟨rfl, by simpa [Shop.perform] using hstore⟩
  case updateFee fee => exact .inl ⟨rfl, by simpa [Shop.perform] using hstore⟩
  case placeItem item => exact permits.elim
  all_goals exact .inl ⟨rfl, hstore⟩

theorem mem_seenAfter {action : Action} {other : Tables} (h : other ∈ s.seenAfter t action) :
    other = t ∨ other ∈ s.seen := by
  cases action
  case look what =>
      cases what
      case item id => exact List.mem_cons.1 h
      all_goals exact .inr h
  case readItem id => exact List.mem_cons.1 h
  case readRental id => exact List.mem_cons.1 h
  case readFee id => exact List.mem_cons.1 h
  case registerItem item => exact List.mem_cons.1 h
  all_goals exact .inr h

/-- Identifiers of a series are drawn once, and before the commit. -/
theorem undrawn {action : Action} {answer : action.Answer} {series : Series}
    (permits : s.Permits tariff errand action)
    (draws : (Deed.did action answer).draws? = some series) :
    s.promise = none ∧ series ∉ s.diary.drawn := by
  cases action
  case insertRental row => exact Option.some.inj draws ▸ permits
  case insertFee row => exact Option.some.inj draws ▸ permits
  case insertInvoice row => exact Option.some.inj draws ▸ permits
  all_goals cases draws

theorem promise_perform (hstore : shop.store = .memory t) {action : Action}
    (permits : s.Permits tariff errand action) (covered : s.writes.Covered) (fits : s.Fits t)
    {t' : Tables} (hstore' : (shop.perform s.writes action).2.1.store = .memory t') :
    ((Deed.did action (shop.perform s.writes action).1).commits = false ∧ t' = t ∧
        (s.after tariff errand shop t action).promise = s.promise) ∨
      (Deed.did action (shop.perform s.writes action).1).commits = true ∧
        ∃ o, s.Commits tariff errand t t' o ∧
          (s.after tariff errand shop t action).promise = some o := by
  rcases store_perform hstore permits covered fits with
    ⟨hcommits, hsame⟩ | ⟨hcommits, after, o, commits, hafter⟩
  · exact .inl ⟨hcommits, Store.memory.inj (hstore'.symm.trans hsame),
      promise_after_of_not_commits hcommits⟩
  · obtain rfl : after = t' := Store.memory.inj (hafter.symm.trans hstore')
    refine .inr ⟨hcommits, o, commits, ?_⟩
    rw [promise_after_of_commits hcommits, commits.verdict]

/-- A visit forgets what it knows when it commits or gives its locks back. -/
theorem mem_knownAfter (shop : Shop) {action : Action} {row : Row} (h : row ∈ s.knownAfter t action)
    (keyed : t.Keyed) :
    (row ∈ s.known ∨ s.writes.locks row.key ∧ t.row? row.key = some row) ∧
      (shop.perform s.writes action).2.2.held = s.writes.held ∧
      (Deed.did action (shop.perform s.writes action).1).commits = false := by
  have learned : ∀ key, row ∈ s.learn t key →
      row ∈ s.known ∨ s.writes.locks row.key ∧ t.row? row.key = some row := by
    intro key hrow
    rcases mem_learn.1 hrow with ⟨hlocks, hkey⟩ | hknown
    · obtain rfl := keyed key row hkey
      exact .inr ⟨hlocks, hkey⟩
    · exact .inl hknown
  cases action
  case readItem id => exact ⟨learned _ h, rfl, rfl⟩
  case readRental id => exact ⟨learned _ h, rfl, rfl⟩
  case readFee id => exact ⟨learned _ h, rfl, rfl⟩
  case apply => cases h
  case release => cases h
  case discard => cases h
  case registerItem item => cases h
  case placeItem item => cases h
  case updateItem item => exact ⟨.inl h, Shop.held_staged fun w hw => by
    rw [(WriteSet.stageItem_eq_ok hw).2, WriteSet.withStaged], rfl⟩
  case updateRental rental => exact ⟨.inl h, Shop.held_staged fun w hw => by
    rw [(WriteSet.stageRental_eq_ok hw).2, WriteSet.withStaged], rfl⟩
  case updateFee fee => exact ⟨.inl h, Shop.held_staged fun w hw => by
    obtain ⟨_, -, hw⟩ := Shop.stageFee_of_bind hw
    rw [(WriteSet.stageFee_eq_ok hw).2, WriteSet.withStaged], rfl⟩
  all_goals exact ⟨.inl h, rfl, rfl⟩

/-- What a visit has done so far is consistent with the rows: it has locked the rows that it knows,
they are as it knows them, and it can write what it has staged. -/
structure Secure (s : Standing) (t : Tables) : Prop where
  fits : s.Fits t
  locked : ∀ row ∈ s.known, s.writes.locks row.key
  covered : s.writes.Covered

theorem Secure.hold (h : s.Secure t) (ticket : Ticket) : (s.hold ticket).Secure t where
  fits := ⟨h.fits.keyed, h.fits.known⟩
  locked row hrow := by
    rw [Standing.hold, WriteSet.locks_hold, h.locked row hrow, Bool.true_or]
  covered := h.covered.hold ticket

theorem Secure.hinder (h : s.Secure t) : s.hinder.Secure t :=
  ⟨⟨h.fits.keyed, h.fits.known⟩, h.locked, h.covered⟩

theorem Secure.after (h : s.Secure t) (hstore : shop.store = .memory t) {action : Action}
    (permits : s.Permits tariff errand action) {t' : Tables}
    (hstore' : (shop.perform s.writes action).2.1.store = .memory t') :
    (s.after tariff errand shop t action).Secure t' where
  covered := Shop.covered_perform h.covered action
  locked row hrow := by
    obtain ⟨hrow, hheld, -⟩ := mem_knownAfter shop hrow h.fits.keyed
    change (shop.perform s.writes action).2.2.locks row.key = true
    rw [WriteSet.locks, hheld]
    exact hrow.elim (h.locked row) And.left
  fits := by
    rcases store_perform hstore permits h.covered h.fits with
      ⟨-, hsame⟩ | ⟨hcommits, after, o, commits, hafter⟩
    · obtain rfl : t = t' := Store.memory.inj (hsame.symm.trans hstore')
      refine ⟨h.fits.keyed, fun row hrow => ?_⟩
      exact (mem_knownAfter shop hrow h.fits.keyed).1.elim (h.fits.known row) And.right
    · obtain rfl : after = t' := Store.memory.inj (hafter.symm.trans hstore')
      refine ⟨(Errand.change_of_verdict commits.verdict).keyed h.fits.keyed, fun row hrow => ?_⟩
      rw [(mem_knownAfter shop hrow h.fits.keyed).2.2] at hcommits
      cases hcommits

end Standing

end RentalDesk
