import Mathlib.Data.Set.Finite.Basic
import RentalDesk.Proofs.Dealing.Floor
import RentalDesk.Proofs.Restarts

/-!
# What a desk comes to

A desk is opened without rows and serves whoever comes. A desk with an archive may stop at any
moment and be opened again, at other prices if need be. What is true without rows and is kept by
every deal is true of all rows that a desk ever comes to. From any floor it goes on in the same way,
and an item that is registered there stays registered.
-/

namespace RentalDesk

/-- No row stands under the identifier zero. -/
def Tables.Numbered (t : Tables) : Prop := ∀ s, t.uses s 0 = false

/-- An identifier that is in use after an action was in use before, or was drawn. -/
theorem Policy.Fits.uses_performed {medium : Medium} {t : Tables} {last : Series → Nat}
    {c : Custody} (fits : Policy.history.Fits medium t last c) {action : Action}
    (permits : Policy.history.Permits medium c action) {s : Series} {id : UInt64}
    (h : (t.performed c.writes action).uses s id) : c.writes.drew s id ∨ t.uses s id := by
  cases action
  case apply =>
      rw [Tables.performed, Tables.uses_merge, Bool.or_eq_true] at h
      exact h.elim (fits.uses_staged permits.1 rfl) .inr
  case placeItem item =>
      rw [Tables.performed, Tables.uses_putItem] at h
      exact .inr h
  case registerItem item =>
      rw [Tables.performed] at h
      split at h
      · exact .inr h
      · rw [Tables.uses_putItem] at h
        exact .inr h
  all_goals exact .inr h

/-- The regard in which rows are held of which something is true that deals keep if they are made
for certain renters. -/
def Regard.ofDeals (ν : Type) {terms : Terms} (P : Tables → Prop) (R : Option RenterId → Prop)
    (kept : ∀ {t t' renter?}, R renter? → P t → t.Deal terms renter? t' → P t') :
    Regard ν terms where
  rows t _ := P t ∧ t.Numbered
  party _ w _ _ := R w.renter? ∧ ∀ s, w.custody.writes.drew s 0 = false
  hold party := by
    refine ⟨party.1, fun s => ?_⟩
    have hdrew := party.2 s
    cases s <;> exact hdrew
  deals rows party acts := by
    obtain ⟨last, fits⟩ := acts.fits
    refine ⟨?_, fun s => Bool.eq_false_iff.2 fun hused => ?_⟩
    · rcases Watch.performed_deal fits acts.permits with same | deal
      · rw [same]
        exact rows.1
      · exact kept party.1 rows.1 deal
    · rcases fits.uses_performed acts.permits.1 hused with hdrew | hused
      · rw [party.2 s] at hdrew
        cases hdrew
      · rw [rows.2 s] at hused
        cases hused
  acts _ party acts := by
    refine ⟨?_, fun s => Bool.eq_false_iff.2 fun hdrew => ?_⟩
    · obtain ⟨writes, rfl⟩ := acts.after
      rw [Watch.renter?_after]
      exact party.1
    · cases (party.2 s).symm.trans (acts.drawn s hdrew)
  others _ _ _ party _ _ := party

open Script

/-- Whoever comes is served, and for such a renter. -/
def Event.ServedFor {ν : Type} (terms : Terms) (R : Option RenterId → Prop) :
    Event ν Answer → Prop
  | .comes _ task => ∃ service : Service, R service.renter? ∧ task = service.task terms
  | _ => True

theorem Event.Served.anybody {ν : Type} {terms : Terms} {e : Event ν Answer} (h : e.Served terms) :
    e.ServedFor terms fun _ => True := by
  cases e with
  | comes v task =>
      obtain ⟨service, htask⟩ := h
      exact ⟨service, trivial, htask⟩
  | _ => trivial

theorem Event.ServedFor.served {ν : Type} {terms : Terms} {R : Option RenterId → Prop}
    {e : Event ν Answer} (h : e.ServedFor terms R) : e.Served terms := by
  cases e with
  | comes v task =>
      obtain ⟨service, -, htask⟩ := h
      exact ⟨service, htask⟩
  | _ => trivial

theorem Event.ServedFor.dealing {ν : Type} {terms : Terms} {R : Option RenterId → Prop}
    {e : Event ν Answer} (h : e.ServedFor terms R) {P : Tables → Prop}
    (kept : ∀ {t t' renter?}, R renter? → P t → t.Deal terms renter? t' → P t') :
    e.Dealing (.ofDeals ν P R kept) := by
  cases e with
  | comes v task =>
      obtain ⟨service, meant, rfl⟩ := h
      exact ⟨_, service.deals terms, fun _ _ => ⟨meant, fun s => WriteSet.drew_empty s 0⟩⟩
  | _ => trivial

theorem servedFor_follow {ν : Type} [DecidableEq ν] {terms : Terms} {R : Option RenterId → Prop}
    {services : List (ν × Service)} {turns : List (ν × Nat)} {leaving : List ν}
    {f : Floor ν Answer} (meant : ∀ s ∈ services, R s.2.renter?) :
    ∀ e ∈ (f.follow (servings terms services turns leaving)).1, e.ServedFor terms R := by
  intro e he
  rcases mem_follow_sitting he with ⟨t, ht, rfl⟩ | ⟨v, deed, rfl⟩ | ⟨v, rfl⟩
  · obtain ⟨s, hs, rfl⟩ := List.mem_map.1 ht
    exact ⟨s.2, meant s hs, rfl⟩
  · trivial
  · trivial

namespace Floor

variable {ν : Type} [DecidableEq ν] {accepts : Tariff → Prop} {terms : Terms}
  {drawn : Series → Nat} {f g : Floor ν Answer} {events : List (Event ν Answer)}

/-- While only such renters are served, what every deal for them keeps stays true. -/
theorem Run.keeps {t : Tables} {last : Series → Nat} {P : Tables → Prop}
    {R : Option RenterId → Prop} (run : f.Run events g)
    (keeps : ∀ {t t' renter?}, R renter? → P t → t.Deal terms renter? t' → P t')
    (kept : f.Kept .history terms.medium t last) (idle : ∀ v, f.sessions v = none)
    (numbered : t.Numbered) (holds : P t) (served : ∀ e ∈ events, e.ServedFor terms R)
    (few : ∀ s, last s + draws events s < UInt64.size) :
    ∃ t', g.Kept .history terms.medium t' (fun s => last s + draws events s) ∧ P t' := by
  have start : f.Dealt (.ofDeals ν P R keeps) t last [] :=
    ⟨kept, ⟨holds, numbered⟩, fun v s present => by cases (idle v).symm.trans present⟩
  obtain ⟨t', dealt⟩ := run.dealt start (fun e he => (served e he).dealing keeps) few
  exact ⟨t', dealt.kept, dealt.rows.1⟩

/-- The floor of a desk that was opened without rows, has served whoever came, and was opened again
any number of times, each time at acceptable prices. So many identifiers have been drawn. -/
inductive Reached (accepts : Tariff → Prop) : Terms → (Series → Nat) → Floor ν Answer → Prop
  | opened {terms : Terms} (accepted : accepts terms.tariff) (lockWait : Nat) (clock : Instant) :
      Reached accepts terms (fun _ => 0)
        (ofShop (.opened (.empty terms.medium) .fresh lockWait clock))
  | step {terms : Terms} {drawn : Series → Nat} {f g : Floor ν Answer} {e : Event ν Answer}
      (past : Reached accepts terms drawn f) (step : f.Step e g) (served : e.Served terms)
      (few : ∀ s, e.tally drawn s < UInt64.size) : Reached accepts terms (e.tally drawn) g
  | reopened {terms : Terms} {drawn : Series → Nat} {f : Floor ν Answer} {files : Archive}
      {ids : Sequences} {tariff : Tariff} (past : Reached accepts terms drawn f)
      (store : f.shop.store = .archive files) (sequences : files.sequences = .ok ids)
      (few : ∀ s, drawn s + 1 < UInt64.size) (accepted : accepts tariff) (lockWait : Nat)
      (clock : Instant) :
      Reached accepts ⟨tariff, .archive⟩ drawn
        (ofShop (.opened (.archive files) ids lockWait clock))

variable {allows : Event ν Answer → Prop} {terms' : Terms} {drawn' : Series → Nat}

/-- A floor comes to others while whoever comes is served, nothing happens but what is allowed, and
the desk is opened again any number of times, each time at acceptable prices. -/
inductive ComesTo (accepts : Tariff → Prop) (allows : Event ν Answer → Prop) (terms : Terms)
    (drawn : Series → Nat) (f : Floor ν Answer) : Terms → (Series → Nat) → Floor ν Answer → Prop
  | stays : ComesTo accepts allows terms drawn f terms drawn f
  | step {terms' : Terms} {drawn' : Series → Nat} {g h : Floor ν Answer} {e : Event ν Answer}
      (past : ComesTo accepts allows terms drawn f terms' drawn' g) (step : g.Step e h)
      (served : e.Served terms') (allowed : allows e) (few : ∀ s, e.tally drawn' s < UInt64.size) :
      ComesTo accepts allows terms drawn f terms' (e.tally drawn') h
  | reopened {terms' : Terms} {drawn' : Series → Nat} {g : Floor ν Answer} {files : Archive}
      {ids : Sequences} {tariff : Tariff}
      (past : ComesTo accepts allows terms drawn f terms' drawn' g)
      (store : g.shop.store = .archive files) (sequences : files.sequences = .ok ids)
      (few : ∀ s, drawn' s + 1 < UInt64.size) (accepted : accepts tariff) (lockWait : Nat)
      (clock : Instant) :
      ComesTo accepts allows terms drawn f ⟨tariff, .archive⟩ drawn'
        (ofShop (.opened (.archive files) ids lockWait clock))

theorem ComesTo.reached (h : f.ComesTo accepts allows terms drawn terms' drawn' g)
    (past : f.Reached accepts terms drawn) : g.Reached accepts terms' drawn' := by
  induction h with
  | stays => exact past
  | step _ step served _ few ih => exact ih.step step served few
  | reopened _ store sequences few accepted lockWait clock ih =>
      exact ih.reopened store sequences few accepted lockWait clock

theorem ComesTo.run {events : List (Event ν Answer)} {g' : Floor ν Answer}
    (h : f.ComesTo accepts allows terms drawn terms' drawn' g) (run : g.Run events g')
    (served : ∀ e ∈ events, e.Served terms') (allowed : ∀ e ∈ events, allows e)
    (few : ∀ s, drawn' s + draws events s < UInt64.size) :
    f.ComesTo accepts allows terms drawn terms' (fun s => drawn' s + draws events s) g' := by
  induction run with
  | nil => exact h
  | @snoc events g g' e run step ih =>
      rw [List.forall_mem_append] at served allowed
      have past := ih served.1 allowed.1 (few_of_append few).1
      have next := past.step step (served.2 e List.mem_cons_self)
        (allowed.2 e List.mem_cons_self) (by
          rw [Event.tally_draws]
          exact few)
      rwa [Event.tally_draws] at next

namespace Reached

theorem accepted (h : f.Reached accepts terms drawn) : accepts terms.tariff := by
  induction h with
  | opened accepted => exact accepted
  | step past _ _ _ ih => exact ih
  | reopened _ _ _ _ accepted => exact accepted

/-- Whoever is served goes on from what was reached. -/
theorem run (h : f.Reached accepts terms drawn) (run : f.Run events g)
    (served : ∀ e ∈ events, e.Served terms) (few : ∀ s, drawn s + draws events s < UInt64.size) :
    g.Reached accepts terms fun s => drawn s + draws events s := by
  have here : f.ComesTo accepts (fun _ => True) terms drawn terms drawn f := .stays
  exact (here.run run served (fun _ _ => trivial) few).reached h

theorem few (h : f.Reached accepts terms drawn) (s : Series) : drawn s < UInt64.size := by
  cases h with
  | opened => exact Nat.zero_lt_succ _
  | step _ _ _ few => exact few s
  | reopened _ _ _ few => exact Nat.lt_of_succ_lt (few s)

/-- Finitely many are at work. -/
theorem finite (h : f.Reached accepts terms drawn) : {v | f.sessions v ≠ none}.Finite := by
  have idle : ∀ shop : Shop, {v | (ofShop shop : Floor ν Answer).sessions v ≠ none}.Finite :=
    fun shop => Set.Finite.subset Set.finite_empty fun v busy => busy rfl
  induction h with
  | opened => exact idle _
  | @step terms drawn f g e past step served few ih =>
      have own : {v | e.name? = some v}.Finite := by
        cases e.name? with
        | none => exact Set.finite_empty.subset fun v own => Option.some_ne_none v own.symm
        | some w => exact (Set.finite_singleton w).subset fun v own => (Option.some.inj own).symm
      refine (ih.union own).subset fun v busy => ?_
      by_cases h : e.name? = some v
      · exact .inr h
      · refine .inl fun idle => busy ?_
        rw [step.sessions_of_ne h, idle]
  | reopened => exact idle _

theorem exists_absent [Infinite ν] (h : f.Reached accepts terms drawn) :
    ∃ v, f.sessions v = none := by
  obtain ⟨v, absent⟩ := h.finite.exists_notMem
  exact ⟨v, not_not.1 absent⟩

variable {P : Tables → Prop}

theorem dealt (empty : P .empty)
    (kept : ∀ {terms : Terms} {t t' renter?}, accepts terms.tariff → P t →
      t.Deal terms renter? t' → P t')
    (h : f.Reached accepts terms drawn) : ∃ t last times, (∀ s, last s ≤ drawn s) ∧
      f.Dealt (.ofDeals ν P (fun _ => True) fun _ => kept h.accepted) t last times := by
  induction h with
  | @opened terms accepted lockWait clock =>
      exact ⟨.empty, fun _ => 0, [], fun _ => Nat.le_refl _,
        dealt_ofShop (Shop.opened_empty terms.medium lockWait clock)
          ⟨empty, fun s => Tables.uses_empty s 0⟩⟩
  | @step terms drawn f g e past step served few ih =>
      obtain ⟨t, last, times, le, dealt⟩ := ih
      have le' : ∀ s, e.tally last s ≤ e.tally drawn s := fun s => by
        rw [Event.tally_eq, Event.tally_eq]
        exact Nat.add_le_add_right (le s) _
      exact ⟨_, _, _, le', dealt.step step (served.anybody.dealing _) fun s =>
        Nat.lt_of_le_of_lt (le' s) (few s)⟩
  | @reopened terms drawn f files ids tariff past store sequences few accepted lockWait clock ih =>
      obtain ⟨t, last, times, le, dealt⟩ := ih
      have hstore := store.symm.trans dealt.kept.store
      have hlast : ∀ s, t.lastNumber s ≤ drawn s := fun s =>
        Nat.le_trans (Tables.lastNumber_le fun id hused => dealt.kept.counts.used s id rfl hused)
          (le s)
      obtain ⟨tariff', medium⟩ := terms
      cases medium with
      | memory => cases hstore
      | archive =>
          obtain rfl := Store.archive.inj hstore
          exact ⟨t, t.lastNumber, [], hlast, dealt_ofShop (Shop.opened_archive dealt.kept.keyed
            (fun s => Nat.lt_of_le_of_lt (Nat.succ_le_succ (hlast s)) (few s)) sequences lockWait
            clock) dealt.rows⟩

/-- What is true without rows, and is kept by every deal at acceptable prices, is true of all rows
that are reached. -/
theorem keeps (h : f.Reached accepts terms drawn) (empty : P .empty)
    (kept : ∀ {terms : Terms} {t t' renter?}, accepts terms.tariff → P t →
      t.Deal terms renter? t' → P t') : ∃ t last, (∀ s, last s ≤ drawn s) ∧
      f.Kept .history terms.medium t last ∧ t.Numbered ∧ P t := by
  obtain ⟨t, last, times, le, dealt⟩ := h.dealt empty kept
  exact ⟨t, last, le, dealt.kept, dealt.rows.2, dealt.rows.1⟩

/-- What is reached holds the rows of tables, and everybody has in custody what fits them. -/
theorem kept (h : f.Reached accepts terms drawn) : ∃ t last, (∀ s, last s ≤ drawn s) ∧
    f.Kept .history terms.medium t last := by
  obtain ⟨t, last, le, kept, -⟩ := h.keeps (P := fun _ => True) trivial fun _ _ _ => trivial
  exact ⟨t, last, le, kept⟩

/-- A desk is found as its first sitting leaves it. -/
theorem of_sitting (terms : Terms) (accepted : accepts terms.tariff) (lockWait : Nat)
    (clock : Instant) {services : List (ν × Service)} {turns : List (ν × Nat)}
    {leaving : List ν} (few : (servings terms services turns leaving).length < UInt64.size) :
    let dawn : Floor ν Answer := ofShop (.opened (.empty terms.medium) .fresh lockWait clock)
    let day := dawn.follow (servings terms services turns leaving)
    day.2.Reached accepts terms fun s => 0 + draws day.1 s := by
  intro dawn day
  have opened : dawn.Reached accepts terms fun _ => 0 := .opened accepted lockWait clock
  refine opened.run (dawn.run_follow _) (fun e => served_follow) fun s => ?_
  rw [Nat.zero_add]
  exact Nat.lt_of_le_of_lt (draws_follow_le ..) few

/-- A desk after its first morning. -/
theorem at_noon (accepted : accepts .standard) : (atDawn.follow morning).2.Reached accepts
    ⟨.standard, .archive⟩ fun s => 0 + draws (atDawn.follow morning).1 s :=
  of_sitting ⟨.standard, .archive⟩ accepted 100 .epoch (by decide +kernel)

end Reached

/-- An item that is registered stays registered. -/
theorem ComesTo.item_stays (h : f.ComesTo accepts allows terms drawn terms' drawn' g)
    (past : f.Reached accepts terms drawn) {id : ItemId} {item : Item}
    (found : f.shop.store.item? id = .ok (some item)) :
    ∃ item', g.shop.store.item? id = .ok (some item') := by
  induction h with
  | stays => exact ⟨item, found⟩
  | @step terms' drawn' g h e comes step served allowed few ih =>
      obtain ⟨old, hold⟩ := ih
      obtain ⟨t, last, -, kept⟩ := (comes.reached past).kept
      have onward := kept.onward (Policy.history_sound terms'.medium) step
      rw [kept.store, Tables.item?_keptIn, Except.ok.injEq] at hold
      obtain ⟨row, hrow, -⟩ := onward.rows _ _ rfl (Tables.row?_item.2 hold)
      rw [step.store kept.store, Tables.item?_keptIn]
      cases row with
      | item new => exact ⟨new, by rw [Tables.row?_item.1 hrow]⟩
      | _ => simp [Tables.row?] at hrow
  | reopened _ store _ _ _ _ _ ih =>
      rw [store] at ih
      exact ih

end Floor

end RentalDesk
