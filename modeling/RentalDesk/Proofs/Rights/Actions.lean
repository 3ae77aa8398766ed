import RentalDesk.Proofs.Rights.Basic

/-!
# Rights after an action

One lemma for each kind of action. Most actions write no row and give no right; inserting a row
gives the right to it, and committing, placing an item and giving the locks back take all rights
away. What is written by a commit are rows that the transaction has sound rights to, so nobody else
has.
-/

namespace RentalDesk

open Script

namespace Floor

/-- The event of an action of somebody. -/
abbrev acts {ν : Type} (f : Floor ν Answer) (v : ν) (writes : WriteSet) (action : Action) :
    Event ν Answer :=
  .does v (.did action (f.shop.perform writes action).1)

/-- The floor after an action of somebody. -/
abbrev acted {ν : Type} [DecidableEq ν] (f : Floor ν Answer) (v : ν) (writes : WriteSet)
    (action : Action) (next : action.Answer → Task Answer) : Floor ν Answer :=
  f.put v (f.shop.perform writes action).2.1
    ⟨(f.shop.perform writes action).2.2, .running (next (f.shop.perform writes action).1)⟩

end Floor

namespace Floor.Guarded

variable {ν : Type} [DecidableEq ν] {medium : Medium} {f : Floor ν Answer} {r : Rights ν} {v : ν}
  {writes : WriteSet} {action : Action} {next : action.Answer → Task Answer}

/-- An action that writes no row and gives and takes no right. -/
theorem act_still (h : f.Guarded medium r)
    (present : f.sessions v = some ⟨writes, .running (.act action next)⟩)
    (heeds : (f.acts v writes action).Heeds medium f r)
    (hafter : ∀ phase : Phase, phase.after action = phase)
    (hrights : r.after f.shop.store (f.acts v writes action) = r)
    (store : (f.shop.perform writes action).2.1.store = f.shop.store)
    (held : (f.shop.perform writes action).2.2.held = writes.held)
    (inserted : (f.shop.perform writes action).2.2.inserted = writes.inserted)
    (staged : ∀ key row, (f.shop.perform writes action).2.2.staged.row? key = some row →
      writes.staged.row? key = some row ∨ writes.holds key ∧
        (Deed.did action (f.shop.perform writes action).1).stages? = some key) :
    (f.acted v writes action next).Guarded medium
      (r.after f.shop.store (f.acts v writes action)) := by
  rw [hrights]
  obtain ⟨phase, follows, covered, -, entitled⟩ := h.sessions v _ present
  have locks : ∀ key, (f.shop.perform writes action).2.2.locks key = writes.locks key :=
    fun key => by rw [WriteSet.locks, held, WriteSet.locks]
  have holds : ∀ key, (f.shop.perform writes action).2.2.holds key = writes.holds key :=
    fun key => by rw [WriteSet.holds, held, inserted, WriteSet.holds]
  refine h.still present store (serves_session h.locks present .act)
    (fun key hkey => Shop.passed_perform (fun series hseries =>
      heeds.1 series hseries) hkey) ⟨phase, .running ?_ (Shop.covered_perform covered action) ?_⟩
    (fun key hkey => (locks key).trans hkey) fun key hkey => inserted.symm ▸ hkey
  · exact follows.2 _ _ (hafter phase).symm
  · intro last hlast
    have entitled := entitled last hlast
    refine ⟨fun key hkey => (holds key).trans (entitled.last key hkey),
      fun key hkey => entitled.holds key ((holds key).symm.trans hkey), fun key row hrow => ?_⟩
    rcases staged key row hrow with hrow | ⟨hholds, hstages⟩
    · exact entitled.staged key row hrow
    · obtain ⟨right, hright⟩ := entitled.holds key hholds
      exact ⟨right, hright, heeds.2 key right hstages hright⟩

/-- An action that stages a row if it can be written. -/
theorem act_update (h : f.Guarded medium r)
    (present : f.sessions v = some ⟨writes, .running (.act action next)⟩)
    (heeds : (f.acts v writes action).Heeds medium f r)
    (hafter : ∀ phase : Phase, phase.after action = phase)
    (hrights : r.after f.shop.store (f.acts v writes action) = r)
    (result : Except Error WriteSet)
    (hperform : (f.shop.perform writes action).2 = (f.shop.staged writes result).2)
    (ok : ∀ w, result = .ok w → ∃ staged row, w = writes.withStaged staged ∧
      writes.holds row.key ∧
      (Deed.did action (f.shop.perform writes action).1).stages? = some row.key ∧
      ∀ key, staged.row? key = if key = row.key then some row else writes.staged.row? key) :
    (f.acted v writes action next).Guarded medium
      (r.after f.shop.store (f.acts v writes action)) := by
  cases result with
  | error e =>
      refine h.act_still present heeds hafter hrights ?_ ?_ ?_ ?_ <;> rw [hperform]
      · rfl
      · rfl
      · rfl
      · exact fun key row hrow => .inl hrow
  | ok w =>
      obtain ⟨staged, row, rfl, holds, stages, put⟩ := ok w rfl
      refine h.act_still present heeds hafter hrights ?_ ?_ ?_ ?_ <;> rw [hperform]
      · rfl
      · rfl
      · rfl
      · intro key found hfound
        rw [Shop.staged, WriteSet.withStaged, put] at hfound
        split at hfound
        · next hkey => exact .inr (hkey ▸ ⟨holds, stages⟩)
        · exact .inl hfound

/-- An action that inserts a row under the next identifier of its series. -/
theorem act_insert (h : f.Guarded medium r)
    (present : f.sessions v = some ⟨writes, .running (.act action next)⟩)
    (heeds : (f.acts v writes action).Heeds medium f r)
    (hafter : ∀ phase : Phase, phase.after action = phase) (key : RowKey) {series : Series}
    (hseries : key.series? = some series) (hid : key.id = f.shop.sequences.next series)
    (hdraws : (Deed.did action (f.shop.perform writes action).1).draws? = some series)
    (hrights : r.after f.shop.store (f.acts v writes action) =
        r.gain v key ⟨f.shop.store.record? key, true⟩)
    (store : (f.shop.perform writes action).2.1.store = f.shop.store)
    (held : (f.shop.perform writes action).2.2.held = writes.held)
    (inserted : (f.shop.perform writes action).2.2.inserted = key :: writes.inserted)
    (staged : ∀ other row, (f.shop.perform writes action).2.2.staged.row? other = some row →
      other = key ∨ writes.staged.row? other = some row) :
    (f.acted v writes action next).Guarded medium
      (r.after f.shop.store (f.acts v writes action)) := by
  rw [hrights]
  obtain ⟨phase, follows, covered, -, entitled⟩ := h.sessions v _ present
  have absent := h.record?_next hseries hid
  have few := heeds.1 series hdraws
  have locks : ∀ other, (f.shop.perform writes action).2.2.locks other = writes.locks other :=
    fun other => by rw [WriteSet.locks, held, WriteSet.locks]
  have grown : ∀ other, writes.holds other → (f.shop.perform writes action).2.2.holds other := by
    intro other hother
    rw [WriteSet.holds_iff] at hother ⊢
    rw [locks, inserted, List.mem_cons]
    exact hother.imp_right .inr
  refine h.gain present store (serves_session h.locks present .act)
    (fun other hother => Shop.passed_perform (fun series hseries =>
      heeds.1 series hseries) hother) ⟨phase, .running ?_ (Shop.covered_perform covered action) ?_⟩
    (fun other hother => (locks other).trans hother)
    (fun other hother => inserted ▸ List.mem_cons_of_mem _ hother) ?_ ?_
  · exact follows.2 _ _ (hafter phase).symm
  · intro last hlast
    have entitled := entitled last hlast
    refine ⟨fun other hother => grown other (entitled.last other hother), ?_, ?_⟩
    · intro other hholds
      rw [Rights.gain_self]
      split
      · exact ⟨_, rfl⟩
      · next hne =>
          refine entitled.holds other (WriteSet.holds_iff.2 ?_)
          rw [WriteSet.holds_iff, locks, inserted, List.mem_cons] at hholds
          exact hholds.imp_right fun hmem => hmem.resolve_left hne
    · intro other row hrow
      rw [Rights.gain_self]
      split
      · exact ⟨_, rfl, .inl rfl⟩
      · next hne => exact entitled.staged other row ((staged other row hrow).resolve_left hne)
  · refine ⟨fun hlocked => (by cases hlocked), fun _ => inserted ▸ List.mem_cons_self,
      fun _ => ⟨absent, ?_⟩, fun _ => store ▸ rfl⟩
    intro other hother
    obtain rfl := Option.some.inj (hseries.symm.trans hother)
    rw [Shop.perform_next, if_pos hdraws, hid, UInt64.toNat_add, UInt64.toNat_one]
    simp only [UInt64.size] at few
    omega
  · intro w right' _ hright _ sound
    obtain ⟨t, ht, stands⟩ := h.rights w key right' hright
    rcases sound with hinserted | hrecord | ⟨-, hnone⟩
    · have hlt := (stands.fresh hinserted).2 series hseries
      rw [hid] at hlt
      exact Nat.lt_irrefl _ hlt
    · rw [← stands.kept (.inr (.inl hrecord)), absent] at hrecord
      cases hrecord
    · cases hseries.symm.trans hnone

/-- An action that takes the rights away and leaves the rows of others as they are. -/
theorem act_lose (h : f.Guarded medium r)
    (present : f.sessions v = some ⟨writes, .running (.act action next)⟩)
    (heeds : (f.acts v writes action).Heeds medium f r)
    (hrights : r.after f.shop.store (f.acts v writes action) = r.lose v)
    (store : (f.shop.perform writes action).2.1.store.medium = f.shop.store.medium)
    (behind : ∀ key, ((f.shop.perform writes action).2.1.store.record? key).isSome →
      f.shop.sequences.Passed key)
    (still : ∀ w key right, w ≠ v → r w key = some right → right.Sound medium key →
      (f.shop.perform writes action).2.1.store.record? key = f.shop.store.record? key)
    (entitled : ∀ phase : Phase, ∀ last, phase.Permits medium action →
      phase.after action = .working last →
        (f.shop.perform writes action).2.2.Entitled medium last fun _ => none) :
    (f.acted v writes action next).Guarded medium
      (r.after f.shop.store (f.acts v writes action)) := by
  rw [hrights]
  obtain ⟨phase, follows, covered, -, -⟩ := h.sessions v _ present
  have passed : ∀ key, f.shop.sequences.Passed key →
      (f.shop.perform writes action).2.1.sequences.Passed key := fun key hkey =>
    Shop.passed_perform (fun series hseries => heeds.1 series hseries) hkey
  exact h.lose (store.trans h.store) (serves_session h.locks present .act)
    (fun key hkey => passed key (behind key hkey)) passed still
    ⟨_, .running (follows.2 _ _ rfl) (Shop.covered_perform covered action)
      fun last => entitled phase last follows.1⟩

/-- Registering an item in memory writes a row that nobody has a sound right to. -/
theorem act_registerItem (h : f.Guarded medium r) {item : Item}
    {next : Except Error Bool → Task Answer}
    (present : f.sessions v = some ⟨writes, .running (.act (.registerItem item) next)⟩)
    (heeds : (f.acts v writes (.registerItem item)).Heeds medium f r) :
    (f.acted v writes (.registerItem item) next).Guarded medium
      (r.after f.shop.store (f.acts v writes (.registerItem item))) := by
  have serves := serves_session h.locks present .act
  obtain ⟨phase, follows, covered, -, entitled⟩ := h.sessions v _ present
  have next := follows.2 (f.shop.perform writes (.registerItem item)).1 _ rfl
  obtain ⟨last, rfl⟩ : ∃ last, phase = .working last := by
    cases phase with
    | working last => exact ⟨last, rfl⟩
    | ending => exact follows.1.elim
  obtain rfl : medium = .memory := follows.1
  cases hfound : f.shop.store.item? item.id with
  | error e =>
      exact h.act_still present heeds (fun phase => by cases phase <;> rfl) rfl
        (by simp only [Shop.perform, hfound]) (by simp only [Shop.perform, hfound])
        (by simp only [Shop.perform, hfound])
        fun key row hrow => .inl (by simpa only [Shop.perform, hfound] using hrow)
  | ok found =>
      cases found with
      | some row =>
          exact h.act_still present heeds (fun phase => by cases phase <;> rfl) rfl
            (by simp only [Shop.perform, hfound]) (by simp only [Shop.perform, hfound])
            (by simp only [Shop.perform, hfound])
            fun key row hrow => .inl (by simpa only [Shop.perform, hfound] using hrow)
      | none =>
          have absent := Store.record?_of_item?_eq_none hfound
          simp only [Floor.acted, Shop.perform, hfound] at next serves ⊢
          -- A sound right is to a row that is there, so it is not to the item.
          have still : ∀ w key right, r w key = some right → right.Sound .memory key →
              (f.shop.store.putItem item).record? key = f.shop.store.record? key := by
            intro w key right hright sound
            refine Store.record?_putItem_of_ne ?_ f.shop.store
            rintro rfl
            exact h.not_sound_of_absent hright absent sound
          refine h.put (by rw [Store.medium_putItem, h.store]) serves ?_ (fun _ => id)
            (fun _ _ => rfl) (fun w key right _ => still w key right)
            ⟨_, .running next covered fun last hlast => entitled last hlast⟩ ?_ ?_
          · intro key hkey
            by_cases hitem : key = .item item.id
            · subst hitem
              exact fun series hseries => by cases hseries
            · exact h.behind key (Store.record?_putItem_of_ne hitem f.shop.store ▸ hkey)
          · intro key right hright
            obtain ⟨s, hs, stands⟩ := h.rights v key right hright
            obtain rfl := Option.some.inj (present.symm.trans hs)
            exact stands.mono id (still v key right hright) id id
          · exact fun w key right right' hw hv hw' sound sound' =>
              hw (h.apart v w key right right' hv hw' sound sound').symm

/-- An action of somebody who keeps to the discipline. -/
theorem act (h : f.Guarded medium r)
    (present : f.sessions v = some ⟨writes, .running (.act action next)⟩)
    (heeds : (f.acts v writes action).Heeds medium f r) :
    (f.acted v writes action next).Guarded medium
      (r.after f.shop.store (f.acts v writes action)) := by
  obtain ⟨phase, follows, covered, -, entitled⟩ := h.sessions v _ present
  cases action
  case registerItem item => exact h.act_registerItem present heeds
  case insertRental rental =>
      refine h.act_insert present heeds (fun phase => by cases phase <;> rfl)
        (.rental f.shop.sequences.rentals.next) rfl rfl rfl rfl rfl rfl rfl ?_
      intro other row hrow
      simp only [Shop.perform, WriteSet.insertRental, Tables.row?_putRental] at hrow
      split at hrow
      · next hkey => exact .inl hkey
      · exact .inr hrow
  case insertFee fee =>
      refine h.act_insert present heeds (fun phase => by cases phase <;> rfl)
        (.fee f.shop.sequences.fees.next) rfl rfl rfl rfl rfl rfl rfl ?_
      intro other row hrow
      simp only [Shop.perform, WriteSet.insertFee, Tables.row?_putFee] at hrow
      split at hrow
      · next hkey => exact .inl hkey
      · exact .inr hrow
  case insertInvoice invoice =>
      refine h.act_still present heeds (fun phase => by cases phase <;> rfl) rfl rfl rfl rfl ?_
      exact fun key row hrow => .inl ((writes.staged.row?_putInvoice _ key).symm.trans hrow)
  case updateItem item =>
      refine h.act_update present heeds (fun phase => by cases phase <;> rfl) rfl
        (writes.stageItem item) rfl fun w hw => ?_
      obtain ⟨holds, rfl⟩ := WriteSet.stageItem_eq_ok hw
      refine ⟨_, .item item, rfl, holds, ?_, writes.staged.row?_putItem item⟩
      rw [Shop.perform, hw]
      rfl
  case updateRental rental =>
      refine h.act_update present heeds (fun phase => by cases phase <;> rfl) rfl
        (writes.stageRental rental) rfl fun w hw => ?_
      obtain ⟨holds, rfl⟩ := WriteSet.stageRental_eq_ok hw
      refine ⟨_, .rental rental, rfl, holds, ?_, writes.staged.row?_putRental rental⟩
      rw [Shop.perform, hw]
      rfl
  case updateFee fee =>
      refine h.act_update present heeds (fun phase => by cases phase <;> rfl) rfl
        ((f.shop.store.fee? fee.id).bind (writes.stageFee fee)) rfl fun w hw => ?_
      obtain ⟨committed, -, hstage⟩ := Shop.stageFee_of_bind hw
      obtain ⟨holds, rfl⟩ := WriteSet.stageFee_eq_ok hstage
      refine ⟨_, .fee fee, rfl, holds, ?_, writes.staged.row?_putFee fee⟩
      rw [Shop.perform, hw]
      rfl
  case apply =>
      cases phase with
      | ending => exact follows.1.elim
      | working last =>
          have entitled := entitled last rfl
          refine h.act_lose present heeds rfl (Store.medium_apply ..) (h.behind_apply entitled)
            (fun w key right hw => h.record?_apply entitled hw) fun phase last _ hafter => ?_
          cases hafter
  case placeItem item =>
      cases phase with
      | ending => exact follows.1.elim
      | working last =>
          obtain ⟨-, hlast⟩ := follows.1
          have locks := h.locks_item present ((entitled last rfl).last _ hlast)
          refine h.act_lose present heeds rfl (Store.medium_putItem ..) ?_ ?_
            fun phase last _ hafter => by cases hafter
          · intro key hkey
            by_cases hitem : key = .item item.id
            · subst hitem
              exact fun series hseries => by cases hseries
            · exact h.behind key (Store.record?_putItem_of_ne hitem f.shop.store ▸ hkey)
          · intro w key right hw hright _
            refine Store.record?_putItem_of_ne ?_ f.shop.store
            rintro rfl
            obtain ⟨t, ht, stands⟩ := h.rights w _ right hright
            exact hw (h.eq_of_locks ht present (h.locks_item ht stands.holds) locks)
  case release =>
      refine h.act_lose present heeds rfl rfl h.behind (fun _ _ _ _ _ _ => rfl) ?_
      rintro phase last - hafter
      obtain rfl := Phase.working.inj hafter
      exact .empty
  case discard =>
      refine h.act_lose present heeds rfl rfl h.behind (fun _ _ _ _ _ _ => rfl) ?_
      rintro phase last - hafter
      obtain rfl := Phase.working.inj hafter
      exact .empty
  all_goals
    exact h.act_still present heeds (fun phase => by cases phase <;> rfl) rfl rfl rfl rfl
      fun key row hrow => .inl hrow

end Floor.Guarded

end RentalDesk
