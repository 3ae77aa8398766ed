import RentalDesk.Proofs.Alone

/-!
# Chains of commits

A chain is a list of entries each of which commits the verdict on the rows that the entries before
it have left behind, under identifiers that are not in use there. What holds of the rows at first
and is kept by every change of an errand holds after every chain. A chain can be done again one
entry after another, and each entry then ends as it did in the chain.
-/

namespace RentalDesk

/-- The rows that a list of entries leads to, oldest entry first. -/
inductive Chain (tariff : Tariff) (t₀ : Tables) : List Entry → Tables → Prop
  | nil : Chain tariff t₀ [] t₀
  | snoc {entries : List Entry} {t after : Tables} {e : Entry} {o : Outcome}
      (chain : Chain tariff t₀ entries t)
      (verdict : (e.circumstances tariff).verdict t e.visit.errand = (some after, o))
      (fresh : ∀ series ∈ e.visit.errand.draws, t.uses series (e.ids.next series) = false) :
      Chain tariff t₀ (entries ++ [e]) after

namespace Chain

variable {tariff : Tariff} {t₀ t : Tables} {entries : List Entry}

/-- What every change keeps holds along a chain. -/
theorem invariant {P : Tables → Prop} (h : Chain tariff t₀ entries t) (first : P t₀)
    (change : ∀ c t errand o after, P t → Errand.Change c t errand o after → c.tariff = tariff →
      (∀ series ∈ errand.draws, t.uses series (c.ids.next series) = false) → P after) : P t := by
  induction h with
  | nil => exact first
  | @snoc _ t after e o _ verdict fresh ih =>
      exact change _ t _ o after ih (Errand.change_of_verdict verdict) rfl fresh

theorem eq_of_nil (h : Chain tariff t₀ [] t) : t = t₀ := by
  generalize hentries : [] = entries at h
  cases h with
  | nil => rfl
  | snoc => simp at hentries

theorem of_snoc {e : Entry} (h : Chain tariff t₀ (entries ++ [e]) t) :
    ∃ before o, Chain tariff t₀ entries before ∧
      (e.circumstances tariff).verdict before e.visit.errand = (some t, o) := by
  generalize hentries : entries ++ [e] = all at h
  cases h with
  | nil => simp at hentries
  | @snoc _ before _ _ o chain verdict =>
      obtain ⟨rfl, he⟩ := List.append_inj' hentries rfl
      obtain rfl := List.singleton_inj.1 he
      exact ⟨before, o, chain, verdict⟩

theorem keyed (h : Chain tariff t₀ entries t) (keyed : t₀.Keyed) : t.Keyed :=
  h.invariant keyed fun _ _ _ _ _ keyed change _ _ => change.keyed keyed

/-- Doing the errands of a chain again one after another leads to the same rows. -/
theorem serially_eq (h : Chain tariff t₀ entries t) (keyed : t₀.Keyed) :
    serially tariff (.memory t₀) entries = .memory t := by
  induction h with
  | nil => rfl
  | @snoc entries t after e o chain verdict _ ih =>
      rw [serially_append, ih, e.alone_eq tariff (chain.keyed keyed), verdict, Option.getD_some]

end Chain

/-- An outcome is that of the entry at a place of a list of commits, on the rows before it. -/
def Kept (tariff : Tariff) (t₀ : Tables) (committed : List Entry) (v : Visit) (place : Nat)
    (o : Outcome) : Prop :=
  ∃ earlier e later t after, committed = earlier ++ e :: later ∧ earlier.length = place ∧
    e.visit = v ∧ Chain tariff t₀ earlier t ∧
      (e.circumstances tariff).verdict t e.visit.errand = (some after, o)

theorem Kept.append {tariff : Tariff} {t₀ : Tables} {committed : List Entry} {v : Visit}
    {place : Nat} {o : Outcome} (h : Kept tariff t₀ committed v place o) (more : List Entry) :
    Kept tariff t₀ (committed ++ more) v place o := by
  obtain ⟨earlier, e, later, t, after, rfl, hplace⟩ := h
  exact ⟨earlier, e, later ++ more, t, after, by simp, hplace⟩

theorem Chain.kept {tariff : Tariff} {t₀ t : Tables} {entries : List Entry}
    (h : Chain tariff t₀ entries t) {place : Nat} {e : Entry} (hplace : entries[place]? = some e) :
    ∃ o, Kept tariff t₀ entries e.visit place o := by
  induction h with
  | nil => simp at hplace
  | @snoc entries t after last o chain verdict _ ih =>
      rcases Nat.lt_trichotomy place entries.length with hlt | rfl | hgt
      · rw [List.getElem?_append_left hlt] at hplace
        obtain ⟨o', kept⟩ := ih hplace
        exact ⟨o', kept.append [last]⟩
      · rw [List.getElem?_concat_length] at hplace
        obtain rfl := Option.some.inj hplace
        exact ⟨o, entries, last, [], t, after, rfl, rfl, rfl, chain, verdict⟩
      · rw [List.getElem?_eq_none (by rw [List.length_append, List.length_singleton]; omega)]
          at hplace
        cases hplace

end RentalDesk
