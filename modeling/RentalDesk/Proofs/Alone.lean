import RentalDesk.Proofs.Conduct.Errands

/-!
# Errands done alone

An entry of the chronicle can be done again in a shop where nobody else is: the store is opened
with the identifiers of the entry, and the clock stands still. Doing it alone comes to the verdict.
So the entries of a chronicle can be done again one after another, which is what the outcome of
everybody at once is compared with.
-/

namespace RentalDesk

namespace Entry

variable (e : Entry) (tariff : Tariff)

def circumstances : Circumstances := ⟨tariff, e.now, e.ids⟩

/-- Does the errand of an entry alone, with the task of the errand: the store afterwards, and the
outcome if the task is done. -/
def alone (store : Store) : Store × Option Outcome :=
  let (shop, session) := Session.advance (Shop.opened store e.ids 0 e.now) .empty
    (e.visit.errand.task ⟨tariff, store.medium⟩)
  (shop.store, session.result?)

end Entry

/-- The store after the errands of all entries were done one after another. -/
def serially (tariff : Tariff) (store : Store) (entries : List Entry) : Store :=
  entries.foldl (fun store e => (e.alone tariff store).1) store

theorem serially_append (tariff : Tariff) (store : Store) (entries : List Entry) (e : Entry) :
    serially tariff store (entries ++ [e]) =
      (e.alone tariff (serially tariff store entries)).1 := by
  rw [serially, List.foldl_append]
  rfl

namespace Shop

/-- Where no call fails, nothing that is noted is a hindrance. -/
theorem note_calm {shop : Shop} (calm : shop.failing = []) (writes : WriteSet) (action : Action)
    {d : Diary} (hnow : d.now = shop.clock) :
    (d.note (.did action (shop.perform writes action).1)).now = shop.clock ∧
      (d.note (.did action (shop.perform writes action).1)).hindered = d.hindered := by
  cases action
  case fails call =>
      simp only [perform, calm]
      exact ⟨hnow, rfl⟩
  case now => exact ⟨rfl, rfl⟩
  all_goals exact ⟨hnow, rfl⟩

end Shop

/-- Where a visit stands that is alone in the shop. -/
structure Solitary (e : Entry) (tariff : Tariff) (t₀ : Tables) (s : Standing) (shop : Shop) :
    Prop where
  secure : ∃ t, shop.store = .memory t ∧ s.Secure t ∧ (s.promise = none → t = t₀) ∧
    ∀ o, s.promise = some o → (e.circumstances tariff).verdict t₀ e.visit.errand = (some t, o)
  seen : s.promise = none → ∀ t ∈ s.seen, t = t₀
  calm : shop.failing = []
  unhindered : s.diary.hindered = false
  clock : shop.clock = e.now
  now : s.diary.now = e.now
  ids : s.diary.ids = e.ids
  next : ∀ series ∉ s.diary.drawn, shop.sequences.next series = e.ids.next series
  locks : shop.locks.Serves fun _ : Unit => ⟨s.writes.held, none⟩

namespace Solitary

variable {e : Entry} {tariff : Tariff} {t₀ : Tables} {s : Standing} {shop : Shop}

theorem circumstances_eq (h : Solitary e tariff t₀ s shop) :
    s.circumstances tariff = e.circumstances tariff := by
  rw [Standing.circumstances, h.now, h.ids, Entry.circumstances]

/-- The locks and the tickets of somebody alone stay in step. -/
theorem serves {ρ : Type} {shop shop' : Shop} {s s' : Session ρ} {deed : Deed}
    (h : shop.locks.Serves fun _ : Unit => s.claims) (step : Session.Step shop s deed shop' s') :
    shop'.locks.Serves fun _ : Unit => s'.claims := by
  have hserves := Floor.serves_session (f := ⟨shop, fun _ => some s⟩) (v := ()) h rfl step
  rwa [show Function.update _ () s'.claims = fun _ : Unit => s'.claims from
    funext fun _ => Function.update_self ..] at hserves

/-- Somebody alone is granted at once a row that he does not have yet. -/
theorem granted {shop : Shop} {writes : WriteSet} {key : RowKey}
    (h : shop.locks.Serves fun _ : Unit => ⟨writes.held, none⟩) (holds : ¬ writes.holds key) :
    ∃ locks, (shop.locks.request key).2.grant? (shop.locks.request key).1 = some locks ∧
      locks.Serves fun _ : Unit => ⟨(writes.hold (shop.locks.request key).1).held, none⟩ := by
  let session : Session Unit := ⟨writes, .running (.acquire key fun _ => .done ())⟩
  have hask := serves (s := session) h (.ask holds)
  have hfree : ∀ (_ : Unit) t, t ∈ (⟨writes.held, none⟩ : Claims).tickets → t.key ≠ key := by
    intro _ t ht hkey
    rw [Claims.mem_tickets, or_iff_left nofun] at ht
    exact holds (WriteSet.holds_iff.2 (.inl (WriteSet.locks_iff.2 ⟨t, ht, hkey⟩)))
  obtain ⟨locks, hgrant⟩ := h.request_granted hfree
  exact ⟨locks, hgrant, serves hask (.take hgrant)⟩

theorem after (h : Solitary e tariff t₀ s shop) {action : Action}
    (permits : s.Permits tariff e.visit.errand action) {t : Tables}
    (hstore : shop.store = .memory t) :
    Solitary e tariff t₀ (s.after tariff e.visit.errand shop t action)
      (shop.perform s.writes action).2.1 := by
  obtain ⟨_, hstore', hsecure, hnone, hsome⟩ := h.secure
  obtain rfl : t = _ := Store.memory.inj (hstore.symm.trans hstore')
  obtain ⟨hclock, hfailing⟩ := shop.perform_clock s.writes action
  obtain ⟨hnow, hhindered⟩ := Shop.note_calm h.calm s.writes action
    (h.now.trans h.clock.symm)
  refine ⟨?_, ?_, hfailing.trans h.calm, hhindered.trans h.unhindered, hclock.trans h.clock,
    hnow.trans h.clock, ?_, ?_, ?_⟩
  · rcases Standing.store_perform hstore permits hsecure.covered hsecure.fits with
      ⟨hcommits, hsame⟩ | ⟨hcommits, after, o, commits, hafter⟩
    · rw [Standing.promise_after_of_not_commits hcommits]
      exact ⟨t, hsame, hsecure.after hstore permits hsame, hnone, hsome⟩
    · rw [Standing.promise_after_of_commits hcommits]
      refine ⟨after, hafter, hsecure.after hstore permits hafter, nofun, ?_⟩
      intro o' ho'
      rw [← h.circumstances_eq, ← hnone commits.promise, commits.verdict]
      rw [← Option.some.inj ho', commits.verdict]
  · intro hpromise other hother
    cases hcommits : (Deed.did action (shop.perform s.writes action).1).commits with
    | false =>
        rw [Standing.promise_after_of_not_commits hcommits] at hpromise
        rcases Standing.mem_seenAfter hother with rfl | hseen
        · exact hnone hpromise
        · exact h.seen hpromise other hseen
    | true =>
        rw [Standing.promise_after_of_commits hcommits] at hpromise
        cases hpromise
  · refine Sequences.ext_next fun series => (shop.note_next ..).trans ?_
    split
    · next draws => exact h.next series (Standing.undrawn permits draws).2
    · rw [h.ids]
  · intro series hseries
    have hseries := mt Diary.mem_drawn_note.2 hseries
    rw [not_or] at hseries
    rw [shop.perform_next, if_neg hseries.1]
    exact h.next series hseries.2
  · let session : Session Unit := ⟨s.writes, .running (.act action fun _ => .done ())⟩
    exact serves (s := session) h.locks .act

theorem hold (h : Solitary e tariff t₀ s shop) {locks : RowLocks} {ticket : Ticket}
    (hlocks : locks.Serves fun _ : Unit => ⟨(s.hold ticket).writes.held, none⟩) :
    Solitary e tariff t₀ (s.hold ticket) { shop with locks } := by
  obtain ⟨t, hstore, hsecure, hpromise⟩ := h.secure
  exact { h with secure := ⟨t, hstore, hsecure.hold ticket, hpromise⟩, locks := hlocks }

/-- A task that keeps to its conduct is done without a wait, and ends as it may. -/
theorem advance {ρ : Type} {task : Task ρ} {ends : ρ → Standing → Prop}
    (h : Solitary e tariff t₀ s shop)
    (follows : task.Follows (e.visit.errand.conduct tariff) s ends) :
    ∃ shop' s' result, Session.advance shop s.writes task =
        (shop', ⟨s'.writes, .running (.done result)⟩) ∧
      ends result s' ∧ Solitary e tariff t₀ s' shop' := by
  induction task generalizing s shop with
  | done result => exact ⟨shop, s, result, rfl, follows, h⟩
  | act action next ih =>
      obtain ⟨t, hstore, hsecure, -⟩ := h.secure
      have hhide : .hideItem ∉ shop.failing := by rw [h.calm]; exact List.not_mem_nil
      exact ih _ (h.after follows.1 hstore)
        (follows.2 _ _ ⟨shop, t, hstore, hsecure.fits, hhide, rfl, rfl⟩)
  | acquire key next ih =>
      rw [Session.advance]
      split
      · next holds => exact ih _ h (follows true s (.inl ⟨holds, rfl⟩))
      · next holds =>
          obtain ⟨locks, hgrant, htake⟩ := granted h.locks holds
          simp only [hgrant]
          exact ih true (h.hold htake) (follows true _ (.inr ⟨_, rfl, rfl⟩))

end Solitary

/-- The standing of a visit that begins with the diary of an entry. -/
def Entry.standing (e : Entry) (t : Tables) : Standing :=
  ⟨.empty, ⟨e.now, e.ids, [], false⟩, [], [t], none⟩

theorem Solitary.start (e : Entry) (tariff : Tariff) {t : Tables} (keyed : t.Keyed) :
    Solitary e tariff t (e.standing t) (Shop.opened (.memory t) e.ids 0 e.now) where
  secure := by
    refine ⟨t, rfl, ⟨⟨keyed, ?_⟩, ?_, .empty⟩, fun _ => rfl, ?_⟩
    · exact fun row hrow => absurd hrow List.not_mem_nil
    · exact fun row hrow => absurd hrow List.not_mem_nil
    · exact fun o ho => absurd ho (Option.some_ne_none o).symm
  seen _ other hother := List.mem_singleton.1 hother
  calm := rfl
  unhindered := rfl
  clock := rfl
  now := rfl
  ids := rfl
  next _ _ := rfl
  locks := .empty

theorem Entry.alone_eq (e : Entry) (tariff : Tariff) {t : Tables} (keyed : t.Keyed) :
    e.alone tariff (.memory t) =
      (.memory (((e.circumstances tariff).verdict t e.visit.errand).1.getD t),
        some ((e.circumstances tariff).verdict t e.visit.errand).2) := by
  have hstart := Solitary.start e tariff keyed
  have hfollows := @task_follows tariff (e.standing t) e.visit.errand
    ⟨rfl, rfl, rfl, rfl⟩ t (List.mem_singleton_self t)
  obtain ⟨shop, s, o, hadvance, hends, hlast⟩ := hstart.advance hfollows
  obtain ⟨t', hstore, -, hnone, hsome⟩ := hlast.secure
  have halone : e.alone tariff (.memory t) = (shop.store, some o) := by
    change ((Session.advance _ (e.standing t).writes _).1.store,
      (Session.advance _ (e.standing t).writes _).2.result?) = _
    rw [Store.medium, hadvance]
    rfl
  rw [halone, hstore]
  cases hpromise : s.promise with
  | none =>
      rcases hends.unpromised hpromise with ⟨other, hother, hverdict⟩ | ⟨hhindered, -⟩
      · rw [hlast.seen hpromise other hother, hlast.circumstances_eq] at hverdict
        rw [hverdict, hnone hpromise, Option.getD_none]
      · rw [hlast.unhindered] at hhindered
        cases hhindered
  | some p => rw [hsome p hpromise, hends.promised p hpromise, Option.getD_some]

end RentalDesk
