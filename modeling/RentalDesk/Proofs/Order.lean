import RentalDesk.Proofs.Chain

/-!
# Order on the floor

In a run in which everybody comes with an errand, the commits form a chain, whatever the order of
the steps is. The invariant of such a run gives every visit a standing that fits the present rows.
Others cannot spoil it: they write only rows that they have locked or inserted, a locked row has no
second holder, and an inserted row has an identifier that nobody else has drawn.
-/

namespace RentalDesk

/-- The call of a visit begins or is dropped. -/
def Event.Bounds (v : Visit) : Event Visit Outcome → Prop
  | .comes w _ | .leaves w => w = v
  | _ => False

/-- The call of a visit is under way after the events. -/
def Floor.Calls (f : Floor Visit Outcome) (events : List (Event Visit Outcome)) (v : Visit) :
    Prop :=
  (∃ s, f.sessions v = some s ∧ s.result? = none) ∨
    ∃ before task, events = before ++ [.comes v task]

/-- The rows were committed at some time between the call of a visit and its return. -/
def Saw (start : Floor Visit Outcome) (events : List (Event Visit Outcome))
    (f : Floor Visit Outcome) (v : Visit) (t : Tables) : Prop :=
  ∃ before after g, events = before ++ after ∧ start.Run before g ∧ g.Run after f ∧
    g.shop.store = .memory t ∧ g.Calls before v ∧ ∀ e ∈ after, ¬ e.Bounds v

namespace Floor

/-- A floor on which nobody is at work, and on which the identifiers in use are behind those that
are drawn next. -/
structure Quiet (f : Floor Visit Outcome) (t : Tables) : Prop where
  store : f.shop.store = .memory t
  empty : ∀ v, f.sessions v = none
  locks : f.shop.locks.Serves f.claims
  shows : .hideItem ∉ f.shop.failing
  keyed : t.Keyed
  fresh : ∀ series id, t.uses series id → id.toNat < (f.shop.sequences.next series).toNat

/-- How far the sequences have come. -/
def reach (start : Floor Visit Outcome) (events : List (Event Visit Outcome)) (series : Series) :
    Nat :=
  (start.shop.sequences.next series).toNat + drawn events series

end Floor

variable (tariff : Tariff) (start : Floor Visit Outcome) (t₀ : Tables)

/-- The standing of a visit after a run. -/
structure Stands (events : List (Event Visit Outcome)) (f : Floor Visit Outcome) (t : Tables)
    (v : Visit) (s : Session Outcome) (σ : Standing) : Prop where
  writes : σ.writes = s.writes
  diary : σ.diary = (chronicle events).diaries v
  secure : σ.Secure t
  follows : s.Follows (v.errand.conduct tariff) σ fun o σ' => σ'.Ends tariff v.errand o
  seen : ∀ other ∈ σ.seen, Saw start events f v other
  unpromised : σ.promise = none → (chronicle events).places v = none
  promised : ∀ o, σ.promise = some o → ∃ place, (chronicle events).places v = some place ∧
    Kept tariff t₀ (chronicle events).committed v place o
  unused : σ.promise = none → ∀ series id, σ.writes.drew series id → t.uses series id = false

/-- What holds after every run in which everybody comes with an errand. -/
structure Orderly (events : List (Event Visit Outcome)) (f : Floor Visit Outcome) (t : Tables) :
    Prop where
  store : f.shop.store = .memory t
  chain : Chain tariff t₀ (chronicle events).committed t
  keyed : t.Keyed
  locks : f.shop.locks.Serves f.claims
  shows : .hideItem ∉ f.shop.failing
  next : ∀ series, f.shop.sequences.next series = .ofNat (start.reach events series)
  stands : ∀ v s, f.sessions v = some s → ∃ σ, Stands tariff start t₀ events f t v s σ
  used : ∀ series id, t.uses series id → id.toNat < start.reach events series
  drew : ∀ v s, f.sessions v = some s → ∀ series id, s.writes.drew series id →
    id.toNat < start.reach events series
  apart : ∀ v w s s', f.sessions v = some s → f.sessions w = some s' → ∀ series id,
    s.writes.drew series id → s'.writes.drew series id → v = w

variable {tariff start t₀} {events : List (Event Visit Outcome)} {f g : Floor Visit Outcome}
  {t t' : Tables} {v w : Visit} {s s' : Session Outcome} {σ σ' : Standing}
  {e : Event Visit Outcome}

/-! ## What was seen -/

theorem Saw.of_calls (run : start.Run events f) (hstore : f.shop.store = .memory t)
    (calls : f.Calls events v) : Saw start events f v t :=
  ⟨events, [], f, (List.append_nil _).symm, run, .nil, hstore, calls,
    fun _ he => absurd he List.not_mem_nil⟩

theorem Saw.snoc (h : Saw start events f v t) (step : f.Step e g) (he : ¬ e.Bounds v) :
    Saw start (events ++ [e]) g v t := by
  obtain ⟨before, after, g', rfl, hbefore, hafter, hstore, hcalls, hbounds⟩ := h
  refine ⟨before, after ++ [e], g', List.append_assoc .., hbefore, hafter.snoc step, hstore,
    hcalls, fun other hother => ?_⟩
  rcases List.mem_append.1 hother with hother | hother
  · exact hbounds other hother
  · exact List.mem_singleton.1 hother ▸ he

/-! ## Standings -/

theorem Event.not_bounds (he : e.name? ≠ some v) : ¬ e.Bounds v := by
  cases e with
  | comes w task => exact fun h => he (congrArg some h)
  | leaves w => exact fun h => he (congrArg some h)
  | does w deed => exact id
  | turns o => exact id

/-- The standing of a visit is not changed by an event that is about somebody else, as long as the
rows that it knows stay, and the identifiers that it has drawn stay unused. -/
theorem Stands.other (h : Stands tariff start t₀ events f t w s σ) (step : f.Step e g)
    (he : e.name? ≠ some w) (keyed : t'.Keyed) (known : ∀ row ∈ σ.known, t'.row? row.key = some row)
    (unused : σ.promise = none → ∀ series id, σ.writes.drew series id →
      t'.uses series id = false) :
    Stands tariff start t₀ (events ++ [e]) g t' w s σ := by
  obtain ⟨hdiary, hplace⟩ := (chronicle events).write_of_ne he
  obtain ⟨more, hmore⟩ := (chronicle events).committed_write e
  constructor
  case writes => exact h.writes
  case diary => rw [chronicle_append, hdiary, h.diary]
  case secure => exact ⟨⟨keyed, known⟩, h.secure.locked, h.secure.covered⟩
  case follows => exact h.follows
  case seen => exact fun other hother => (h.seen other hother).snoc step (Event.not_bounds he)
  case unpromised =>
    intro hpromise
    rw [chronicle_append, hplace, h.unpromised hpromise]
  case promised =>
    intro o ho
    obtain ⟨place, hplace', kept⟩ := h.promised o ho
    rw [chronicle_append, hplace, hmore]
    exact ⟨place, hplace', kept.append more⟩
  case unused => exact unused

/-- The rows may stay as they are. -/
theorem Stands.still (h : Stands tariff start t₀ events f t w s σ) (step : f.Step e g)
    (he : e.name? ≠ some w) : Stands tariff start t₀ (events ++ [e]) g t w s σ :=
  h.other step he h.secure.fits.keyed h.secure.fits.known h.unused

/-! ## Identifiers -/

theorem Floor.reach_append (start : Floor Visit Outcome) (events more : List (Event Visit Outcome))
    (series : Series) :
    start.reach (events ++ more) series = start.reach events series + drawn more series := by
  rw [reach, drawn_append, ← Nat.add_assoc, reach]

namespace Orderly

variable {series : Series}

/-- An identifier that is drawn now is neither in use nor drawn by anybody. -/
theorem toNat_next (h : Orderly tariff start t₀ events f t)
    (few : start.reach (events ++ [e]) series ≤ UInt64.size) (draws : 0 < drawn [e] series) :
    (f.shop.sequences.next series).toNat = start.reach events series := by
  rw [Floor.reach_append] at few
  rw [h.next, UInt64.toNat_ofNat_of_lt' (by omega)]

theorem next_unused (h : Orderly tariff start t₀ events f t)
    (few : start.reach (events ++ [e]) series ≤ UInt64.size) (draws : 0 < drawn [e] series) :
    t.uses series (f.shop.sequences.next series) = false := by
  refine Bool.eq_false_iff.2 fun hused => ?_
  exact Nat.ne_of_lt (h.used series _ hused) (h.toNat_next few draws)

end Orderly

/-! ## A step of a session -/

/-- The entry of a commit has the reading and the identifiers that the visit has noted. -/
theorem Stands.entry_eq (h : Stands tariff start t₀ events f t v s σ) {deed : Deed}
    (hdeed : deed.commits = true) :
    ((chronicle events).note v deed).entry v = ⟨v, σ.diary.now, σ.diary.ids⟩ := by
  rw [Chronicle.entry, Chronicle.diaries_note_self, Chronicle.note_of_commits hdeed, ← h.diary]

/-- The standing of a visit after it has done an action. -/
theorem Stands.act {action : Action} {next : action.Answer → Task Outcome}
    (h : Stands tariff start t₀ events f t v ⟨σ.writes, .running (.act action next)⟩ σ)
    (order : Orderly tariff start t₀ events f t) (run : start.Run events f)
    (present : f.sessions v = some ⟨σ.writes, .running (.act action next)⟩)
    (step : f.Step (.does v (.did action (f.shop.perform σ.writes action).1)) g)
    (few : ∀ series, start.reach
      (events ++ [.does v (.did action (f.shop.perform σ.writes action).1)]) series ≤ UInt64.size)
    (hstore : (f.shop.perform σ.writes action).2.1.store = .memory t') :
    Stands tariff start t₀ (events ++ [.does v (.did action (f.shop.perform σ.writes action).1)]) g
      t' v ⟨(f.shop.perform σ.writes action).2.2,
        .running (next (f.shop.perform σ.writes action).1)⟩
      (σ.after tariff v.errand f.shop t action) := by
  have permits : σ.Permits tariff v.errand action := h.follows.1
  have calls : f.Calls events v := .inl ⟨_, present, rfl⟩
  have hpromise := Standing.promise_perform order.store permits h.secure.covered h.secure.fits
    hstore
  constructor
  case writes => rfl
  case diary =>
    rw [chronicle_append, Chronicle.diaries_does, Function.update_self, ← h.diary]
    rfl
  case secure => exact h.secure.after order.store permits hstore
  case follows =>
    exact h.follows.2 _ _ ⟨f.shop, t, order.store, h.secure.fits, order.shows, rfl, rfl⟩
  case seen =>
    intro other hother
    rcases Standing.mem_seenAfter hother with rfl | hseen
    · exact (Saw.of_calls run order.store calls).snoc step id
    · exact (h.seen other hseen).snoc step id
  case unpromised =>
    intro hnone
    rcases hpromise with ⟨hcommits, -, hsame⟩ | ⟨-, o, -, ho⟩
    · rw [chronicle_append, Chronicle.write_of_not_commits _ _ _ hcommits]
      exact h.unpromised (hsame.symm.trans hnone)
    · cases ho.symm.trans hnone
  case promised =>
    intro o ho
    rcases hpromise with ⟨hcommits, -, hsame⟩ | ⟨hcommits, o', commits, ho'⟩
    · rw [chronicle_append, Chronicle.write_of_not_commits _ _ _ hcommits]
      exact h.promised o (hsame.symm.trans ho)
    · obtain rfl := Option.some.inj (ho'.symm.trans ho)
      rw [chronicle_append, Chronicle.write_of_commits _ _ _ hcommits]
      refine ⟨_, Function.update_self .., (chronicle events).committed, _, [], t, t', rfl, rfl, rfl,
        order.chain, ?_⟩
      rw [h.entry_eq hcommits]
      exact commits.verdict
  case unused =>
    intro hnone series id hdrew
    rcases hpromise with ⟨hcommits, rfl, hsame⟩ | ⟨-, o, -, ho⟩
    · rcases f.shop.drew_perform σ.writes action series hdrew with ⟨draws, rfl⟩ | hdrew
      · exact order.next_unused (few series) (drawn_pos draws)
      · exact h.unused (hsame.symm.trans hnone) series id hdrew
    · cases ho.symm.trans hnone

/-- The standing of a visit after a move towards a row. -/
theorem Stands.move {deed : Deed} (h : Stands tariff start t₀ events f t v s σ)
    (step : f.Step (.does v deed) g) (hdeed : deed.commits = false) (writes : σ'.writes = s'.writes)
    (diary : σ'.diary = σ.diary.note deed) (secure : σ'.Secure t)
    (follows : s'.Follows (v.errand.conduct tariff) σ' fun o σ' => σ'.Ends tariff v.errand o)
    (seen : σ'.seen = σ.seen) (promise : σ'.promise = σ.promise)
    (drew : ∀ series id, σ'.writes.drew series id = σ.writes.drew series id) :
    Stands tariff start t₀ (events ++ [.does v deed]) g t v s' σ' := by
  have hchronicle := chronicle_append events (.does v deed)
  rw [Chronicle.write_of_not_commits _ _ _ hdeed] at hchronicle
  constructor
  case writes => exact writes
  case diary => rw [hchronicle, Chronicle.diaries_note_self, diary, h.diary]
  case secure => exact secure
  case follows => exact follows
  case seen =>
    intro other hother
    exact (h.seen other (seen ▸ hother)).snoc step id
  case unpromised =>
    rw [hchronicle, promise]
    exact h.unpromised
  case promised =>
    rw [hchronicle, promise]
    exact h.promised
  case unused =>
    rw [promise]
    exact fun hnone series id hid => h.unused hnone series id (drew series id ▸ hid)

namespace Orderly

/-- An event about one visit keeps order if it does so for the visit itself and for the others, and
if it only brings identifiers into use that the visit has drawn. -/
theorem put {shop : Shop} (h : Orderly tariff start t₀ events f t)
    (step : f.Step e (f.put v shop s'))
    (few : ∀ series, start.reach (events ++ [e]) series ≤ UInt64.size)
    (store : shop.store = .memory t')
    (chain : Chain tariff t₀ (chronicle (events ++ [e])).committed t') (keyed : t'.Keyed)
    (shows : .hideItem ∉ shop.failing)
    (next : ∀ series, shop.sequences.next series =
      f.shop.sequences.next series + .ofNat (drawn [e] series))
    (own : ∃ σ', Stands tariff start t₀ (events ++ [e]) (f.put v shop s') t' v s' σ')
    (others : ∀ w s σ, w ≠ v → f.sessions w = some s → Stands tariff start t₀ events f t w s σ →
      Stands tariff start t₀ (events ++ [e]) (f.put v shop s') t' w s σ)
    (drew : ∀ series id, s'.writes.drew series id →
      0 < drawn [e] series ∧ id = f.shop.sequences.next series ∨
        ∃ s, f.sessions v = some s ∧ s.writes.drew series id)
    (uses : ∀ series id, t'.uses series id →
      t.uses series id ∨ ∃ s, f.sessions v = some s ∧ s.writes.drew series id) :
    Orderly tariff start t₀ (events ++ [e]) (f.put v shop s') t' := by
  have hle : ∀ series, start.reach events series ≤ start.reach (events ++ [e]) series :=
    fun series => start.reach_append events [e] series ▸ Nat.le_add_right ..
  have hdrew : ∀ series id, s'.writes.drew series id →
      id.toNat < start.reach (events ++ [e]) series := by
    intro series id hid
    rcases drew series id hid with ⟨draws, rfl⟩ | ⟨s, present, hid⟩
    · rw [h.toNat_next (few series) draws, start.reach_append]
      exact Nat.lt_add_of_pos_right draws
    · exact Nat.lt_of_lt_of_le (h.drew v s present series id hid) (hle series)
  have hapart : ∀ w r series id, w ≠ v → f.sessions w = some r → r.writes.drew series id →
      ¬ s'.writes.drew series id := by
    intro w r series id hw hr hrdrew hid
    rcases drew series id hid with ⟨draws, rfl⟩ | ⟨s, present, hid⟩
    · exact Nat.ne_of_lt (h.drew w r hr series _ hrdrew) (h.toNat_next (few series) draws)
    · exact hw (h.apart w v r s hr present series id hrdrew hid)
  constructor
  case store => exact store
  case chain => exact chain
  case keyed => exact keyed
  case locks => exact step.serves h.locks
  case shows => exact shows
  case next =>
    intro series
    rw [Floor.put_shop, next, start.reach_append, h.next, UInt64.ofNat_add]
  case stands =>
    intro w r hr
    by_cases hw : w = v
    · subst hw
      rw [Floor.put_sessions_self] at hr
      exact Option.some.inj hr ▸ own
    · rw [Floor.put_sessions_of_ne f hw] at hr
      obtain ⟨σ, hσ⟩ := h.stands w r hr
      exact ⟨σ, others w r σ hw hr hσ⟩
  case used =>
    intro series id hid
    rcases uses series id hid with hid | ⟨s, present, hid⟩
    · exact Nat.lt_of_lt_of_le (h.used series id hid) (hle series)
    · exact Nat.lt_of_lt_of_le (h.drew v s present series id hid) (hle series)
  case drew =>
    intro w r hr series id hid
    by_cases hw : w = v
    · subst hw
      rw [Floor.put_sessions_self] at hr
      exact hdrew series id (Option.some.inj hr ▸ hid)
    · rw [Floor.put_sessions_of_ne f hw] at hr
      exact Nat.lt_of_lt_of_le (h.drew w r hr series id hid) (hle series)
  case apart =>
    intro w x r q hr hq series id hrdrew hqdrew
    by_cases hw : w = v <;> by_cases hx : x = v
    · rw [hw, hx]
    · subst hw
      rw [Floor.put_sessions_self] at hr
      rw [Floor.put_sessions_of_ne f hx] at hq
      exact absurd (Option.some.inj hr ▸ hrdrew) (hapart x q series id hx hq hqdrew)
    · subst hx
      rw [Floor.put_sessions_self] at hq
      rw [Floor.put_sessions_of_ne f hw] at hr
      exact absurd (Option.some.inj hq ▸ hqdrew) (hapart w r series id hw hr hrdrew)
    · rw [Floor.put_sessions_of_ne f hw] at hr
      rw [Floor.put_sessions_of_ne f hx] at hq
      exact h.apart w x r q hr hq series id hrdrew hqdrew

/-- Two visits never hold the lock of the same row. -/
theorem locks_apart (h : Orderly tariff start t₀ events f t) (hs : f.sessions v = some s)
    (hs' : f.sessions w = some s') {key : RowKey} (hkey : s.writes.locks key = true)
    (hkey' : s'.writes.locks key = true) : v = w := by
  obtain ⟨ticket, hticket, rfl⟩ := WriteSet.locks_iff.1 hkey
  obtain ⟨ticket', hticket', hsame⟩ := WriteSet.locks_iff.1 hkey'
  refine h.locks.held_exclusive (t := ticket) (u := ticket') ?_ ?_ hsame.symm
  · rw [Floor.claims_of_session hs]
    exact hticket
  · rw [Floor.claims_of_session hs']
    exact hticket'

/-- A row that is in the tables is not one that a visit has inserted and not yet committed. -/
theorem not_inserted (h : Stands tariff start t₀ events f t v s σ) (promise : σ.promise = none)
    {key : RowKey} {row : Row} (hrow : t.row? key = some row) : key ∉ σ.writes.inserted := by
  intro hkey
  cases key with
  | item id => exact h.secure.covered.inserted id hkey
  | rental id =>
      have hunused := h.unused promise .rentals id (List.contains_iff_mem.2 hkey)
      rw [Tables.uses_rentals.2 (by rw [hrow]; rfl)] at hunused
      cases hunused
  | fee id =>
      have hunused := h.unused promise .fees id (List.contains_iff_mem.2 hkey)
      rw [Tables.uses_fees.2 (by rw [hrow]; rfl)] at hunused
      cases hunused

/-- A commit of one visit leaves the rows that another one knows as they are. -/
theorem known_of_commits (h : Orderly tariff start t₀ events f t) {o : Outcome}
    (hv : f.sessions v = some s) (hσ : Stands tariff start t₀ events f t v s σ)
    (commits : σ.Commits tariff v.errand t t' o) (hne : w ≠ v) (hw : f.sessions w = some s')
    (hσ' : Stands tariff start t₀ events f t w s' σ') (row : Row) (hrow : row ∈ σ'.known) :
    t'.row? row.key = some row := by
  have hknown := hσ'.secure.fits.known row hrow
  rcases commits.touches row.key with hsame | holds | hnone
  · rw [hsame, hknown]
  -- The row was written under its lock, which the other visit has, or else it was inserted, which
  -- needs no lock; but then it was in no table before.
  · rcases WriteSet.holds_iff.1 holds with hlocks | hinserted
    · have hlocked := hσ'.secure.locked row hrow
      rw [hσ.writes] at hlocks
      rw [hσ'.writes] at hlocked
      exact absurd (h.locks_apart hw hv hlocked hlocks) hne
    · exact absurd hinserted (not_inserted hσ commits.promise hknown)
  · rw [hnone] at hknown
    cases hknown

/-- A commit uses only identifiers that its visit has drawn. -/
theorem uses_of_commits (hσ : Stands tariff start t₀ events f t v s σ) {o : Outcome}
    (commits : σ.Commits tariff v.errand t t' o) {series : Series} {id : UInt64}
    (hid : t'.uses series id) : t.uses series id ∨ s.writes.drew series id := by
  refine ((Errand.change_of_verdict commits.verdict).uses hσ.secure.fits.keyed hid).imp_right ?_
  rintro ⟨hseries, rfl⟩
  rw [← hσ.writes]
  exact commits.drew series hseries

/-- An action keeps order. -/
theorem act {action : Action} {next : action.Answer → Task Outcome} {writes : WriteSet}
    (h : Orderly tariff start t₀ events f t) (run : start.Run events f)
    (present : f.sessions v = some ⟨writes, .running (.act action next)⟩)
    (few : ∀ series, start.reach
      (events ++ [.does v (.did action (f.shop.perform writes action).1)]) series ≤ UInt64.size) :
    ∃ t', Orderly tariff start t₀
      (events ++ [.does v (.did action (f.shop.perform writes action).1)])
      (f.put v (f.shop.perform writes action).2.1 ⟨(f.shop.perform writes action).2.2,
        .running (next (f.shop.perform writes action).1)⟩) t' := by
  obtain ⟨σ, hσ⟩ := h.stands v _ present
  obtain rfl : σ.writes = writes := hσ.writes
  have step : f.Step _ _ := .does present .act
  have permits : σ.Permits tariff v.errand action := hσ.follows.1
  obtain ⟨t', hstore⟩ : ∃ t', (f.shop.perform σ.writes action).2.1.store = .memory t' := by
    rcases Standing.store_perform h.store permits hσ.secure.covered hσ.secure.fits with
      ⟨-, hsame⟩ | ⟨-, after, -, -, hafter⟩
    · exact ⟨t, hsame⟩
    · exact ⟨after, hafter⟩
  have own := hσ.act h run present step few hstore
  have hpromise := Standing.promise_perform h.store permits hσ.secure.covered hσ.secure.fits hstore
  refine ⟨t', h.put step few hstore ?_ own.secure.fits.keyed ?_ ?_ ⟨_, own⟩ ?_ ?_ ?_⟩
  · rcases hpromise with ⟨hcommits, rfl, -⟩ | ⟨hcommits, o, commits, -⟩
    · rw [chronicle_append, Chronicle.write_of_not_commits _ _ _ hcommits]
      exact h.chain
    · rw [chronicle_append, Chronicle.write_of_commits _ _ _ hcommits, Chronicle.commit,
        hσ.entry_eq hcommits]
      exact h.chain.snoc commits.verdict fun series hseries =>
        hσ.unused commits.promise series _ (commits.drew series hseries)
  · rw [(f.shop.perform_clock σ.writes action).2]
    exact h.shows
  · intro series
    rw [f.shop.perform_next, drawn_does]
    split
    · rfl
    · exact (UInt64.add_zero _).symm
  -- A commit changes no row that somebody else has locked, and uses no identifier that somebody
  -- else has drawn.
  · intro w r σ' hne hr hσ'
    have hvisit : (Event.does v (.did action (f.shop.perform σ.writes action).1) :
        Event Visit Outcome).name? ≠ some w := fun hv => hne (Option.some.inj hv).symm
    rcases hpromise with ⟨-, rfl, -⟩ | ⟨-, o, commits, -⟩
    · exact hσ'.still step hvisit
    · refine hσ'.other step hvisit own.secure.fits.keyed
        (h.known_of_commits present hσ commits hne hr hσ') fun hnone series id hid => ?_
      refine Bool.eq_false_iff.2 fun hused => ?_
      rcases uses_of_commits hσ commits hused with hused | hdrew
      · rw [hσ'.unused hnone series id hid] at hused
        cases hused
      · rw [hσ'.writes] at hid
        exact hne (h.apart w v r _ hr present series id hid hdrew)
  · intro series id hid
    exact (f.shop.drew_perform σ.writes action series hid).imp
      (fun ⟨draws, hid⟩ => ⟨drawn_pos draws, hid⟩) fun hdrew => ⟨_, present, hdrew⟩
  · intro series id hid
    rcases hpromise with ⟨-, rfl, -⟩ | ⟨-, o, commits, -⟩
    · exact .inl hid
    · exact (uses_of_commits hσ commits hid).imp_right fun hdrew => ⟨_, present, hdrew⟩

/-- A move towards a row keeps order. -/
theorem move {deed : Deed} {shop : Shop} (h : Orderly tariff start t₀ events f t)
    (present : f.sessions v = some s) (step : f.Step (.does v deed) (f.put v shop s'))
    (few : ∀ series, start.reach (events ++ [.does v deed]) series ≤ UInt64.size)
    (hdeed : deed.commits = false) (draws : deed.draws? = none)
    (store : shop.store = f.shop.store) (sequences : shop.sequences = f.shop.sequences)
    (failing : shop.failing = f.shop.failing)
    (drew : ∀ series id, s'.writes.drew series id = s.writes.drew series id)
    (own : ∃ σ', Stands tariff start t₀ (events ++ [.does v deed]) (f.put v shop s') t v s' σ') :
    Orderly tariff start t₀ (events ++ [.does v deed]) (f.put v shop s') t := by
  refine h.put step few (store.trans h.store) ?_ h.keyed (failing ▸ h.shows) ?_ own ?_ ?_
    fun _ _ => .inl
  · rw [chronicle_append, Chronicle.write_of_not_commits _ _ _ hdeed]
    exact h.chain
  · intro series
    rw [drawn_does, draws, if_neg nofun, sequences]
    exact (UInt64.add_zero _).symm
  · exact fun w r σ' hne _ hσ' => hσ'.still step fun hv => hne (Option.some.inj hv).symm
  · exact fun series id hid => .inr ⟨s, present, drew series id ▸ hid⟩

/-- A step of a session keeps order. -/
theorem session {deed : Deed} {shop : Shop} (h : Orderly tariff start t₀ events f t)
    (run : start.Run events f) (present : f.sessions v = some s)
    (step : Session.Step f.shop s deed shop s')
    (few : ∀ series, start.reach (events ++ [.does v deed]) series ≤ UInt64.size) :
    ∃ t', Orderly tariff start t₀ (events ++ [.does v deed]) (f.put v shop s') t' := by
  have fstep : f.Step _ _ := .does present step
  obtain ⟨σ, hσ⟩ := h.stands v s present
  have hwrites := hσ.writes
  cases step with
  | act => exact h.act run present few
  | @pass writes key next holds =>
      refine ⟨t, h.move present fstep few rfl rfl rfl rfl rfl (fun _ _ => rfl) ⟨σ, ?_⟩⟩
      refine hσ.move fstep rfl hwrites rfl hσ.secure ?_ rfl rfl fun _ _ => rfl
      exact hσ.follows true σ (.inl ⟨hwrites ▸ holds, rfl⟩)
  | @ask writes key next holds =>
      refine ⟨t, h.move present fstep few rfl rfl rfl rfl rfl (fun _ _ => rfl) ⟨σ, ?_⟩⟩
      exact hσ.move fstep rfl hwrites rfl hσ.secure hσ.follows rfl rfl fun _ _ => rfl
  | @take writes ticket deadline next locks granted =>
      refine ⟨t, h.move present fstep few rfl rfl rfl rfl rfl ?_ ⟨σ.hold ticket, ?_⟩⟩
      · exact fun series id => by cases series <;> rfl
      · refine hσ.move fstep rfl (by rw [Standing.hold, hwrites]) rfl (hσ.secure.hold ticket) ?_
          rfl rfl fun series id => by cases series <;> rfl
        exact hσ.follows true _ (.inr ⟨ticket, rfl, rfl⟩)
  | @giveUp writes ticket deadline next =>
      refine ⟨t, h.move present fstep few rfl rfl rfl rfl rfl (fun _ _ => rfl) ⟨σ.hinder, ?_⟩⟩
      refine hσ.move fstep rfl hwrites rfl hσ.secure.hinder ?_ rfl rfl fun _ _ => rfl
      exact hσ.follows false _ rfl

/-- A visit that comes knows nothing, and has seen the rows that it finds. -/
theorem comes (h : Orderly tariff start t₀ events f t) (run : start.Run events f)
    (absent : f.sessions v = none)
    (few : ∀ series, start.reach
      (events ++ [.comes v (v.errand.task ⟨tariff, .memory⟩)]) series ≤ UInt64.size) :
    Orderly tariff start t₀ (events ++ [.comes v (v.errand.task ⟨tariff, .memory⟩)])
      (f.put v f.shop (.start (v.errand.task ⟨tariff, .memory⟩))) t := by
  have step : f.Step (.comes v (v.errand.task ⟨tariff, .memory⟩)) _ := .comes absent
  have hchronicle := chronicle_append events (.comes v (v.errand.task ⟨tariff, .memory⟩))
  refine h.put step few h.store ?_ h.keyed h.shows ?_ ⟨⟨.empty, .blank, [], [t], none⟩, ?_⟩ ?_ ?_
    fun _ _ => .inl
  · rw [hchronicle]
    exact h.chain
  · exact fun series => (UInt64.add_zero _).symm
  · constructor
    case writes => rfl
    case diary =>
      rw [hchronicle, Chronicle.diaries_comes_self]
    case secure =>
      exact ⟨⟨h.keyed, fun _ hrow => absurd hrow List.not_mem_nil⟩,
        fun _ hrow => absurd hrow List.not_mem_nil, .empty⟩
    case follows => exact task_follows v.errand ⟨rfl, rfl, rfl, rfl⟩ (List.mem_singleton_self t)
    case seen =>
      intro other hother
      obtain rfl := List.mem_singleton.1 hother
      exact .of_calls (run.snoc step) h.store (.inr ⟨events, _, rfl⟩)
    case unpromised =>
      rw [hchronicle, Chronicle.places_comes_self]
      exact fun _ => rfl
    case promised => exact fun o ho => absurd ho.symm (Option.some_ne_none o)
    case unused =>
      intro _ series id hid
      rw [WriteSet.drew_empty] at hid
      cases hid
  · exact fun w r σ hne _ hσ => hσ.still step fun hv => hne (Option.some.inj hv).symm
  · intro series id hid
    change WriteSet.empty.drew series id = true at hid
    rw [WriteSet.drew_empty] at hid
    cases hid

/-- Order is kept when somebody leaves, and when the circumstances change. -/
theorem fewer (h : Orderly tariff start t₀ events f t) (step : f.Step e g)
    (committed : (chronicle (events ++ [e])).committed = (chronicle events).committed)
    (draws : ∀ series, drawn [e] series = 0) (store : g.shop.store = f.shop.store)
    (sequences : g.shop.sequences = f.shop.sequences) (shows : .hideItem ∉ g.shop.failing)
    (sessions : ∀ w s, g.sessions w = some s → f.sessions w = some s ∧ e.name? ≠ some w) :
    Orderly tariff start t₀ (events ++ [e]) g t := by
  have hreach : start.reach (events ++ [e]) = start.reach events := by
    funext series
    rw [start.reach_append, draws, Nat.add_zero]
  constructor
  case store => exact store.trans h.store
  case chain => exact committed ▸ h.chain
  case keyed => exact h.keyed
  case locks => exact step.serves h.locks
  case shows => exact shows
  case next => exact hreach ▸ sequences ▸ h.next
  case stands =>
    intro w r hr
    obtain ⟨hr, hvisit⟩ := sessions w r hr
    obtain ⟨σ, hσ⟩ := h.stands w r hr
    exact ⟨σ, hσ.still step hvisit⟩
  case used => exact hreach ▸ h.used
  case drew => exact fun w r hr => hreach ▸ h.drew w r (sessions w r hr).1
  case apart =>
    exact fun w x r q hr hq => h.apart w x r q (sessions w r hr).1 (sessions x q hq).1

theorem step (h : Orderly tariff start t₀ events f t) (run : start.Run events f)
    (step : f.Step e g) (ordinary : e.Ordinary tariff)
    (few : ∀ series, start.reach (events ++ [e]) series ≤ UInt64.size) :
    ∃ t', Orderly tariff start t₀ (events ++ [e]) g t' := by
  have fstep := step
  cases step with
  | comes absent =>
      obtain rfl := ordinary
      exact ⟨t, h.comes run absent few⟩
  | does present step => exact h.session run present step few
  | @leaves v s present =>
      have hdrop := Floor.drop_eq f.shop s
      refine ⟨t, h.fewer fstep ?_ (fun _ => rfl) ?_ ?_ ?_ fun w r hr => ?_⟩
      · rw [chronicle_append]
        rfl
      · rw [Floor.remove_shop, hdrop]
      · rw [Floor.remove_shop, hdrop]
      · rw [Floor.remove_shop, hdrop]
        exact h.shows
      · have hne : w ≠ v := by
          rintro rfl
          rw [Floor.remove_sessions_self] at hr
          cases hr
        rw [Floor.remove_sessions_of_ne f hne] at hr
        exact ⟨hr, fun hv => hne (Option.some.inj hv).symm⟩
  | turns =>
      refine ⟨t, h.fewer fstep ?_ (fun _ => rfl) rfl rfl ordinary fun w r hr => ⟨hr, nofun⟩⟩
      rw [chronicle_append]
      rfl

theorem start_quiet (h : start.Quiet t₀) : Orderly tariff start t₀ [] start t₀ where
  store := h.store
  chain := .nil
  keyed := h.keyed
  locks := h.locks
  shows := h.shows
  next _ := UInt64.ofNat_toNat.symm
  stands v s hs := by
    rw [h.empty] at hs
    cases hs
  used := h.fresh
  drew v s hs := by
    rw [h.empty] at hs
    cases hs
  apart v w s s' hs := by
    rw [h.empty] at hs
    cases hs

end Orderly

theorem Floor.reach_le (start : Floor Visit Outcome) (events more : List (Event Visit Outcome))
    (series : Series) : start.reach events series ≤ start.reach (events ++ more) series := by
  rw [reach_append]
  exact Nat.le_add_right ..

/-- From a quiet floor every run in which everybody comes with an errand is orderly, as long as
the identifiers do not run out. -/
theorem Floor.Run.orderly (run : start.Run events f) (quiet : start.Quiet t₀)
    (ordinary : ∀ e ∈ events, e.Ordinary tariff)
    (few : ∀ series, start.reach events series ≤ UInt64.size) :
    ∃ t, Orderly tariff start t₀ events f t := by
  induction run with
  | nil => exact ⟨t₀, .start_quiet quiet⟩
  | @snoc events g f e run step ih =>
      obtain ⟨t, h⟩ := ih (fun e he => ordinary e (List.mem_append_left _ he)) fun series =>
        Nat.le_trans (start.reach_le events [e] series) (few series)
      exact h.step run step (ordinary e (List.mem_append_right _ (List.mem_singleton_self e))) few

/-! ## Outcomes -/

/-- A visit that is done has committed and ended as its entry does, or it has ended as its errand
does on rows that it saw, unless a store call failed or a row was refused. -/
theorem Orderly.outcome (h : Orderly tariff start t₀ events f t) (present : f.sessions v = some s)
    {o : Outcome} (result : s.result? = some o) :
    (∃ place, (chronicle events).places v = some place ∧
        Kept tariff t₀ (chronicle events).committed v place o) ∨
      (chronicle events).places v = none ∧
        ((∃ t, Saw start events f v t ∧
            (((chronicle events).entry v).circumstances tariff).verdict t v.errand = (none, o)) ∨
          ((chronicle events).diaries v).hindered = true ∧
            ∃ e, e.isHindrance = true ∧ o = v.errand.failed e) := by
  obtain ⟨σ, hσ⟩ := h.stands v s present
  have hends := hσ.follows.ends result
  cases hpromise : σ.promise with
  | some p =>
      obtain ⟨place, hplace, kept⟩ := hσ.promised p hpromise
      exact .inl ⟨place, hplace, hends.promised p hpromise ▸ kept⟩
  | none =>
      refine .inr ⟨hσ.unpromised hpromise, ?_⟩
      have hexplains := hends.unpromised hpromise
      rw [Standing.Explains, Standing.circumstances, hσ.diary] at hexplains
      exact hexplains.imp_left fun ⟨other, hother, hverdict⟩ =>
        ⟨other, hσ.seen other hother, hverdict⟩

/-- Whatever a visit saw was left behind by a chain of commits. -/
theorem Saw.chain (h : Saw start events f v t) (quiet : start.Quiet t₀)
    (ordinary : ∀ e ∈ events, e.Ordinary tariff)
    (few : ∀ series, start.reach events series ≤ UInt64.size) :
    ∃ before, before <+: events ∧ Chain tariff t₀ (chronicle before).committed t := by
  obtain ⟨before, after, g, rfl, run, -, hstore, -⟩ := h
  obtain ⟨t', order⟩ := run.orderly quiet (fun e he => ordinary e (List.mem_append_left _ he))
    fun series => Nat.le_trans (start.reach_le before after series) (few series)
  obtain rfl : t = t' := Store.memory.inj (hstore.symm.trans order.store)
  exact ⟨before, List.prefix_append .., order.chain⟩

/-! ## The empty desk -/

namespace Floor

/-- The floor of a desk that has just been opened on an empty store. -/
def opened (lockWait : Nat) (clock : Instant) : Floor Visit Outcome :=
  ofShop (Shop.opened (.empty .memory) .fresh lockWait clock)

theorem quiet_opened (lockWait : Nat) (clock : Instant) : (opened lockWait clock).Quiet .empty where
  store := rfl
  empty _ := rfl
  locks := .empty
  shows := List.not_mem_nil
  keyed := .empty
  fresh series id h := by
    rw [Tables.uses_empty] at h
    cases h

theorem reach_opened (lockWait : Nat) (clock : Instant) (events : List (Event Visit Outcome))
    (series : Series) : (opened lockWait clock).reach events series = drawn events series + 1 := by
  rw [reach, Nat.add_comm]
  cases series <;> rfl

end Floor

end RentalDesk
