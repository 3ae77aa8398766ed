import RentalDesk.Proofs.Archive.Rows
import RentalDesk.Proofs.Writes
import RentalDesk.Script.Step

/-!
# Tasks on either medium

What an archive answers differs from what memory answers at most in the sign of a zero. Two tasks
are alike if they ask for the same things as long as the answers differ in nothing else, and then
end with results that differ in nothing else. All calls of a transaction are like themselves, for
none of them looks at an amount; and whatever is asked for, two shops of which one keeps in an
archive what the other one keeps in memory give such answers and stay like that.
-/

namespace RentalDesk

/-! ## Answers up to the sign of zeros -/

def Look.plain : (what : Look) → what.Answer → what.Answer
  | .fees => List.map Fee.plain
  | .invoices => List.map Invoice.plain
  | .ledger => Prod.map (List.map Fee.plain) id
  | .item _ | .items | .rentals => id

theorem Look.plain_plain (what : Look) (answer : what.Answer) :
    what.plain (what.plain answer) = what.plain answer := by
  have twice : ∀ {α : Type} {p : α → α}, (∀ row, p (p row) = p row) → ∀ rows : List α,
      (rows.map p).map p = rows.map p := fun h rows => by simp [h]
  cases what with
  | fees => exact twice Fee.plain_plain answer
  | invoices => exact twice Invoice.plain_plain answer
  | ledger => exact Prod.ext (twice Fee.plain_plain answer.1) rfl
  | item id => rfl
  | items => rfl
  | rentals => rfl

def Action.plain : (action : Action) → action.Answer → action.Answer
  | .look what => Except.map what.plain
  | .readFee _ => Except.map (Option.map Fee.plain)
  | .fails _ | .now | .readItem _ | .readRental _ | .insertRental _ | .insertFee _
  | .insertInvoice _ | .updateItem _ | .updateRental _ | .updateFee _ | .apply | .release
  | .discard | .registerItem _ | .placeItem _ | .announce _ => id

/-- A fee and its rental without the sign of a negative zero. -/
def plainPair (pair : Fee × Rental) : Fee × Rental := (pair.1.plain, pair.2)

def Script.Answer.plain : Script.Answer → Script.Answer
  | .fee result => .fee (result.map (Option.map plainPair))
  | .fees result => .fees (result.map (List.map plainPair))
  | .invoices result => .invoices (result.map (List.map Invoice.plain))
  | answer => answer

theorem Script.Answer.plain_plain (answer : Script.Answer) : answer.plain.plain = answer.plain := by
  have twice : ∀ pair : Fee × Rental, plainPair (plainPair pair) = plainPair pair :=
    fun pair => Prod.ext pair.1.plain_plain rfl
  cases answer with
  | fee result => rcases result with e | _ | pair <;> simp [plain, Except.map, twice]
  | fees result => cases result <;> simp [plain, Except.map, twice]
  | invoices result => cases result <;> simp [plain, Except.map]
  | _ => rfl

/-! ## Tasks -/

namespace Task

variable {α β : Type}

/-- The tasks ask for the same, and end alike, if they are answered alike. -/
inductive Alike (plain : α → α) : Task α → Task α → Prop
  | done {a b : α} (h : plain a = plain b) : Alike plain (.done a) (.done b)
  | act {action : Action} {next next' : action.Answer → Task α}
      (h : ∀ x y, action.plain x = action.plain y → Alike plain (next x) (next' y)) :
      Alike plain (.act action next) (.act action next')
  | acquire {key : RowKey} {next next' : Bool → Task α}
      (h : ∀ granted, Alike plain (next granted) (next' granted)) :
      Alike plain (.acquire key next) (.acquire key next')

theorem Alike.bind {p : α → α} {q : β → β} {t t' : Task α} {f f' : α → Task β}
    (h : Alike p t t') (hf : ∀ a b, p a = p b → Alike q (f a) (f' b)) :
    Alike q (t >>= f) (t' >>= f') := by
  change Alike q (t.bind f) (t'.bind f')
  induction h with
  | done h => exact hf _ _ h
  | act _ ih => exact .act fun x y hxy => ih x y hxy
  | acquire _ ih => exact .acquire fun granted => ih granted

end Task

namespace Operation

variable {α β : Type} {p : α → α} {q : β → β}

/-- The operations are alike as tasks, and fail with the same errors. -/
def Alike (plain : α → α) (x y : Operation α) : Prop :=
  Task.Alike (Except.map plain) x.run y.run

theorem Alike.pure {a b : α} (h : p a = p b) :
    Alike p (Pure.pure a : Operation α) (Pure.pure b) :=
  .done (congrArg Except.ok h)

theorem Alike.throw (e : Error) :
    Alike p (MonadExcept.throw e : Operation α) (MonadExcept.throw e) :=
  .done rfl

theorem Alike.bind {x y : Operation α} {f g : α → Operation β} (h : Alike p x y)
    (hf : ∀ a b, p a = p b → Alike q (f a) (g b)) : Alike q (x >>= f) (y >>= g) := by
  refine Task.Alike.bind h fun a b hab => ?_
  cases a with
  | ok a =>
      cases b with
      | ok b => exact hf a b (Except.ok.inj hab)
      | error e => cases hab
  | error e =>
      cases b with
      | ok b => cases hab
      | error e' =>
          obtain rfl := Except.error.inj hab
          exact .done rfl

theorem Alike.ofExcept {a b : Except Error α} (h : a.map p = b.map p) :
    Alike p (MonadExcept.ofExcept a : Operation α) (MonadExcept.ofExcept b) := by
  cases a with
  | ok a =>
      cases b with
      | ok b => exact .pure (Except.ok.inj h)
      | error e => cases h
  | error e =>
      cases b with
      | ok b => cases h
      | error e' =>
          obtain rfl := Except.error.inj h
          exact .throw e

/-- An operation that is answered exactly alike can be followed by anything. -/
theorem Alike.bind_id {x y : Operation α} {f g : α → Operation β} (h : Alike id x y)
    (hf : ∀ a, Alike q (f a) (g a)) : Alike q (x >>= f) (y >>= g) :=
  h.bind fun a b hab => by
    obtain rfl : a = b := hab
    exact hf a

theorem Alike.perform (action : Action) :
    Alike action.plain (Operation.perform action) (Operation.perform action) :=
  .act fun _ _ h => .done (congrArg Except.ok h)

theorem Alike.exact {action : Action} (h : action.plain = id) :
    Alike id (Operation.perform action) (Operation.perform action) := by
  rw [← h]
  exact .perform action

theorem Alike.acquire (key : RowKey) :
    Alike id (Operation.acquire key) (Operation.acquire key) := by
  refine Task.Alike.acquire fun granted => ?_
  cases granted <;> exact .done rfl

/-- An operation whose result is answered. -/
theorem Alike.answers {x : Operation α} (h : Alike p x x) (answer : Except Error α → Script.Answer)
    (answers : ∀ a b, Except.map p a = Except.map p b → (answer a).plain = (answer b).plain) :
    Task.Alike Script.Answer.plain (x.run >>= fun result => Pure.pure (answer result))
      (x.run >>= fun result => Pure.pure (answer result)) :=
  Task.Alike.bind h fun a b hab => .done (answers a b hab)

theorem Alike.answers_id {x : Operation α} (h : Alike id x x)
    (answer : Except Error α → Script.Answer) :
    Task.Alike Script.Answer.plain (x.run >>= fun result => Pure.pure (answer result))
      (x.run >>= fun result => Pure.pure (answer result)) := by
  refine h.answers answer fun a b hab => ?_
  have hsame : ∀ result : Except Error α, result.map id = result := fun result => by
    cases result <;> rfl
  rw [hsame, hsame] at hab
  rw [hab]

end Operation

open Operation

theorem Transaction.alike_lockFee (id : FeeId) :
    Operation.Alike (Option.map plainPair) (Transaction.lockFee id) (Transaction.lockFee id) := by
  refine .bind_id (.acquire _) fun _ => .bind (.perform _) fun result result' h =>
    .bind (.ofExcept h) fun fee fee' hfee => ?_
  cases fee with
  | none =>
      cases fee' with
      | none => exact .pure rfl
      | some fee' => cases hfee
  | some fee =>
      cases fee' with
      | none => cases hfee
      | some fee' =>
          -- The rental to be locked next is the same, since only the amounts can differ.
          have hplain : fee.plain = fee'.plain := Option.some.inj hfee
          obtain ⟨_, _, amount, _, _⟩ := fee
          obtain ⟨_, _, amount', _, _⟩ := fee'
          obtain ⟨rfl, rfl, -, rfl, rfl⟩ := Fee.mk.inj hplain
          refine .bind_id (.acquire _) fun _ => .bind_id (.exact rfl) fun result =>
            .bind_id (.ofExcept rfl) fun rental => ?_
          cases rental with
          | none => exact .throw _
          | some rental => exact .pure (congrArg some (Prod.ext hplain rfl))

/-- No call of a transaction looks at an amount that it reads. -/
theorem Script.Move.alike (move : Script.Move) :
    Task.Alike Script.Answer.plain move.task move.task := by
  cases move with
  | lockItem id =>
      exact Alike.answers_id (.bind_id (.acquire _) fun _ => .bind_id (.exact rfl) fun _ =>
        .ofExcept rfl) _
  | lockFee id =>
      exact (Transaction.alike_lockFee id).answers Answer.fee fun _ _ h => congrArg Answer.fee h
  | insertRental rental => exact Alike.answers_id (.exact rfl) _
  | insertFee fee => exact Alike.answers_id (.exact rfl) _
  | insertInvoice invoice => exact Alike.answers_id (.exact rfl) _
  | updateItem item =>
      exact Alike.answers_id (.bind_id (.exact rfl) fun _ => .ofExcept rfl) _
  | updateRental rental =>
      exact Alike.answers_id (.bind_id (.exact rfl) fun _ => .ofExcept rfl) _
  | updateFee fee =>
      exact Alike.answers_id (.bind_id (.exact rfl) fun _ => .ofExcept rfl) _
  | commit => exact Alike.answers_id (.bind_id (.exact rfl) fun _ => .exact rfl) _
  | rollback => exact Alike.answers_id (.exact rfl) _
  | drop => exact Alike.answers_id (.exact rfl) _

end RentalDesk
