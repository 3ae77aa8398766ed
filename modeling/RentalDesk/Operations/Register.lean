import RentalDesk.Operations.Checked

/-!
# Registering items

An item is registered unless there is one of its identifier already. Memory does that in one
action. With an archive the row of the item is locked meanwhile, so that no transaction writes the
same item.
-/

namespace RentalDesk.Terms

open Operation

/-- Registers an item, and says whether it is new. -/
def register (terms : Terms) (item : Item) : Operation Bool :=
  checked .registerItem do
    match terms.medium with
    | .memory => ofExcept (← perform (.registerItem item))
    | .archive =>
      acquire (.item item.id)
      match ← ExceptT.lift (look (.item item.id)).run with
      | .ok none =>
        perform (.placeItem item)
        perform .discard
        return true
      | .ok (some _) =>
        perform .discard
        return false
      | .error e =>
        perform .discard
        throw e

end RentalDesk.Terms
