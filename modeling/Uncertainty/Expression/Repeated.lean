import Uncertainty.Expression.Shared
/-!
Sums of many copies of one expression by doubling, so that few new nodes and few levels are needed.
-/
namespace Uncertainty

def addTo {m : Type → Type} [Monad m] {α : Type} (add : α → α → m α) (total : Option α) (power : α) : m α :=
  match total with
  | some sum => add sum power
  | none => pure power

/-- Adds `remaining` copies of `power` to `total`. The lowest bit of `remaining` says whether `power`
itself is due; its double stands for the bits above. -/
def addCopies {m : Type → Type} [Monad m] {α : Type} (add : α → α → m α) (total : Option α) (power : α)
    (remaining : Nat) : m (Option α) :=
  if remaining = 0 then pure total
  else do
    let total ← if remaining % 2 = 1 then some <$> addTo add total power else pure total
    let power ← if 1 < remaining then add power power else pure power
    addCopies add total power (remaining / 2)
termination_by remaining

def sumCopies {m : Type → Type} [Monad m] {α : Type} (add : α → α → m α) (x : α) (count : Nat) : m (Option α) :=
  addCopies add none x count

variable {ν : Type}

def SharedExpression.sumCopies (e : SharedExpression ν) (count : Nat) :
    SharedExpression.Allocating (Option (SharedExpression ν)) :=
  Uncertainty.sumCopies (SharedExpression.combine .add) e count

def Expression.repeated [Number ν] (e : Expression ν) (count : Nat) : Except (LeafError ν) (Expression ν) :=
  match e with
  | literal v => ofValue (v * Number.ofNat count)
  | e =>
    match Id.run (sumCopies (fun a b => pure (binary .add a b)) e count) with
    | some sum => .ok sum
    | none => ofValue Number.zero

end Uncertainty
