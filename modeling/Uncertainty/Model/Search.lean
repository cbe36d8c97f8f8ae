import Uncertainty.Model.Registry
/-!
The climb to a root and the search for a holder as loops, which go on for as long as they find something to do.
-/
namespace Uncertainty

inductive EndsAfter {σ α : Type} (turn : σ → α ⊕ σ) : Nat → σ → α → Prop
  | now {s : σ} {x : α} : turn s = .inl x → EndsAfter turn 0 s x
  | later {n : Nat} {s t : σ} {x : α} : turn s = .inr t → EndsAfter turn n t x → EndsAfter turn (n + 1) s x

def EndsWith {σ α : Type} (turn : σ → α ⊕ σ) (s : σ) (x : α) : Prop := ∃ n, EndsAfter turn n s x

namespace Registry

variable {ν : Type}

def climb (m : Registry ν) (id : EntityId) : Except ModelError EntityId ⊕ EntityId :=
  match m.container id with
  | .ok (some parent) => .inr parent
  | .ok none => .inl (.ok id)
  | .error e => .inl (.error e)

def look (m : Registry ν) (a : Attribute) : List EntityId → Except ModelError (Option EntityId) ⊕ List EntityId
  | [] => .inl (.ok none)
  | id :: pending =>
    match m.entity id with
    | .ok e => if e.kind.supports a then .inl (.ok (some id)) else .inr (e.children ++ pending)
    | .error e => .inl (.error e)

def GivesUp {α : Type} (x : Except ModelError α) : Prop := ∃ id, x = .error (.endlessContainment id)

end Registry

end Uncertainty
