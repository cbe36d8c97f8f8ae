import Uncertainty.Expression.Basic
/-!
Expressions whose composite nodes have addresses, so that two places can hold the very same node.
Comparing such expressions stops early where both sides hold one node.
-/
namespace Uncertainty

inductive SharedExpression (ν : Type) where
  | literal (value : ν)
  | distribution (address : Nat) (leaf : Distribution ν)
  | binary (address : Nat) (op : Operator) (left right : SharedExpression ν)
deriving Inhabited

namespace SharedExpression

variable {ν : Type}

def forget : SharedExpression ν → Expression ν
  | literal v => .literal v
  | distribution _ d => .distribution d
  | binary _ op l r => .binary op l.forget r.forget

def sameNode : SharedExpression ν → SharedExpression ν → Bool
  | distribution i _, distribution j _ => i = j
  | binary i _ _ _, binary j _ _ _ => i = j
  | _, _ => false

abbrev Allocating (α : Type) := StateM Nat α

def freshAddress : Allocating Nat := modifyGet fun n => (n, n + 1)

def combine (op : Operator) (l r : SharedExpression ν) : Allocating (SharedExpression ν) := do
  return binary (← freshAddress) op l r

def ofExpression : Expression ν → Allocating (SharedExpression ν)
  | .literal v => return literal v
  | .distribution d => return distribution (← freshAddress) d
  | .binary op l r => do
    let l ← ofExpression l
    let r ← ofExpression r
    combine op l r

def joinAll (op : Operator) (first : SharedExpression ν) : List (SharedExpression ν) → Allocating (SharedExpression ν)
  | [] => return first
  | e :: rest => do joinAll op (← combine op first e) rest

def work : SharedExpression ν → Nat
  | literal _ => 1
  | distribution _ _ => 1
  | binary _ _ l r => 1 + l.work + r.work

def pendingWork : List (SharedExpression ν × SharedExpression ν) → Nat
  | [] => 0
  | (a, _) :: rest => a.work + pendingWork rest

variable [Number ν]

/-- One turn of a comparison of the first pair: the answer if it is known, and otherwise the pairs that are left.
A node is taken to be equal to itself without looking into it. -/
def turn : List (SharedExpression ν × SharedExpression ν) → Bool ⊕ List (SharedExpression ν × SharedExpression ν)
  | [] => .inl true
  | (literal a, literal b) :: rest => if a == b then .inr rest else .inl false
  | (distribution i d, distribution j d') :: rest => if i = j || d == d' then .inr rest else .inl false
  | (binary i op l r, binary j op' l' r') :: rest =>
    if i = j then .inr rest
    else if op = op' then .inr ((l, l') :: (r, r') :: rest)
    else .inl false
  | _ :: _ => .inl false

theorem pendingWork_turn {pending rest : List (SharedExpression ν × SharedExpression ν)}
    (h : turn pending = .inr rest) : pendingWork rest < pendingWork pending := by
  unfold turn at h
  split at h
  · cases h
  · split at h <;> cases h
    simp only [pendingWork, work]
    omega
  · split at h <;> cases h
    simp only [pendingWork, work]
    omega
  · split at h
    · cases h
      simp only [pendingWork, work]
      omega
    · split at h <;> cases h
      simp only [pendingWork, work]
      omega
  · cases h

def compareAll (pending : List (SharedExpression ν × SharedExpression ν)) : Bool :=
  match _h : turn pending with
  | .inl equal => equal
  | .inr rest => compareAll rest
termination_by pendingWork pending
decreasing_by exact pendingWork_turn _h

def beq (a b : SharedExpression ν) : Bool := compareAll [(a, b)]

instance : BEq (SharedExpression ν) := ⟨beq⟩

end SharedExpression

end Uncertainty
