import Uncertainty.Expression.Basic

namespace Uncertainty

def leafLimit : Nat := UInt64.size - 1

structure Shape (ν : Type) where
  constant : Bool
  sampled : Bool
  linear : Bool
  exact : Option (Moments ν)
  leaves : Nat
  depth : Nat
deriving Inhabited

variable {ν : Type} [Number ν]

namespace Moments

def combine (op : Operator) (leftConstant : Bool) (l r : Moments ν) : Moments ν :=
  match op with
  | .add => ⟨l.mean + r.mean, l.variance + r.variance⟩
  | .sub => ⟨l.mean - r.mean, l.variance + r.variance⟩
  | .mul =>
    let factor := if leftConstant then l.mean else r.mean
    let term := if leftConstant then r else l
    ⟨factor * term.mean, factor * factor * term.variance⟩
  | .div => ⟨l.mean / r.mean, l.variance / (r.mean * r.mean)⟩
  | .pow => ⟨Number.power l.mean r.mean, Number.zero⟩

end Moments

namespace Shape

def literal (v : ν) : Shape ν := ⟨true, false, true, some ⟨v, Number.zero⟩, 1, 1⟩

def leaf (d : Distribution ν) : Shape ν :=
  ⟨false, d.isSampled, true, if d.isSampled then none else some d.moments, 1, 1⟩

def combineLinear (op : Operator) (l r : Shape ν) : Bool :=
  match op with
  | .add | .sub => l.linear && r.linear
  | .mul => l.constant && r.linear || r.constant && l.linear
  | .div => r.constant && l.linear
  | .pow => l.constant && r.constant

def combineExact (op : Operator) (l r : Shape ν) : Option (Moments ν) :=
  if combineLinear op l r && !(l.sampled || r.sampled) then
    match l.exact, r.exact with
    | some a, some b => some (Moments.combine op l.constant a b)
    | _, _ => none
  else none

def combine (op : Operator) (l r : Shape ν) : Shape ν where
  constant := l.constant && r.constant
  sampled := l.sampled || r.sampled
  linear := combineLinear op l r
  exact := combineExact op l r
  leaves := min leafLimit (l.leaves + r.leaves)
  depth := 1 + max l.depth r.depth

end Shape

namespace Expression

def shape : Expression ν → Shape ν
  | literal v => .literal v
  | distribution d => .leaf d
  | binary op l r => .combine op l.shape r.shape

def exactMoments? : Expression ν → Option (Moments ν)
  | distribution d => some d.moments
  | e => e.shape.exact

end Expression

end Uncertainty
