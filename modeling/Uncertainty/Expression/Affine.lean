import Uncertainty.Expression.Shape
import Uncertainty.Expression.Trial
import Uncertainty.Number.Exact

namespace Uncertainty

section Leaves

variable {ν : Type} [Number ν]

def Distribution.drawAll : List (Distribution ν) → Random.Stream → List ν × Random.Stream
  | [], s => ([], s)
  | d :: ds, s =>
    let (v, s) := d.draw s
    let (vs, s) := drawAll ds s
    (v :: vs, s)

namespace Expression

def leaves : Expression ν → List (Distribution ν)
  | literal _ => []
  | distribution d => [d]
  | binary _ l r => l.leaves ++ r.leaves

def valueAt : Expression ν → List ν → ν
  | literal v, _ => v
  | distribution _, xs => xs.headD Number.undefined
  | binary op l r, xs => op.apply (l.valueAt (xs.take l.leaves.length)) (r.valueAt (xs.drop l.leaves.length))

def definedAt (l r : Expression ν) : Operator → Bool
  | .add | .sub | .mul => true
  | .div => !r.shape.constant || !(r.valueAt [] == Number.zero)
  | .pow => !(l.shape.constant && r.shape.constant) || Number.isFinite (Number.power (l.valueAt []) (r.valueAt []))

def isDefined : Expression ν → Bool
  | literal _ => true
  | distribution _ => true
  | binary op l r => l.isDefined && r.isDefined && definedAt l r op

end Expression

end Leaves

structure AffineTerm where
  factor : ℚ
  mu : ℚ
  sigma : ℚ

/-- A constant and a sum of independent normal variables, each with a factor. -/
structure AffineForm where
  constant : ℚ
  terms : List AffineTerm

namespace AffineForm

def leaves {F : Transcendentals} (a : AffineForm) : List (Distribution (Exact F)) :=
  a.terms.map fun t => .normal (.rational t.mu) (.rational t.sigma)

def valueAt (a : AffineForm) (xs : List ℚ) : ℚ := a.constant + (List.zipWith (·.factor * ·) a.terms xs).sum

def mean (a : AffineForm) : ℚ := a.constant + (a.terms.map fun t => t.factor * t.mu).sum

def variance (a : AffineForm) : ℚ := (a.terms.map fun t => t.factor ^ 2 * t.sigma ^ 2).sum

def add (a b : AffineForm) : AffineForm := ⟨a.constant + b.constant, a.terms ++ b.terms⟩

def scale (k : ℚ) (a : AffineForm) : AffineForm :=
  ⟨k * a.constant, a.terms.map fun t => { t with factor := k * t.factor }⟩

end AffineForm

end Uncertainty
