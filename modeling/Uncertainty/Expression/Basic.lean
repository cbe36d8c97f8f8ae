import Uncertainty.Expression.Error

namespace Uncertainty

inductive Distribution (ν : Type) where
  | normal (mu sigma : ν)
  | sampled (values : List ν)
deriving Inhabited

/-- Every occurrence of a distribution is a variable of its own, also where an expression is used twice. -/
inductive Expression (ν : Type) where
  | literal (value : ν)
  | distribution (leaf : Distribution ν)
  | binary (op : Operator) (left right : Expression ν)
deriving Inhabited

structure Moments (ν : Type) where
  mean : ν
  variance : ν
deriving Inhabited

variable {ν : Type} [Number ν]

namespace Moments

def deviation (m : Moments ν) : ν := Number.sqrt (Number.clampAtZero m.variance)

end Moments

namespace Distribution

def isSampled : Distribution ν → Bool
  | normal _ _ => false
  | sampled _ => true

def mean : Distribution ν → ν
  | normal mu _ => mu
  | sampled values => Number.sum values / Number.ofNat values.length

def variance : Distribution ν → ν
  | normal _ sigma => sigma * sigma
  | sampled values =>
    let m := mean (sampled values)
    Number.sum (values.map fun v => (v - m) * (v - m)) / Number.ofNat values.length

def moments (d : Distribution ν) : Moments ν := ⟨d.mean, d.variance⟩

def listBeq : List ν → List ν → Bool
  | [], [] => true
  | a :: as, b :: bs => a == b && listBeq as bs
  | _, _ => false

def beq : Distribution ν → Distribution ν → Bool
  | normal mu sigma, normal mu' sigma' => mu == mu' && sigma == sigma'
  | sampled values, sampled values' => listBeq values values'
  | _, _ => false

instance : BEq (Distribution ν) := ⟨beq⟩

end Distribution

namespace Expression

def ofValue (v : ν) : Except (LeafError ν) (Expression ν) :=
  if Number.isFinite v then .ok (literal v) else .error (.literalNotFinite v)

def ofNormal (mu sigma : ν) : Except (LeafError ν) (Expression ν) :=
  if !Number.isFinite mu || !Number.isFinite sigma || Number.less sigma Number.zero then
    .error (.normalOutOfRange mu sigma)
  else .ok (distribution (.normal mu sigma))

def ofSamples (values : List ν) : Except (LeafError ν) (Expression ν) :=
  if values.isEmpty then .error .noSamples
  else if values.all Number.isFinite then .ok (distribution (.sampled values))
  else .error .sampleNotFinite

def literal? : Expression ν → Option ν
  | literal v => some v
  | _ => none

def beq : Expression ν → Expression ν → Bool
  | literal a, literal b => a == b
  | distribution a, distribution b => a == b
  | binary op l r, binary op' l' r' => op = op' && beq l l' && beq r r'
  | _, _ => false

instance : BEq (Expression ν) := ⟨beq⟩

end Expression

end Uncertainty
