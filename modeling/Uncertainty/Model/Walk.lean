import Uncertainty.Model.Registry

namespace Uncertainty

inductive ModelCall (ν : Type) where
  | insert (kind : EntityKind) (container : Option EntityId)
  | set (id : EntityId) (a : Attribute) (v : ν)
deriving Inhabited

variable {ν : Type}

namespace ModelCall

variable [Number ν]

def perform (m : Registry ν) : ModelCall ν → Registry ν
  | insert kind container =>
    match m.insert kind container with
    | .ok (_, m') => m'
    | .error _ => m
  | set id a v =>
    match m.set id a v with
    | .ok (_, m') => m'
    | .error _ => m

def performAll : List (ModelCall ν) → Registry ν → Registry ν
  | [], m => m
  | call :: calls, m => performAll calls (call.perform m)

end ModelCall

namespace Registry

def supports (m : Registry ν) (id : EntityId) (a : Attribute) : Bool :=
  match m.kind id with
  | .ok kind => kind.supports a
  | .error _ => false

/-- Each of the entities on the left is followed by all that is in it before the next one has its turn. -/
inductive Walk (m : Registry ν) : List EntityId → List EntityId → Prop
  | done : Walk m [] []
  | visit {id : EntityId} {children below rest after : List EntityId} :
    m.children id = .ok children → Walk m children below → Walk m rest after → Walk m (id :: rest) (id :: below ++ after)

end Registry

end Uncertainty
