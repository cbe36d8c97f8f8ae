import Uncertainty.Model.Registry

namespace Uncertainty

variable {ν : Type} [Number ν]

def dampingRatio? (dampingConstant stiffness mass : ν) : Option ν :=
  let product := stiffness * mass
  if Number.less Number.zero product then
    let ratio := dampingConstant / (Number.ofNat 2 * Number.sqrt product)
    if Number.isFinite ratio then some ratio else none
  else none

def countLimit : Nat := UInt32.size - 1

def itemCount (v : ν) : Nat :=
  if Number.isFinite v && Number.less Number.zero v then min (Number.nearestNat v) countLimit else 0

def Attribute.counter? : Attribute → Option Attribute
  | threadedRodMass => some threadedRodCount
  | armMass => some armCount
  | _ => none

namespace Registry

def multiplicity (m : Registry ν) (id : EntityId) (a : Attribute) : Except ModelError Nat :=
  match a.counter? with
  | some counter => do return itemCount (← m.get id counter)
  | none => return 1

def itemsMass (m : Registry ν) (id : EntityId) (counter mass : Attribute) : Except ModelError ν := do
  let count ← m.get id counter
  let each ← m.get id mass
  return Number.ofNat (itemCount count) * each

def partMass (m : Registry ν) (part : EntityId) : Except ModelError ν := do
  match ← m.kind part with
  | .damperSystem => return Number.zero
  | .upperTruss => do
    let link ← m.get part .crossLinkMass
    let rods ← m.itemsMass part .threadedRodCount .threadedRodMass
    let sphere ← m.get part .sphereMass
    return link + rods + sphere
  | .lowerTruss => do
    let rods ← m.itemsMass part .threadedRodCount .threadedRodMass
    let sphere ← m.get part .sphereMass
    return rods + sphere
  | .guidanceElement => do
    let arms ← m.itemsMass part .armCount .armMass
    let joint ← m.get part .jointMiddlePartMass
    return arms + joint
  | .springDamper => m.get part .springSupportMass

def totalMass (m : Registry ν) (system : EntityId) : Except ModelError ν := do
  (← m.children system).foldlM (fun sum part => return sum + (← m.partMass part)) Number.zero

def dampingRatio? (m : Registry ν) (system : EntityId) : Except ModelError (Option ν) := do
  match ← m.findHolder system .stiffness with
  | none => return none
  | some spring =>
    let c ← m.get spring .dampingConstant
    let k ← m.get spring .stiffness
    let mass ← m.get system .totalMass
    return Uncertainty.dampingRatio? c k mass

end Registry

end Uncertainty
