namespace Uncertainty

structure EntityId where
  index : UInt32
deriving DecidableEq, Repr, Inhabited

def EntityId.text (id : EntityId) : String := "#" ++ toString id.index.toNat

inductive Attribute where
  | totalMass
  | totalWeight
  | dampingRatio
  | crossLinkMass
  | sphereMass
  | threadedRodMass
  | threadedRodCount
  | armMass
  | armCount
  | jointMiddlePartMass
  | springSupportMass
  | stiffness
  | dampingConstant
deriving DecidableEq, Repr, Inhabited

namespace Attribute

def all : List Attribute :=
  [totalMass, totalWeight, dampingRatio, crossLinkMass, sphereMass, threadedRodMass, threadedRodCount,
    armMass, armCount, jointMiddlePartMass, springSupportMass, stiffness, dampingConstant]

def rank : Attribute → Nat
  | totalMass => 0
  | totalWeight => 1
  | dampingRatio => 2
  | crossLinkMass => 3
  | sphereMass => 4
  | threadedRodMass => 5
  | threadedRodCount => 6
  | armMass => 7
  | armCount => 8
  | jointMiddlePartMass => 9
  | springSupportMass => 10
  | stiffness => 11
  | dampingConstant => 12

def name : Attribute → String
  | totalMass => "totalMassInKg"
  | totalWeight => "totalWeightInKg"
  | dampingRatio => "dampingRatio"
  | crossLinkMass => "crossLinkMassInKg"
  | sphereMass => "sphereMassInKg"
  | threadedRodMass => "massOfThreadedRodInKg"
  | threadedRodCount => "numberOfThreadedRods"
  | armMass => "massOfArmInKg"
  | armCount => "numberOfArms"
  | jointMiddlePartMass => "massOfJointMiddlePartInKg"
  | springSupportMass => "springSupportMassInKg"
  | stiffness => "stiffnessInNPerM"
  | dampingConstant => "dampingConstantInNsPerM"

def ofName? (name : String) : Option Attribute := all.find? (·.name == name)

theorem ofName?_name (a : Attribute) : ofName? a.name = some a := by cases a <;> rfl

theorem name_injective {a b : Attribute} (h : a.name = b.name) : a = b := by
  have := congrArg ofName? h
  simpa [ofName?_name] using this

def isDerived : Attribute → Bool
  | totalMass | totalWeight | dampingRatio => true
  | _ => false

def isMass : Attribute → Bool
  | crossLinkMass | sphereMass | threadedRodMass | armMass | jointMiddlePartMass | springSupportMass => true
  | _ => false

def isCount : Attribute → Bool
  | threadedRodCount | armCount => true
  | _ => false

def isDampingInput : Attribute → Bool
  | stiffness | dampingConstant | totalMass => true
  | _ => false

theorem isDerived_of_sums {a : Attribute} (h : (a.isMass || a.isCount) = true) : a.isDerived = false := by
  cases a <;> first | rfl | cases h

end Attribute

inductive EntityKind where
  | damperSystem
  | upperTruss
  | lowerTruss
  | guidanceElement
  | springDamper
deriving DecidableEq, Repr, Inhabited

namespace EntityKind

def all : List EntityKind := [damperSystem, upperTruss, lowerTruss, guidanceElement, springDamper]

def name : EntityKind → String
  | damperSystem => "damper_system"
  | upperTruss => "upper_truss"
  | lowerTruss => "lower_truss"
  | guidanceElement => "guidance_element"
  | springDamper => "spring_damper"

def ofName? (name : String) : Option EntityKind := all.find? (·.name == name)

open Attribute in
def attributes : EntityKind → List Attribute
  | damperSystem => [totalMass, totalWeight, Attribute.dampingRatio]
  | upperTruss => [crossLinkMass, sphereMass, threadedRodMass, threadedRodCount]
  | lowerTruss => [sphereMass, threadedRodMass, threadedRodCount]
  | guidanceElement => [armMass, armCount, jointMiddlePartMass]
  | springDamper => [springSupportMass, stiffness, dampingConstant]

def supports (k : EntityKind) (a : Attribute) : Bool := a ∈ k.attributes

def isRoot : EntityKind → Bool
  | damperSystem => true
  | _ => false

end EntityKind

end Uncertainty
