import Uncertainty.Model.Entity
import Uncertainty.Number.Basic

namespace Uncertainty

inductive PlacementError where
  | systemInside
  | partOutside
  | notASystem (container : EntityId) (kind : EntityKind)
  | full
deriving DecidableEq, Repr, Inhabited

inductive ModelError where
  | entityNotFound (id : EntityId)
  | attributeNotSupported (kind : EntityKind) (wanted : Attribute)
  | invalidContainer (kind : EntityKind) (error : PlacementError)
  | endlessContainment (id : EntityId)
deriving DecidableEq, Repr, Inhabited

def PlacementError.message : PlacementError → String
  | systemInside => "a damper system is a root entity"
  | partOutside => "parts must be placed in a damper system"
  | notASystem container kind => "container " ++ container.text ++ " is a " ++ kind.name
  | full => "registry is full"

def ModelError.message : ModelError → String
  | entityNotFound id => "Entity not found: " ++ id.text
  | attributeNotSupported kind a => "Attribute '" ++ a.name ++ "' is not defined for " ++ kind.name
  | invalidContainer kind error => "Invalid container for " ++ kind.name ++ ": " ++ error.message
  | endlessContainment id => "Containment has no end at " ++ id.text

structure Entity (ν : Type) where
  kind : EntityKind
  container : Option EntityId
  children : List EntityId
  values : List (Attribute × ν)
deriving Inhabited

structure Registry (ν : Type) where
  entities : Array (Entity ν)
deriving Inhabited

variable {ν : Type}

namespace Entity

def value? (e : Entity ν) (a : Attribute) : Option ν := e.values.lookup a

def setValue (e : Entity ν) (a : Attribute) (v : ν) : Entity ν :=
  { e with values := e.values.map fun entry => if entry.1 = a then (a, v) else entry }

def new [Number ν] (kind : EntityKind) (container : Option EntityId) : Entity ν :=
  ⟨kind, container, [], kind.attributes.map fun a => (a, Number.zero)⟩

end Entity

namespace Registry

def empty : Registry ν := ⟨#[]⟩

def size (m : Registry ν) : Nat := m.entities.size

def ids (m : Registry ν) : List EntityId := (List.range m.size).map fun i => ⟨UInt32.ofNat i⟩

def entity (m : Registry ν) (id : EntityId) : Except ModelError (Entity ν) :=
  match m.entities[id.index.toNat]? with
  | some e => .ok e
  | none => .error (.entityNotFound id)

def contains (m : Registry ν) (id : EntityId) : Bool := id.index.toNat < m.size

def kind (m : Registry ν) (id : EntityId) : Except ModelError EntityKind := do
  return (← m.entity id).kind

def container (m : Registry ν) (id : EntityId) : Except ModelError (Option EntityId) := do
  return (← m.entity id).container

def children (m : Registry ν) (id : EntityId) : Except ModelError (List EntityId) := do
  return (← m.entity id).children

def get (m : Registry ν) (id : EntityId) (a : Attribute) : Except ModelError ν := do
  let e ← m.entity id
  match e.value? a with
  | some v => return v
  | none => throw (.attributeNotSupported e.kind a)

def set (m : Registry ν) (id : EntityId) (a : Attribute) (v : ν) : Except ModelError (ν × Registry ν) := do
  let e ← m.entity id
  match e.value? a with
  | some old => return (old, ⟨m.entities.setIfInBounds id.index.toNat (e.setValue a v)⟩)
  | none => throw (.attributeNotSupported e.kind a)

def checkPlacement (m : Registry ν) (kind : EntityKind) (container : Option EntityId) : Except ModelError Unit :=
  match kind.isRoot, container with
  | true, some _ => throw (.invalidContainer kind .systemInside)
  | false, none => throw (.invalidContainer kind .partOutside)
  | false, some parent => do
    let parentKind ← m.kind parent
    if parentKind.isRoot then return () else throw (.invalidContainer kind (.notASystem parent parentKind))
  | true, none => return ()

def addChild (child : EntityId) (e : Entity ν) : Entity ν := { e with children := e.children ++ [child] }

def insert [Number ν] (m : Registry ν) (kind : EntityKind) (container : Option EntityId) :
    Except ModelError (EntityId × Registry ν) := do
  m.checkPlacement kind container
  if m.size < UInt32.size then
    let id : EntityId := ⟨UInt32.ofNat m.size⟩
    let entities := m.entities.push (Entity.new kind container)
    match container with
    | none => return (id, ⟨entities⟩)
    | some parent => return (id, ⟨entities.modify parent.index.toNat (addChild id)⟩)
  else throw (.invalidContainer kind .full)

def firstAnswer (ask : EntityId → Except ModelError (Option EntityId)) :
    List EntityId → Except ModelError (Option EntityId)
  | [] => return none
  | id :: rest => do
    match ← ask id with
    | some found => return some found
    | none => firstAnswer ask rest

def holderWithin (m : Registry ν) (a : Attribute) : Nat → EntityId → Except ModelError (Option EntityId)
  | 0, id => throw (.endlessContainment id)
  | levels + 1, id => do
    let e ← m.entity id
    if e.kind.supports a then return some id
    else firstAnswer (m.holderWithin a levels) e.children

/-- The first entity, in pre-order from `root`, whose kind supports the attribute. A walk that goes deeper
than there are entities has met one of them twice. -/
def findHolder (m : Registry ν) (root : EntityId) (a : Attribute) : Except ModelError (Option EntityId) :=
  m.holderWithin a (m.size + 1) root

def rootWithin (m : Registry ν) : Nat → EntityId → Except ModelError EntityId
  | 0, id => throw (.endlessContainment id)
  | levels + 1, id => do
    match ← m.container id with
    | some parent => m.rootWithin levels parent
    | none => return id

def rootOf (m : Registry ν) (id : EntityId) : Except ModelError EntityId := m.rootWithin (m.size + 1) id

end Registry

end Uncertainty
