import Uncertainty.Expression.Basic
import Uncertainty.Record.Classification
import Uncertainty.Record.Id

namespace Uncertainty

structure Location where
  type : LocationType := .parameter
  parameter : Option String := none
  specification : String := ""
  referenced : List EntityId := []
deriving DecidableEq, Inhabited

structure Effect (ν : Type) where
  specification : String := ""
  representation : Representation := .continuous
  stochasticity : Stochasticity := .probabilistic
  expression : Option (Expression ν) := none
deriving Inhabited

structure Perspective where
  viewpoint : Viewpoint := .objective
  specification : String := ""
deriving DecidableEq, Inhabited

structure Record (ν : Type) where
  id : RecordId
  kind : UncertaintyKind
  nature : Nature
  reducibility : Reducibility
  onDelete : Deletion
  setManually : Bool
  location : Location
  effect : Option (Effect ν)
  pattern : Option Pattern
  perspective : Option Perspective
  source : Option Source
deriving Inhabited

variable {ν : Type}

namespace Location

def ofAttribute (a : Attribute) (entities : List EntityId) : Location where
  parameter := some a.name
  referenced := entities

def isParameter (l : Location) (name : String) : Bool := l.type = .parameter && l.parameter = some name

def references (l : Location) (id : EntityId) : Bool := id ∈ l.referenced

def parameter? (l : Location) : Option String := if l.type = .parameter then l.parameter else none

end Location

namespace Effect

variable [Number ν]

def beq (a b : Effect ν) : Bool :=
  a.specification = b.specification && a.representation = b.representation &&
    a.stochasticity = b.stochasticity && a.expression == b.expression

instance : BEq (Effect ν) := ⟨beq⟩

end Effect

namespace Record

def expression? (r : Record ν) : Option (Expression ν) := r.effect.bind (·.expression)

def withExpression (r : Record ν) (e : Expression ν) : Record ν :=
  { r with effect := some { r.effect.getD {} with expression := some e } }

def parameter? (r : Record ν) : Option String := r.location.parameter?

def describes (r : Record ν) (name : String) (id : EntityId) : Bool :=
  r.location.isParameter name && r.location.references id

def copy (r : Record ν) (id : RecordId) : Record ν where
  id := id
  kind := r.kind
  nature := r.nature
  reducibility := r.reducibility
  onDelete := r.onDelete
  setManually := false
  location := { type := r.location.type, specification := r.location.specification }
  effect := r.effect.map fun e => { e with expression := none }
  pattern := r.pattern
  perspective := r.perspective
  source := none

def copyTo (r : Record ν) (id : RecordId) (parameter : Option String) (referenced : List EntityId) : Record ν :=
  let c := r.copy id
  { c with location := { c.location with parameter := parameter, referenced := referenced } }

/-- Same classification; where a record is and what it says in words do not count, nor does its expression. -/
def isLike (a b : Record ν) : Bool :=
  a.kind = b.kind && a.nature = b.nature && a.reducibility = b.reducibility && a.onDelete = b.onDelete &&
    a.effect.map (fun e => (e.representation, e.stochasticity)) =
      b.effect.map (fun e => (e.representation, e.stochasticity)) &&
    a.pattern = b.pattern &&
    a.perspective.map (·.viewpoint) = b.perspective.map (·.viewpoint)

variable [Number ν]

def beq (a b : Record ν) : Bool :=
  a.id = b.id && a.kind = b.kind && a.nature = b.nature && a.reducibility = b.reducibility &&
    a.onDelete = b.onDelete && a.setManually = b.setManually && a.location = b.location &&
    a.effect == b.effect && a.pattern = b.pattern && a.perspective = b.perspective && a.source = b.source

instance : BEq (Record ν) := ⟨beq⟩

end Record

end Uncertainty
