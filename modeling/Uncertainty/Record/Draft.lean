import Uncertainty.Error
import Uncertainty.Record.Basic

namespace Uncertainty

def isWhiteSpace (c : Char) : Bool :=
  let n := c.toNat
  (0x9 ≤ n && n ≤ 0xD) || n = 0x20 || n = 0x85 || n = 0xA0 || n = 0x1680 || (0x2000 ≤ n && n ≤ 0x200A) ||
    n = 0x2028 || n = 0x2029 || n = 0x202F || n = 0x205F || n = 0x3000

structure Draft (ν : Type) where
  id : Option RecordId := none
  kind : UncertaintyKind := default
  nature : Nature := default
  reducibility : Reducibility := default
  onDelete : Deletion := default
  setManually : Bool := false
  location : Option Location := none
  effect : Option (Effect ν) := none
  pattern : Option Pattern := none
  perspective : Option Perspective := none
  source : Option Source := none
deriving Inhabited

namespace Draft

variable {ν : Type}

def withExpression (d : Draft ν) (e : Expression ν) : Draft ν :=
  { d with effect := some { d.effect.getD {} with expression := some e } }

def isName (name : String) : Bool := !name.toList.all isWhiteSpace

def checkLocation (l : Location) : Except ValidationError Location :=
  if l.type = .parameter && !(l.parameter.any isName) then .error .unnamedParameter else .ok l

def build (d : Draft ν) (fresh : RecordId) : Except ValidationError (Record ν) :=
  match d.location with
  | none => .error .missingLocation
  | some l => do
    let location ← checkLocation l
    return {
      id := d.id.getD fresh
      kind := d.kind
      nature := d.nature
      reducibility := d.reducibility
      onDelete := d.onDelete
      setManually := d.setManually
      location := location
      effect := d.effect
      pattern := d.pattern
      perspective := d.perspective
      source := d.source }

end Draft

end Uncertainty
