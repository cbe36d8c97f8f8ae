import Uncertainty.Reaction.Basic

namespace Uncertainty

inductive Trigger (ν : Type) where
  | change (c : Change ν)
  | changes (c : Change ν) (count : Nat)
  | difference (container : EntityId) (delta : ν)
deriving Inhabited

variable {σ ν : Type} [RecordStore σ ν]

namespace Trigger

def container : Trigger ν → EntityId
  | change c => c.container
  | changes c _ => c.container
  | difference container _ => container

def source? (derived : Attribute) (s : σ) : Trigger ν → Option (Record ν)
  | change c => RecordStore.find? s c.parameter.name c.affected
  | changes c _ => RecordStore.find? s c.parameter.name c.affected
  | difference container _ => RecordStore.find? s derived.name container

end Trigger

def Reaction.run [Number ν] (reaction : Reaction) (config : Sampling) :
    Trigger ν → Workspace.Work σ ν (Option (Record ν))
  | .change c => reaction.handle config c
  | .changes c count => reaction.handleMultiple config c count
  | .difference container delta => reaction.absorb config container delta

end Uncertainty
