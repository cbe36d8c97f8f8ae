import Uncertainty.Attempt
import Uncertainty.Store.Basic

namespace Uncertainty

structure Shelf (σ : Type) where
  store : σ
  supply : IdSupply
deriving Inhabited

namespace Shelf

variable {σ ν : Type}

abbrev Work (σ : Type) := Attempt StoreError (Shelf σ)

def freshId : Work σ RecordId := modifyGet fun s => (s.supply.fresh, { s with supply := s.supply.next })

variable [RecordStore σ ν]

def insert (r : Record ν) : Work σ Unit :=
  Attempt.step fun s => do return ((), { s with store := ← RecordStore.insert r s.store })

def isCovered (template : Record ν) (id : EntityId) (s : σ) : Bool :=
  (RecordStore.referencing s id).any template.isLike

def cover (template : Record ν) (id : EntityId) : Work σ (Option (Record ν)) := do
  if isCovered template id (← get).store then return none
  let r := template.copyTo (← freshId) template.location.parameter [id]
  insert r
  return some r

def coverAll (template : Record ν) : List EntityId → Work σ (List (Record ν))
  | [] => return []
  | id :: ids => do
    let created ← cover template id
    let rest ← coverAll template ids
    return created.toList ++ rest

end Shelf

end Uncertainty
