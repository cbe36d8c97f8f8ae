import Uncertainty.Store.Indexed
import Uncertainty.Store.Listing
/-!
The writes of a store as data, so that a store can be told a whole sequence of them, and what it means that two
stores cannot be told apart.
-/
namespace Uncertainty

class RestorableStore (σ : Type) (ν : outParam Type) extends RecordStore σ ν where
  ofRecords : List (Record ν) → Except StoreError σ

instance {ν : Type} : RestorableStore (Store ν) ν := ⟨Store.ofRecords⟩

instance {ν : Type} : RestorableStore (Listing ν) ν := ⟨Listing.ofRecords⟩

inductive StoreCall (ν : Type) where
  | insert (r : Record ν)
  | insertIfAbsent (r : Record ν)
  | update (r : Record ν)
  | remove (id : RecordId)
  | restore (rs : List (Record ν))
deriving Inhabited

inductive StoreReply (ν : Type) where
  | done (result : Except StoreError Unit)
  | added (added : Bool)
  | removed (result : Except StoreError (Record ν))
deriving Inhabited

variable {σ τ ν : Type}

def StoreReply.ofWrite (s : σ) : Except StoreError σ → StoreReply ν × σ
  | .ok s => (.done (.ok ()), s)
  | .error e => (.done (.error e), s)

namespace StoreCall

def perform [RestorableStore σ ν] (s : σ) : StoreCall ν → StoreReply ν × σ
  | insert r => StoreReply.ofWrite s (RecordStore.insert r s)
  | insertIfAbsent r =>
    let (added, s) := RecordStore.insertIfAbsent r s
    (.added added, s)
  | update r => StoreReply.ofWrite s (RecordStore.update r s)
  | remove id =>
    match RecordStore.remove id s with
    | .ok (r, s) => (.removed (.ok r), s)
    | .error e => (.removed (.error e), s)
  | restore rs => StoreReply.ofWrite s (RestorableStore.ofRecords rs)

def performAll [RestorableStore σ ν] : List (StoreCall ν) → σ → List (StoreReply ν) × σ
  | [], s => ([], s)
  | call :: calls, s =>
    let (reply, s) := call.perform s
    let (replies, s) := performAll calls s
    (reply :: replies, s)

end StoreCall

structure SameAnswers [RecordStore σ ν] [RecordStore τ ν] (s : σ) (t : τ) : Prop where
  records : RecordStore.records s = RecordStore.records t
  size : RecordStore.size s = RecordStore.size t
  get? : ∀ id, RecordStore.get? s id = RecordStore.get? t id
  findParameter? : ∀ name, RecordStore.findParameter? s name = RecordStore.findParameter? t name
  find? : ∀ name id, RecordStore.find? s name id = RecordStore.find? t name id
  referencing : ∀ id, RecordStore.referencing s id = RecordStore.referencing t id

end Uncertainty
