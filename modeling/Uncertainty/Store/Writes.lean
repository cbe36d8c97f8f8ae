import Uncertainty.Store.Calls

namespace Uncertainty

inductive StoreWrite (ν : Type) where
  | insert (r : Record ν)
  | insertIfAbsent (r : Record ν)
  | update (r : Record ν)
  | remove (id : RecordId)
deriving Inhabited

variable {σ ν : Type}

namespace StoreWrite

def toCall : StoreWrite ν → StoreCall ν
  | insert r => .insert r
  | insertIfAbsent r => .insertIfAbsent r
  | update r => .update r
  | remove id => .remove id

def perform [RecordStore σ ν] (s : σ) : StoreWrite ν → StoreReply ν × σ
  | insert r => StoreReply.ofWrite s (RecordStore.insert r s)
  | insertIfAbsent r =>
    let (added, s) := RecordStore.insertIfAbsent r s
    (.added added, s)
  | update r => StoreReply.ofWrite s (RecordStore.update r s)
  | remove id =>
    match RecordStore.remove id s with
    | .ok (r, s) => (.removed (.ok r), s)
    | .error e => (.removed (.error e), s)

def performAll [RecordStore σ ν] : List (StoreWrite ν) → σ → List (StoreReply ν) × σ
  | [], s => ([], s)
  | write :: writes, s =>
    let (reply, s) := write.perform s
    let (replies, s) := performAll writes s
    (reply :: replies, s)

theorem perform_toCall [RestorableStore σ ν] (s : σ) (write : StoreWrite ν) :
    write.toCall.perform s = write.perform s := by
  cases write <;> rfl

end StoreWrite

def StoreReply.taken? : StoreReply ν → Option RecordId
  | removed (.ok r) => some r.id
  | _ => none

end Uncertainty
