import Uncertainty.Error
import Uncertainty.Record.Basic
/-!
What a store of records can be asked for and told. A write that fails leaves the store as it was.
-/
namespace Uncertainty

class RecordStore (σ : Type) (ν : outParam Type) where
  records : σ → List (Record ν)
  get? : σ → RecordId → Option (Record ν)
  findParameter? : σ → String → Option (Record ν)
  find? : σ → String → EntityId → Option (Record ν)
  referencing : σ → EntityId → List (Record ν)
  size : σ → Nat
  insert : Record ν → σ → Except StoreError σ
  insertIfAbsent : Record ν → σ → Bool × σ
  update : Record ν → σ → Except StoreError σ
  remove : RecordId → σ → Except StoreError (Record ν × σ)

end Uncertainty
