import Uncertainty.Json.Basic
import Uncertainty.Record.Encoding

namespace Uncertainty

inductive Rule where
  | incremental
  | incrementalBatched
  | recompute
  | crispAdjustment
deriving DecidableEq, Repr, Inhabited

instance : Named Rule where
  all := [.incremental, .incrementalBatched, .recompute, .crispAdjustment]
  name
    | .incremental => "incremental"
    | .incrementalBatched => "incremental_batched"
    | .recompute => "recompute"
    | .crispAdjustment => "crisp_adjustment"

structure HistoryEntry (ν : Type) where
  rule : Rule
  parameter : Attribute
  source : Option RecordId
  derived : RecordId
  expression : Option (Expression ν)
  mean : ν
deriving Inhabited

end Uncertainty
