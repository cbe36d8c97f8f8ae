import Uncertainty.Error
import Uncertainty.Expression.Estimate
import Uncertainty.Json.Decode

namespace Uncertainty

namespace Sampling

def check (s : Sampling) : Except ValidationError Sampling :=
  if s.isValid then .ok s else .error .tooFewSamples

def ofJson? (j : Json) : Option Sampling := do
  match ← Json.fields? ["samples", "seed"] j with
  | [samples, seed] =>
    return ⟨← Json.required (Json.natBelow? UInt64.size) samples,
      UInt64.ofNat (← Json.required (Json.natBelow? UInt64.size) seed)⟩
  | _ => none

end Sampling

structure Config where
  sampling : Sampling := Sampling.standard
  propagateWeight : Bool := true
  recordHistory : Bool := true
deriving Inhabited

namespace Config

def check (c : Config) : Except ValidationError Config := do
  let _ ← c.sampling.check
  return c

def ofJson? (j : Json) : Option Config := do
  match ← Json.fields? ["sampling", "propagate_weight", "record_history"] j with
  | [sampling, propagateWeight, recordHistory] =>
    return {
      sampling := (← Json.defaulted Sampling.standard Sampling.ofJson? sampling)
      propagateWeight := (← Json.defaulted true Json.bool? propagateWeight)
      recordHistory := (← Json.defaulted true Json.bool? recordHistory) }
  | _ => none

def ofJsonText (text : String) : Except ValidationError Config :=
  match (Json.parse? text).bind ofJson? with
  | some c => c.check
  | none => .error .unreadableConfig

end Config

end Uncertainty
