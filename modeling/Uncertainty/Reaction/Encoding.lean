import Uncertainty.Json.Decode
import Uncertainty.Reaction.Basic

namespace Uncertainty

def Attribute.ofJson? : Json → Option Attribute := Json.choice? Attribute.ofName?

namespace Input

def ofJson? (j : Json) : Option Input := do
  match ← Json.fields? ["variable", "attribute"] j with
  | [name, source] => return ⟨← Json.required Json.text? name, ← Json.required Attribute.ofJson? source⟩
  | _ => none

end Input

namespace Policy

def ofJson? (j : Json) : Option Policy := do
  match ← Json.fields? ["policy", "formula", "inputs"] j with
  | [some (.string "incremental"), _, _] => return .incremental
  | [some (.string "recompute"), formula, inputs] =>
    return .recompute (← Json.required Json.text? formula) (← Json.required (Json.list? Input.ofJson?) inputs)
  | _ => none

end Policy

namespace Reaction

def ofJson? (j : Json) : Option Reaction := do
  match ← Json.fields? ["derived", "policy"] j with
  | [derived, policy] => return ⟨← Json.required Attribute.ofJson? derived, ← Json.required Policy.ofJson? policy⟩
  | _ => none

end Reaction

end Uncertainty
