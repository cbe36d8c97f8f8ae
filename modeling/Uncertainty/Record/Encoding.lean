import Uncertainty.Formula.Evaluation
import Uncertainty.Json.Decode
import Uncertainty.Model.Encoding
import Uncertainty.Record.Basic

namespace Uncertainty

def RecordId.toJson (id : RecordId) : Json := .string id.text

def RecordId.ofJson? (j : Json) : Option RecordId := do RecordId.ofText? (← j.text?)

def Named.toJson {α : Type} [Named α] (a : α) : Json := .string (Named.name a)

def Named.ofJson? {α : Type} [Named α] : Json → Option α := Json.choice? Named.ofName?

def Json.member? {α : Type} (name : String) (encode : α → Json) : Option α → List (String × Json)
  | some a => [(name, encode a)]
  | none => []

namespace Location

def toJson (l : Location) : Json :=
  .object ([("location_type", Named.toJson l.type)] ++
    Json.member? "parameter_location" Json.string l.parameter ++
    [("specification", .string l.specification), ("referenced_components", .array (l.referenced.map EntityId.toJson))])

def ofJson? (j : Json) : Option Location := do
  match ← Json.fields? ["location_type", "parameter_location", "specification", "referenced_components"] j with
  | [type, parameter, specification, referenced] =>
    return {
      type := (← Json.required Named.ofJson? type)
      parameter := (← Json.optional Json.text? parameter)
      specification := (← Json.required Json.text? specification)
      referenced := (← Json.defaulted [] (Json.list? EntityId.ofJson?) referenced) }
  | _ => none

end Location

namespace Perspective

def toJson (p : Perspective) : Json :=
  .object [("perspective", Named.toJson p.viewpoint), ("specification", .string p.specification)]

def ofJson? (j : Json) : Option Perspective := do
  match ← Json.fields? ["perspective", "specification"] j with
  | [viewpoint, specification] =>
    return ⟨← Json.required Named.ofJson? viewpoint, ← Json.required Json.text? specification⟩
  | _ => none

end Perspective

def Named.toJsonField {α : Type} [Named α] (name : String) (a : α) : Json := .object [(name, Named.toJson a)]

def Named.ofJsonField? {α : Type} [Named α] (name : String) (j : Json) : Option α := do
  match ← Json.fields? [name] j with
  | [value] => Json.required Named.ofJson? value
  | _ => none

variable {ν : Type} [Number ν]

def Expression.toJson (e : Expression ν) : Json := .string e.text

def Expression.ofJson? (j : Json) : Option (Expression ν) := do (Expression.parse (← j.text?)).toOption

namespace Effect

def toJson (e : Effect ν) : Json :=
  .object ([("specification", .string e.specification), ("representation", Named.toJson e.representation),
    ("stochasticity", Named.toJson e.stochasticity)] ++ Json.member? "expression" Expression.toJson e.expression)

def ofJson? (j : Json) : Option (Effect ν) := do
  match ← Json.fields? ["specification", "representation", "stochasticity", "expression"] j with
  | [specification, representation, stochasticity, expression] =>
    return {
      specification := (← Json.required Json.text? specification)
      representation := (← Json.required Named.ofJson? representation)
      stochasticity := (← Json.required Named.ofJson? stochasticity)
      expression := (← Json.optional Expression.ofJson? expression) }
  | _ => none

end Effect

namespace Record

def toJson (r : Record ν) : Json :=
  .object ([("id", r.id.toJson), ("kind", Named.toJson r.kind), ("nature", Named.toJson r.nature),
    ("reducibility", Named.toJson r.reducibility), ("on_delete", Named.toJson r.onDelete),
    ("set_manually", .bool r.setManually), ("location", r.location.toJson)] ++
    Json.member? "effect" Effect.toJson r.effect ++
    Json.member? "pattern" (Named.toJsonField "pattern_type") r.pattern ++
    Json.member? "perspective" Perspective.toJson r.perspective ++
    Json.member? "source" (Named.toJsonField "source") r.source)

def fieldNames : List String :=
  ["id", "kind", "nature", "reducibility", "on_delete", "set_manually", "location", "effect", "pattern",
    "perspective", "source"]

def ofJson? (j : Json) : Option (Record ν) := do
  match ← Json.fields? fieldNames j with
  | [id, kind, nature, reducibility, onDelete, setManually, location, effect, pattern, perspective, source] =>
    return {
      id := (← Json.required RecordId.ofJson? id)
      kind := (← Json.required Named.ofJson? kind)
      nature := (← Json.required Named.ofJson? nature)
      reducibility := (← Json.required Named.ofJson? reducibility)
      onDelete := (← Json.required Named.ofJson? onDelete)
      setManually := (← Json.defaulted false Json.bool? setManually)
      location := (← Json.required Location.ofJson? location)
      effect := (← Json.optional Effect.ofJson? effect)
      pattern := (← Json.optional (Named.ofJsonField? "pattern_type") pattern)
      perspective := (← Json.optional Perspective.ofJson? perspective)
      source := (← Json.optional (Named.ofJsonField? "source") source) }
  | _ => none

def ofJsonText? (text : String) : Option (Record ν) := do ofJson? (← Json.parse? text)

end Record

end Uncertainty
