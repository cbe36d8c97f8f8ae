import Uncertainty.Json.Float
import Uncertainty.Model.Registry
/-!
Models as JSON. Reading takes what is written, whether or not its entities fit together.
-/
namespace Uncertainty

def EntityId.toJson (id : EntityId) : Json := .ofNat id.index.toNat

def EntityId.ofJson? (j : Json) : Option EntityId := do
  return ⟨UInt32.ofNat (← Json.natBelow? UInt32.size j)⟩

def EntityKind.ofJson? : Json → Option EntityKind := Json.choice? EntityKind.ofName?

namespace Entity

def valuesOfJson? : Json → Option (List (Attribute × Float))
  | .object members => do
    let values ← members.mapM fun member => do
      return ((← Attribute.ofName? member.1), (← Json.float? member.2))
    return Attribute.all.filterMap fun a => (values.reverse.lookup a).map fun v => (a, v)
  | _ => none

def ofJson? (j : Json) : Option (Entity Float) := do
  match ← Json.fields? ["kind", "container", "children", "values"] j with
  | [kind, container, children, values] =>
    return {
      kind := (← Json.required EntityKind.ofJson? kind)
      container := (← Json.optional EntityId.ofJson? container)
      children := (← Json.required (Json.list? EntityId.ofJson?) children)
      values := (← Json.required valuesOfJson? values) }
  | _ => none

def toJson (e : Entity Float) : Json :=
  .object [
    ("kind", .string e.kind.name),
    ("container", match e.container with | some id => id.toJson | none => .null),
    ("children", .array (e.children.map EntityId.toJson)),
    ("values", .object (e.values.map fun entry => (entry.1.name, Json.ofFloat entry.2)))]

end Entity

namespace Registry

def ofJson? (j : Json) : Option (Registry Float) := do
  match ← Json.fields? ["entities"] j with
  | [entities] => return ⟨(← Json.required (Json.list? Entity.ofJson?) entities).toArray⟩
  | _ => none

def ofJsonText? (text : String) : Option (Registry Float) := do ofJson? (← Json.parse? text)

def toJson (m : Registry Float) : Json := .object [("entities", .array (m.entities.toList.map Entity.toJson))]

def toJsonText (m : Registry Float) : String := m.toJson.compact

end Registry

end Uncertainty
