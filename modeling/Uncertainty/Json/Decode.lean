import Uncertainty.Json.Reader
/-!
JSON values as data: a record is an object with its fields by name, or an array with its fields by place.
-/
namespace Uncertainty.Json

def text? : Json → Option String
  | string text => some text
  | _ => none

def bool? : Json → Option Bool
  | bool b => some b
  | _ => none

def natBelow? (limit : Nat) : Json → Option Nat
  | number literal =>
    if literal.toList.all isDigit then
      let n := literal.toList.foldl (fun n c => 10 * n + (c.toNat - '0'.toNat)) 0
      if n < limit then some n else none
    else none
  | _ => none

def list? {α : Type} (read : Json → Option α) : Json → Option (List α)
  | array items => items.mapM read
  | _ => none

def choice? {α : Type} (ofName? : String → Option α) : Json → Option α
  | string name => ofName? name
  | object [(name, null)] => ofName? name
  | _ => none

def fields? (names : List String) : Json → Option (List (Option Json))
  | object members =>
    if names.all fun name => (members.filter (·.1 == name)).length ≤ 1 then
      some (names.map fun name => members.lookup name)
    else none
  | array items =>
    if items.length ≤ names.length then
      some (items.map some ++ List.replicate (names.length - items.length) none)
    else none
  | _ => none

def required {α : Type} (read : Json → Option α) : Option Json → Option α
  | some value => read value
  | none => none

def defaulted {α : Type} (default : α) (read : Json → Option α) : Option Json → Option α
  | some value => read value
  | none => some default

def optional {α : Type} (read : Json → Option α) : Option Json → Option (Option α)
  | some null => some none
  | some value => (read value).map some
  | none => some none

end Uncertainty.Json
