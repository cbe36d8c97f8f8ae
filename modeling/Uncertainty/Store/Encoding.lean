import Uncertainty.Record.Encoding
import Uncertainty.Store.Indexed

namespace Uncertainty

variable {ν : Type} [Number ν]

namespace Record

def listToJson (rs : List (Record ν)) : Json := .object [("records", .array (rs.map toJson))]

def listOfJson? (j : Json) : Option (List (Record ν)) := do
  match ← Json.fields? ["records"] j with
  | [records] => Json.required (Json.list? ofJson?) records
  | _ => none

end Record

namespace Store

def toJsonText (s : Store ν) : String := (Record.listToJson s.records).pretty 0

def ofJsonText (text : String) : Except StoreError (Store ν) :=
  match (Json.parse? text).bind Record.listOfJson? with
  | some rs => ofRecords rs
  | none => .error .unreadable

end Store

end Uncertainty
