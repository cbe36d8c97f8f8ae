import Uncertainty.Expression.Error
import Uncertainty.Model.Registry
import Uncertainty.Record.Id

namespace Uncertainty

def maxRepeatedTerms : Nat := 1000000

inductive ValidationError where
  | missingLocation
  | unnamedParameter
  | tooManyTerms (count : Nat)
  | tooFewSamples
  | unreadableConfig
  | unknownAttribute (name : String)
deriving DecidableEq, Repr, Inhabited

inductive StoreError where
  | recordNotFound (id : RecordId)
  | duplicateKey (id : RecordId)
  | unreadable
deriving DecidableEq, Repr, Inhabited

inductive Error (ν : Type) where
  | expression (error : ExpressionError ν)
  | validation (error : ValidationError)
  | store (error : StoreError)
  | model (error : ModelError)
deriving Inhabited

def ValidationError.message : ValidationError → String
  | missingLocation => "Required field 'location' is missing"
  | unnamedParameter => "Invalid field 'location.parameter_location': parameter locations must name a parameter"
  | tooManyTerms count =>
    "Invalid field 'count': " ++ toString count ++ " repeated terms exceed the limit of " ++ toString maxRepeatedTerms
  | tooFewSamples => "Invalid sampling configuration: samples must be >= 2"
  | unreadableConfig => "Invalid field 'engine_config': the text is no configuration"
  | unknownAttribute name => "Unknown attribute '" ++ name ++ "'"

def StoreError.message : StoreError → String
  | recordNotFound id => "Record not found: " ++ id.text
  | duplicateKey id => "Duplicate key: " ++ id.text
  | unreadable => "Serialization error: the text is no list of records"

def Error.message {ν : Type} [Number ν] : Error ν → String
  | expression e => "Expression error: " ++ e.message
  | validation e => "Validation error: " ++ e.message
  | store e => "Storage error: " ++ e.message
  | model e => "Model error: " ++ e.message

end Uncertainty
