import Uncertainty.Formula.Token
import Uncertainty.Model.Entity

namespace Uncertainty

inductive LeafError (ν : Type) where
  | literalNotFinite (value : ν)
  | normalOutOfRange (mu sigma : ν)
  | noSamples
  | sampleNotFinite
deriving Inhabited

inductive Expectation where
  | expression
  | operatorOrEnd
  | closeParen
deriving DecidableEq, Inhabited

inductive Fault (ν : Type) where
  | unknownInput (text : String)
  | unexpected (wanted : Expectation) (found : Option (Token ν))
  | tooDeep
  | normalArity (given : Nat)
  | unknownDistribution (name : String)
  | argumentNotConstant (call : String)
  | leaf (error : LeafError ν)
deriving Inhabited

inductive ResultError (ν : Type) where
  | boundVariable (name : String) (value : ν)
  | operation (left : ν) (op : Operator) (right : ν)
  | draws (invalid total : Nat)
  | estimate (derived : Attribute) (container : EntityId) (mean : ν)
deriving Inhabited

inductive ExpressionError (ν : Type) where
  | malformed (position : Nat) (fault : Fault ν)
  | unboundVariable (name : String)
  | invalidResult (error : ResultError ν)
deriving Inhabited

namespace ExpressionError

inductive Kind where
  | malformed
  | unboundVariable
  | invalidResult
deriving DecidableEq

def kind {ν : Type} : ExpressionError ν → Kind
  | malformed _ _ => .malformed
  | unboundVariable _ => .unboundVariable
  | invalidResult _ => .invalidResult

end ExpressionError

def maxNesting : Nat := 256

variable {ν : Type} [Number ν]

def LeafError.message : LeafError ν → String
  | literalNotFinite v => "literal " ++ Number.text v ++ " is not finite"
  | normalOutOfRange mu sigma =>
    "normal(" ++ Number.text mu ++ ", " ++ Number.text sigma ++ ") requires finite mu and sigma >= 0"
  | noSamples => "sampled() requires at least one value"
  | sampleNotFinite => "sampled() values must be finite"

def Expectation.message : Expectation → String
  | expression => "expected expression"
  | operatorOrEnd => "expected operator or end of input"
  | closeParen => "expected ')'"

def Fault.message : Fault ν → String
  | unknownInput text => "unexpected input '" ++ text ++ "'"
  | unexpected wanted found =>
    wanted.message ++ ", found " ++ (match found with
      | some token => token.text
      | none => "end of input")
  | tooDeep => "formula nests deeper than " ++ toString maxNesting ++ " levels"
  | normalArity given => "normal() takes 2 arguments (mu, sigma), got " ++ toString given
  | unknownDistribution name => "unknown distribution '" ++ name ++ "'"
  | argumentNotConstant call => call ++ "() arguments must be constant"
  | leaf error => error.message

def ResultError.message : ResultError ν → String
  | boundVariable name v =>
    "variable '" ++ name ++ "' is bound to " ++ Number.text v ++ ", which is not a finite number"
  | operation l op r =>
    Number.text l ++ " " ++ op.symbol ++ " " ++ Number.text r ++ " is not a finite number"
  | draws invalid total =>
    toString invalid ++ " of " ++ toString total ++
      " draws are not finite numbers; an operand left its operator's domain"
  | estimate derived container v =>
    "mean of " ++ derived.name ++ " at " ++ container.text ++ " is " ++ Number.text v ++
      "; a sampled operand left its operator's domain " ++
      "(division by zero or a negative base under a fractional power)"

def ExpressionError.message : ExpressionError ν → String
  | malformed position fault =>
    "Malformed expression at offset " ++ toString position ++ ": " ++ fault.message
  | unboundVariable name => "Unbound variable '" ++ name ++ "'"
  | invalidResult error => "Invalid evaluation result: " ++ error.message

end Uncertainty
