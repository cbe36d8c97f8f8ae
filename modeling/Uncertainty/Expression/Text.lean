import Uncertainty.Expression.Basic
/-!
The text of an expression, with no more parentheses than reading it back needs.
-/
namespace Uncertainty

variable {ν : Type} [Number ν]

def Distribution.text : Distribution ν → String
  | normal mu sigma => "normal(" ++ Number.text mu ++ ", " ++ Number.text sigma ++ ")"
  | sampled values => "sampled(" ++ ", ".intercalate (values.map Number.text) ++ ")"

namespace Expression

def precedence : Expression ν → Nat
  | binary op _ _ => op.precedence
  | _ => 255

def isNegativeLiteral : Expression ν → Bool
  | literal v => Number.isNegative v
  | _ => false

def wrapsLeft (op : Operator) (l : Expression ν) : Bool :=
  l.precedence < op.precedence || (l.precedence == op.precedence && op.groupsRight) || l.isNegativeLiteral

def wrapsRight (op : Operator) (r : Expression ν) : Bool :=
  r.precedence < op.precedence || (r.precedence == op.precedence && !op.groupsRight) || r.isNegativeLiteral

def wrap (parens : Bool) (text : String) : String := if parens then "(" ++ text ++ ")" else text

def text : Expression ν → String
  | literal v => Number.text v
  | distribution d => d.text
  | binary op l r =>
    wrap (wrapsLeft op l) l.text ++ " " ++ op.symbol ++ " " ++ wrap (wrapsRight op r) r.text

end Expression

end Uncertainty
