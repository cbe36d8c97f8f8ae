import Uncertainty.Expression.Operator

namespace Uncertainty

inductive Token (ν : Type) where
  | number (value : ν)
  | identifier (name : String)
  | operator (op : Operator)
  | openParen
  | closeParen
  | comma
deriving Inhabited

namespace Token

variable {ν : Type} [Number ν]

def text : Token ν → String
  | number v => "number " ++ Number.text v
  | identifier name => "identifier '" ++ name ++ "'"
  | operator op => "'" ++ op.symbol ++ "'"
  | openParen => "'('"
  | closeParen => "')'"
  | comma => "','"

end Token

structure Lexeme (ν : Type) where
  token : Token ν
  start : Nat
  stop : Nat
deriving Inhabited

end Uncertainty
