import Uncertainty.Expression.Operator
/-!
Formulas with their variables still open. Operators of one level stand in one flat chain, so a formula is
only as deep as its text nests.
-/
namespace Uncertainty

inductive Formula (ν : Type) where
  | number (value : ν)
  | named (name : String) (position : Nat)
  | negation (operand : Formula ν)
  | chain (head : Formula ν) (tail : List (Operator × Formula ν))
  | normal (mu sigma : Formula ν) (position : Nat)
  | sampled (values : List (Formula ν)) (position : Nat)
deriving Inhabited

end Uncertainty
