import Uncertainty.Number.Basic

namespace Uncertainty

inductive Operator where
  | add
  | sub
  | mul
  | div
  | pow
deriving DecidableEq, Repr, Inhabited

namespace Operator

def symbol : Operator → String
  | add => "+"
  | sub => "-"
  | mul => "*"
  | div => "/"
  | pow => "^"

def ofChar? : Char → Option Operator
  | '+' => some add
  | '-' => some sub
  | '*' => some mul
  | '/' => some div
  | '^' => some pow
  | _ => none

def precedence : Operator → Nat
  | add | sub => 10
  | mul | div => 20
  | pow => 30

def groupsRight : Operator → Bool
  | pow => true
  | _ => false

def apply {ν : Type} [Number ν] : Operator → ν → ν → ν
  | add, l, r => l + r
  | sub, l, r => l - r
  | mul, l, r => l * r
  | div, l, r => l / r
  | pow, l, r => Number.power l r

end Operator

end Uncertainty
