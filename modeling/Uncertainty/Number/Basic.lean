namespace Uncertainty

/-- Numbers as the library uses them. Nothing is assumed of the operations here: rounding, infinities
and results that are no number are all allowed. -/
class Number (ν : Type) extends Add ν, Sub ν, Mul ν, Div ν, Neg ν, BEq ν where
  power : ν → ν → ν
  sqrt : ν → ν
  log : ν → ν
  cos : ν → ν
  pi : ν
  ofNat : Nat → ν
  ofDecimal (coefficient : Nat) (exponent : Int) : ν
  less : ν → ν → Bool
  isFinite : ν → Bool
  isNegative : ν → Bool
  nearestNat : ν → Nat
  text : ν → String

namespace Number

variable {ν : Type} [Number ν]

def zero : ν := ofNat 0

def one : ν := ofNat 1

def isNaN (v : ν) : Bool := !(v == v)

/-- Sums start from minus zero, the neutral element of an addition with signed zeros. -/
def sum (values : List ν) : ν := values.foldl (· + ·) (-zero)

def clampAtZero (v : ν) : ν := if less zero v then v else zero

end Number

end Uncertainty
