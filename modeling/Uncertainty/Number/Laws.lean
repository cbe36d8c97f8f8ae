import Uncertainty.Number.Basic
/-!
What is asked of numbers where values have to be equal, and where they are written.
-/
namespace Uncertainty

namespace Number

def magnitude {ν : Type} [Number ν] (v : ν) : ν := if isNegative v then -v else v

end Number

class LawfulZero (ν : Type) [Number ν] : Prop where
  beq_refl {x : ν} : Number.isFinite x = true → (x == x) = true
  add_beq {x y z : ν} : Number.isFinite y = true → (x == y) = true → (z == Number.zero) = true → (x + z == y) = true

class LawfulSign (ν : Type) [Number ν] : Prop where
  text_eq {x : ν} : Number.isFinite x = true →
    Number.text x = (if Number.isNegative x then "-" else "") ++ Number.text (Number.magnitude x)
  isFinite_magnitude {x : ν} : Number.isFinite x = true → Number.isFinite (Number.magnitude x) = true
  neg_magnitude {x : ν} : Number.isFinite x = true → Number.isNegative x = true → -Number.magnitude x = x

class LawfulNegation (ν : Type) [Number ν] : Prop where
  isFinite_zero : Number.isFinite (Number.zero : ν) = true
  isFinite_neg {x : ν} : Number.isFinite x = true → Number.isFinite (-x) = true

class LawfulOverflow (ν : Type) [Number ν] : Prop where
  of_add {x y : ν} : Number.isFinite (x + y) = true → Number.isFinite x = true ∧ Number.isFinite y = true
  of_sub {x y : ν} : Number.isFinite (x - y) = true → Number.isFinite x = true ∧ Number.isFinite y = true

class LawfulQuotient (ν : Type) [Number ν] : Prop where
  of_div {x y : ν} : Number.isFinite (x / y) = true → Number.isFinite x = true

class LawfulProduct (ν : Type) [Number ν] : Prop where
  zero_mul {x : ν} : Number.less Number.zero (Number.zero * x) = false
  beq_self {k x : ν} : Number.less Number.zero (k * x) = true → (x == x) = true
  mul_congr {k x y : ν} : (x == y) = true →
    k * x = k * y ∨ Number.less Number.zero (k * x) = false ∧ Number.less Number.zero (k * y) = false

end Uncertainty
