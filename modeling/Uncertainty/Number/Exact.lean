import Mathlib.Data.Rat.Floor
import Uncertainty.Number.Basic
/-!
Exact rational numbers: nothing is rounded and nothing is too large, but a division by zero has no result.
-/
namespace Uncertainty

/-- Functions that lead out of the rationals, as they may be rounded or left out. -/
structure Transcendentals where
  power : ℚ → ℚ → Option ℚ
  sqrt : ℚ → Option ℚ
  log : ℚ → Option ℚ
  cos : ℚ → Option ℚ
  pi : ℚ

inductive Exact (F : Transcendentals) where
  | rational (value : ℚ)
  | undefined
deriving DecidableEq, Inhabited

namespace Exact

variable {F : Transcendentals}

def ofOption : Option ℚ → Exact F
  | some q => rational q
  | none => undefined

def apply (f : ℚ → Option ℚ) : Exact F → Exact F
  | rational q => ofOption (f q)
  | undefined => undefined

def combine (f : ℚ → ℚ → Option ℚ) : Exact F → Exact F → Exact F
  | rational p, rational q => ofOption (f p q)
  | _, _ => undefined

def test (p : ℚ → Bool) : Exact F → Bool
  | rational q => p q
  | undefined => false

def compare (p : ℚ → ℚ → Bool) : Exact F → Exact F → Bool
  | rational q, rational r => p q r
  | _, _ => false

instance : Number (Exact F) where
  add := combine fun p q => some (p + q)
  sub := combine fun p q => some (p - q)
  mul := combine fun p q => some (p * q)
  div := combine fun p q => if q = 0 then none else some (p / q)
  neg := apply fun q => some (-q)
  beq := compare fun p q => p = q
  power := combine F.power
  sqrt := apply F.sqrt
  log := apply F.log
  cos := apply F.cos
  pi := rational F.pi
  ofNat n := rational n
  ofDecimal coefficient exponent := rational (coefficient * 10 ^ exponent)
  less := compare fun p q => p < q
  isFinite := test fun _ => true
  isNegative := test fun q => q < 0
  nearestNat
    | rational q => ⌊q + 1 / 2⌋.toNat
    | undefined => 0
  text
    | rational q => toString q
    | undefined => "NaN"

end Exact

end Uncertainty
