import Uncertainty.Number.Basic
import Uncertainty.Number.Decimal

namespace Uncertainty

namespace Binary64

def fraction (v : Float) : Nat := v.toBits.toNat % Nat.pow 2 52

def biasedExponent (v : Float) : Nat := v.toBits.toNat / Nat.pow 2 52 % Nat.pow 2 11

def isNegative (v : Float) : Bool := Nat.pow 2 63 ≤ v.toBits.toNat

def magnitude (v : Float) : Binary :=
  if biasedExponent v = 0 then ⟨fraction v, -1074⟩
  else ⟨Nat.pow 2 52 + fraction v, biasedExponent v - 1075⟩

/-- At a power of two the gap below is half the gap above, unless both neighbours are subnormal. -/
def isNarrowBelow (v : Float) : Bool := fraction v = 0 && 1 < biasedExponent v

def nearestNat (v : Float) : Nat :=
  let (num, den) := Binary.quotient (magnitude v).mantissa (magnitude v).exponent 0
  roundDiv num den .up

end Binary64

/-- How a floating point number is written with the fewest digits that read back to it. -/
structure FloatStyle where
  tie : Tie
  window : Option (Int × Int)
  wholeSuffix : String

namespace FloatStyle

def unsigned (style : FloatStyle) (v : Float) : String :=
  if v == 0 then "0" ++ style.wholeSuffix
  else
    let d := (Binary64.magnitude v).shortest (Binary64.isNarrowBelow v) style.tie |>.trim
    let written := match style.window with
      | none => true
      | some (least, greatest) => least ≤ d.order && d.order ≤ greatest
    if written then d.positional ++ (if 0 ≤ d.exponent then style.wholeSuffix else "")
    else d.scientific

def text (style : FloatStyle) (v : Float) : String :=
  if v.isNaN then "NaN"
  else
    let sign := if Binary64.isNegative v then "-" else ""
    if v.isInf then sign ++ "inf" else sign ++ style.unsigned v

def formula : FloatStyle := ⟨.up, none, ""⟩

def stored : FloatStyle := ⟨.toEven, some (-5, 15), ".0"⟩

end FloatStyle

namespace Binary64

private def padPlaces (digits : String) (places : Nat) : String :=
  (digits.take 1).toString ++ "." ++ (digits.drop 1).toString ++ Decimal.zeros (places + 1 - digits.length)

def scientific (v : Float) (places : Nat) : String :=
  if v.isNaN then "NaN"
  else
    let sign := if isNegative v then "-" else ""
    if v.isInf then sign ++ "inf"
    else if v == 0 then sign ++ padPlaces "0" places ++ "e0"
    else
      let d := (magnitude v).leading (places + 1)
      sign ++ padPlaces d.digits places ++ "e" ++ toString d.order

end Binary64

instance : Number Float where
  power := Float.pow
  sqrt := Float.sqrt
  log := Float.log
  cos := Float.cos
  pi := 3.14159265358979323846
  ofNat := Float.ofNat
  ofDecimal coefficient exponent := Float.ofScientific coefficient (exponent < 0) exponent.natAbs
  less a b := a < b
  isFinite := Float.isFinite
  isNegative := Binary64.isNegative
  nearestNat := Binary64.nearestNat
  text := FloatStyle.formula.text

end Uncertainty
