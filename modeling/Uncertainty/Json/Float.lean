import Uncertainty.Json.Decode
import Uncertainty.Number.Binary64
/-!
Floating point numbers in JSON. A number is read from its leading digits, those that fit into a machine
word, scaled by a power of ten.
-/
namespace Uncertainty.Json

structure Significand where
  digits : Nat
  exponent : Int

namespace Significand

def wordLimit : Nat := UInt64.size

def exponentLimit : Nat := Nat.pow 2 31

def digitValue (c : Char) : Nat := c.toNat - '0'.toNat

def whole (s : Significand) : List Char → Significand
  | [] => s
  | c :: cs =>
    let digits := 10 * s.digits + digitValue c
    if digits < wordLimit then whole ⟨digits, s.exponent⟩ cs
    else ⟨s.digits, s.exponent + 1 + cs.length⟩

def fraction (s : Significand) : List Char → Significand
  | [] => s
  | c :: cs =>
    let digits := 10 * s.digits + digitValue c
    if digits < wordLimit then fraction ⟨digits, s.exponent - 1⟩ cs else s

def powerOfTen (n : Nat) : Float := Float.ofScientific 1 false n

def scale : Nat → Float → Int → Option Float
  | 0, v, _ => some v
  | steps + 1, v, exponent =>
    if exponent.natAbs ≤ 308 then
      if 0 ≤ exponent then
        let v := v * powerOfTen exponent.toNat
        if v.isInf then none else some v
      else some (v / powerOfTen exponent.natAbs)
    else if v == 0 then some v
    else if 0 ≤ exponent then none
    else scale steps (v / powerOfTen 308) (exponent + 308)

def toFloat? (s : Significand) : Option Float := scale 4 (Float.ofNat s.digits) s.exponent

end Significand

def exponentOf? (digits : List Char) : Option Nat :=
  let n := digits.foldl (fun n c => 10 * n + Significand.digitValue c) 0
  if n < Significand.exponentLimit then some n else none

def unsignedFloat? (literal : List Char) : Option Float :=
  let s := Significand.whole ⟨0, 0⟩ (literal.takeWhile isDigit)
  let rest := literal.dropWhile isDigit
  let s := match rest with
    | '.' :: cs => s.fraction (cs.takeWhile isDigit)
    | _ => s
  match rest.dropWhile (fun c => c ≠ 'e' && c ≠ 'E') with
  | [] => s.toFloat?
  | _ :: cs =>
    let sign := exponentSign cs
    match exponentOf? (cs.drop sign.length) with
    | some n => { s with exponent := s.exponent + if sign = ['-'] then -(n : Int) else n : Significand }.toFloat?
    | none => if s.digits = 0 || sign = ['-'] then some 0 else none

def float? : Json → Option Float
  | number literal =>
    match literal.toList with
    | '-' :: cs => (unsignedFloat? cs).map (-·)
    | cs => unsignedFloat? cs
  | _ => none

def ofFloat (v : Float) : Json := if v.isFinite then number (FloatStyle.stored.text v) else null

end Uncertainty.Json
