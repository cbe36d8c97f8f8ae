/-!
Decimals with exact natural arithmetic: rounding a quotient, the shortest decimal that reads back to a
binary number, and a fixed number of leading digits.
-/
namespace Uncertainty

inductive Tie where
  | up
  | toEven
deriving DecidableEq

def roundDiv (num den : Nat) (tie : Tie) : Nat :=
  let low := num / den
  let twice := 2 * (num % den)
  if twice < den then low
  else if den < twice then low + 1
  else match tie with
    | .up => low + 1
    | .toEven => low + low % 2

structure Decimal where
  coefficient : Nat
  exponent : Int
deriving DecidableEq

namespace Decimal

def digitsText (n : Nat) : String := String.ofList (Nat.toDigits 10 n)

def digits (d : Decimal) : String := digitsText d.coefficient

def zeros (n : Nat) : String := String.ofList (List.replicate n '0')

def order (d : Decimal) : Int := d.digits.length - 1 + d.exponent

def trim (d : Decimal) : Decimal := go d.digits.length d.coefficient d.exponent
where
  go : Nat → Nat → Int → Decimal
    | 0, c, e => ⟨c, e⟩
    | n + 1, c, e => if c % 10 = 0 ∧ 0 < c then go n (c / 10) (e + 1) else ⟨c, e⟩

def positional (d : Decimal) : String :=
  let text := d.digits
  if 0 ≤ d.exponent then text ++ zeros d.exponent.toNat
  else
    let places := (-d.exponent).toNat
    if places < text.length then
      let whole := text.length - places
      (text.take whole).toString ++ "." ++ (text.drop whole).toString
    else "0." ++ zeros (places - text.length) ++ text

def exponentText (e : Int) : String := if e < 0 then toString e else "+" ++ toString e

def scientific (d : Decimal) : String :=
  let text := d.digits
  let rest := (text.drop 1).toString
  (text.take 1).toString ++ (if rest.isEmpty then "" else "." ++ rest) ++ "e" ++ exponentText d.order

end Decimal

structure Binary where
  mantissa : Nat
  exponent : Int

namespace Binary

def quotient (x : Nat) (two ten : Int) : Nat × Nat :=
  (x * Nat.pow 2 two.toNat * Nat.pow 10 (-ten).toNat, Nat.pow 2 (-two).toNat * Nat.pow 10 ten.toNat)

def orderEstimate (b : Binary) : Int := (b.mantissa.log2 + b.exponent) * 1233 / 4096

/-- The decimal neighbour of `b` on the grid of multiples of `10 ^ k`, if one of the two neighbours
lies among the reals that round to `b`. -/
def onGrid? (b : Binary) (narrow : Bool) (tie : Tie) (k : Int) : Option Decimal :=
  -- in units of a quarter of the gap above `b`
  let (centre, unit) := quotient (4 * b.mantissa) (b.exponent - 2) k
  let (low, _) := quotient (4 * b.mantissa - if narrow then 1 else 2) (b.exponent - 2) k
  let (high, _) := quotient (4 * b.mantissa + 2) (b.exponent - 2) k
  let inside (c : Nat) : Bool :=
    if b.mantissa % 2 = 0 then low ≤ c * unit && c * unit ≤ high
    else low < c * unit && c * unit < high
  let floor := centre / unit
  let nearest := roundDiv centre unit tie
  if inside nearest then some ⟨nearest, k⟩
  else if inside floor then some ⟨floor, k⟩
  else if inside (floor + 1) then some ⟨floor + 1, k⟩
  else none

def shortest (b : Binary) (narrow : Bool) (tie : Tie) : Decimal :=
  go 24 (b.orderEstimate + 2)
where
  go : Nat → Int → Decimal
    | 0, k => ⟨(let (n, d) := quotient b.mantissa b.exponent k; n / d), k⟩
    | fuel + 1, k => (b.onGrid? narrow tie k).getD (go fuel (k - 1))

def leading (b : Binary) (count : Nat) : Decimal :=
  go 4 (b.orderEstimate + 2 - count)
where
  go : Nat → Int → Decimal
    | 0, k => ⟨0, k⟩
    | fuel + 1, k =>
      let (num, den) := quotient b.mantissa b.exponent k
      if Nat.pow 10 (count - 1) ≤ num / den then
        let c := roundDiv num den .toEven
        if c = Nat.pow 10 count then ⟨c / 10, k + 1⟩ else ⟨c, k⟩
      else go fuel (k - 1)

end Binary

end Uncertainty
