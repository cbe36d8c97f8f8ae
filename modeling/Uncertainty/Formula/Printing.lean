import Uncertainty.Expression.Text
import Uncertainty.Formula.Lexer
import Uncertainty.Number.Laws

namespace Uncertainty

variable {ν : Type} [Number ν]

namespace Number

structure IsReadable (v : ν) : Prop where
  finite : isFinite v = true
  numeral : Token.numberLength (text (magnitude v)).toList = (text (magnitude v)).toList.length
  nonempty : (text (magnitude v)).toList ≠ []
  value : Token.numberValue (text (magnitude v)).toList = magnitude v

theorem isReadable_iff (v : ν) : IsReadable v ↔ isFinite v = true ∧
    Token.numberLength (text (magnitude v)).toList = (text (magnitude v)).toList.length ∧
      (text (magnitude v)).toList ≠ [] ∧ Token.numberValue (text (magnitude v)).toList = magnitude v :=
  ⟨fun h => ⟨h.finite, h.numeral, h.nonempty, h.value⟩, fun ⟨h₁, h₂, h₃, h₄⟩ => ⟨h₁, h₂, h₃, h₄⟩⟩

instance [DecidableEq ν] (v : ν) : Decidable (IsReadable v) := decidable_of_iff' _ (isReadable_iff v)

def nesting (v : ν) : Nat := if isNegative v then 2 else 1

end Number

namespace Distribution

def IsValid : Distribution ν → Prop
  | normal mu sigma =>
    Number.isFinite mu = true ∧ Number.isFinite sigma = true ∧ Number.less sigma Number.zero = false
  | sampled values => values ≠ [] ∧ ∀ v ∈ values, Number.isFinite v = true

instance decidableIsValid [DecidableEq ν] : (d : Distribution ν) → Decidable d.IsValid
  | normal mu sigma =>
    inferInstanceAs (Decidable (Number.isFinite mu = true ∧ Number.isFinite sigma = true ∧
      Number.less sigma Number.zero = false))
  | sampled values => inferInstanceAs (Decidable (values ≠ [] ∧ ∀ v ∈ values, Number.isFinite v = true))

def numbers : Distribution ν → List ν
  | normal mu sigma => [mu, sigma]
  | sampled values => values

end Distribution

namespace Expression

/-- Finite literals, valid distributions, and no operator between two literals, which would have been computed. -/
def IsReduced : Expression ν → Prop
  | literal v => Number.isFinite v = true
  | distribution d => d.IsValid
  | binary _ l r => l.IsReduced ∧ r.IsReduced ∧ (l.literal?.isSome && r.literal?.isSome) = false

instance decidableIsReduced [DecidableEq ν] : (e : Expression ν) → Decidable e.IsReduced
  | literal v => inferInstanceAs (Decidable (Number.isFinite v = true))
  | distribution d => inferInstanceAs (Decidable d.IsValid)
  | binary _ l r =>
    have := decidableIsReduced l
    have := decidableIsReduced r
    inferInstanceAs (Decidable (l.IsReduced ∧ r.IsReduced ∧ (l.literal?.isSome && r.literal?.isSome) = false))

def numbers : Expression ν → List ν
  | literal v => [v]
  | distribution d => d.numbers
  | binary _ l r => l.numbers ++ r.numbers

/-- How deep the text of an expression nests: each right operand, argument and pair of parentheses opens a level. -/
def nesting : Expression ν → Nat
  | literal v => Number.nesting v
  | distribution d => 1 + (d.numbers.map Number.nesting).foldr max 0
  | binary op l r =>
    max ((if wrapsLeft op l then 1 else 0) + l.nesting) (1 + ((if wrapsRight op r then 1 else 0) + r.nesting))

end Expression

end Uncertainty
