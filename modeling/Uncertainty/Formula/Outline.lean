import Uncertainty.Formula.Grammar
/-!
The grammar of formulas as a language of tokens, without the trees that sentences stand for. Which names calls may have,
and with how many arguments, is left open.
-/
namespace Uncertainty.Formula

variable {ν : Type}

def tokens (ts : List (Lexeme ν)) : List (Token ν) := ts.map (·.token)

@[simp]
theorem tokens_cons (t : Lexeme ν) (ts : List (Lexeme ν)) : tokens (t :: ts) = t.token :: tokens ts := rfl

@[simp]
theorem tokens_append (ts us : List (Lexeme ν)) : tokens (ts ++ us) = tokens ts ++ tokens us := List.map_append

inductive Outline (allowed : String → Nat → Bool) : Category → List (Token ν) → Nat → Prop
  | sum {ts} : Outline allowed .product ts 1 → Outline allowed .sum ts 1
  | additive {ts op us} : Outline allowed .sum ts 1 → op = .add ∨ op = .sub → Outline allowed .product us 1 →
    Outline allowed .sum (ts ++ .operator op :: us) 1
  | product {ts} : Outline allowed .factor ts 1 → Outline allowed .product ts 1
  | multiplicative {ts op us} : Outline allowed .product ts 1 → op = .mul ∨ op = .div → Outline allowed .factor us 1 →
    Outline allowed .product (ts ++ .operator op :: us) 1
  | negation {ts} : Outline allowed .factor ts 1 → Outline allowed .factor (.operator .sub :: ts) 1
  | factor {ts} : Outline allowed .atom ts 1 → Outline allowed .factor ts 1
  | power {ts us} : Outline allowed .atom ts 1 → Outline allowed .factor us 1 →
    Outline allowed .factor (ts ++ .operator .pow :: us) 1
  | number {v} : Outline allowed .atom [.number v] 1
  | named {name} : Outline allowed .atom [.identifier name] 1
  | group {ts} : Outline allowed .sum ts 1 → Outline allowed .atom (.openParen :: (ts ++ [.closeParen])) 1
  | call {name ts count} : Outline allowed .arguments ts count → allowed name count = true →
    Outline allowed .atom (.identifier name :: .openParen :: (ts ++ [.closeParen])) 1
  | bareCall {name} : allowed name 0 = true → Outline allowed .atom [.identifier name, .openParen, .closeParen] 1
  | argument {ts} : Outline allowed .sum ts 1 → Outline allowed .arguments ts 1
  | comma {ts us count} : Outline allowed .sum ts 1 → Outline allowed .arguments us count →
    Outline allowed .arguments (ts ++ .comma :: us) (1 + count)

def IsSentence (ts : List (Token ν)) : Prop := Outline (fun _ _ => true) .sum ts 1

def IsOpening (ts : List (Token ν)) : Prop := ∃ more, IsSentence (ts ++ more)

end Uncertainty.Formula
