import Uncertainty.Formula.Basic
import Uncertainty.Formula.Token
/-!
The grammar of formulas, with the tree that a sentence stands for and how deep it nests:

    sum       ::= product { ( + | - ) product }
    product   ::= factor { ( * | / ) factor }
    factor    ::= - factor | atom | atom ^ factor
    atom      ::= number | identifier | ( sum ) | normal ( sum , sum ) | sampled ( arguments )
    arguments ::= sum { , sum }

An identifier with a parenthesis after it is the name of a call, since no phrase goes on with a parenthesis.
-/
namespace Uncertainty

inductive SyntaxTree (ν : Type) where
  | number (value : ν)
  | named (name : String) (position : Nat)
  | negation (operand : SyntaxTree ν)
  | operation (op : Operator) (left right : SyntaxTree ν)
  | normal (mu sigma : SyntaxTree ν) (position : Nat)
  | sampled (values : List (SyntaxTree ν)) (position : Nat)
deriving Inhabited

variable {ν : Type}

namespace Formula

mutual

def tree : Formula ν → SyntaxTree ν
  | .number v => .number v
  | .named name position => .named name position
  | .negation operand => .negation (tree operand)
  | .chain head tail => treeFrom (tree head) tail
  | .normal mu sigma position => .normal (tree mu) (tree sigma) position
  | .sampled values position => .sampled (trees values) position

def treeFrom (left : SyntaxTree ν) : List (Operator × Formula ν) → SyntaxTree ν
  | [] => left
  | (op, operand) :: rest => treeFrom (.operation op left (tree operand)) rest

def trees : List (Formula ν) → List (SyntaxTree ν)
  | [] => []
  | value :: rest => tree value :: trees rest

end

inductive Category where
  | sum
  | product
  | factor
  | atom
  | arguments
deriving DecidableEq

/-- The tokens are a phrase of the category. It stands for the trees, one unless the phrase is a list of arguments,
and nests so deep: one level, and one more for each right operand, negation, pair of parentheses and list of arguments
around a place. -/
inductive Derives : Category → List (Lexeme ν) → List (SyntaxTree ν) → Nat → Prop
  | sum {ts t n} : Derives .product ts [t] n → Derives .sum ts [t] n
  | additive {ts l m op start stop us r n} : Derives .sum ts [l] m → op = .add ∨ op = .sub → Derives .product us [r] n →
    Derives .sum (ts ++ ⟨.operator op, start, stop⟩ :: us) [.operation op l r] (max m (1 + n))
  | product {ts t n} : Derives .factor ts [t] n → Derives .product ts [t] n
  | multiplicative {ts l m op start stop us r n} : Derives .product ts [l] m → op = .mul ∨ op = .div →
    Derives .factor us [r] n →
    Derives .product (ts ++ ⟨.operator op, start, stop⟩ :: us) [.operation op l r] (max m (1 + n))
  | negation {start stop ts t n} : Derives .factor ts [t] n →
    Derives .factor (⟨.operator .sub, start, stop⟩ :: ts) [.negation t] (1 + n)
  | factor {ts t n} : Derives .atom ts [t] n → Derives .factor ts [t] n
  | power {ts l m start stop us r n} : Derives .atom ts [l] m → Derives .factor us [r] n →
    Derives .factor (ts ++ ⟨.operator .pow, start, stop⟩ :: us) [.operation .pow l r] (max m (1 + n))
  | number {v start stop} : Derives .atom [⟨.number v, start, stop⟩] [.number v] 1
  | named {name start stop} : Derives .atom [⟨.identifier name, start, stop⟩] [.named name start] 1
  | group {start stop ts t n start' stop'} : Derives .sum ts [t] n →
    Derives .atom (⟨.openParen, start, stop⟩ :: (ts ++ [⟨.closeParen, start', stop'⟩])) [t] (1 + n)
  | normal {start stop start₁ stop₁ ts mu sigma n start₂ stop₂} : Derives .arguments ts [mu, sigma] n →
    Derives .atom (⟨.identifier "normal", start, stop⟩ :: ⟨.openParen, start₁, stop₁⟩ ::
      (ts ++ [⟨.closeParen, start₂, stop₂⟩])) [.normal mu sigma start] (1 + n)
  | sampled {start stop start₁ stop₁ ts values n start₂ stop₂} : Derives .arguments ts values n →
    Derives .atom (⟨.identifier "sampled", start, stop⟩ :: ⟨.openParen, start₁, stop₁⟩ ::
      (ts ++ [⟨.closeParen, start₂, stop₂⟩])) [.sampled values start] (1 + n)
  | argument {ts t n} : Derives .sum ts [t] n → Derives .arguments ts [t] n
  | comma {ts t m start stop us values n} : Derives .sum ts [t] m → Derives .arguments us values n →
    Derives .arguments (ts ++ ⟨.comma, start, stop⟩ :: us) (t :: values) (max m n)

end Formula

end Uncertainty
