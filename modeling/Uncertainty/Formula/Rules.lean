import Mathlib.Computability.Language
import Mathlib.Data.String.Basic
import Uncertainty.Formula.Lexer

namespace Uncertainty.Token

open Computability

def oneOf (p : Char → Bool) : Language Char := {text | ∃ c, p c = true ∧ text = [c]}

def isPlusOrMinus (c : Char) : Bool := c = '+' || c = '-'

def isSymbol (c : Char) : Bool := c ∈ ['+', '-', '*', '/', '^', '(', ')', ',']

def digits : Language Char := oneOf isDigit * (oneOf isDigit)∗

def fraction : Language Char := oneOf (· = '.') * digits

def exponent : Language Char := oneOf isExponentMark * (1 + oneOf isPlusOrMinus) * digits

def numerals : Language Char := digits * (1 + fraction) * (1 + exponent)

def names : Language Char := oneOf isNameStart * (oneOf isNamePart)∗

def symbols : Language Char := oneOf isSymbol

def rules : Language Char := numerals + names + symbols

structure IsLongestMatch (text after : List Char) : Prop where
  matched : text ∈ rules
  longest : ∀ more rest, after = more ++ rest → text ++ more ∈ rules → more = []

variable {ν : Type} [Number ν]

inductive Denotes : List Char → Token ν → Prop
  | numeral {text} : text ∈ numerals → Number.isFinite (numberValue text : ν) = true →
    Denotes text (.number (numberValue text))
  | name {text} : text ∈ names → Denotes text (.identifier (String.ofList text))
  | operator {c op} : Operator.ofChar? c = some op → Denotes [c] (.operator op)
  | openParen : Denotes ['('] .openParen
  | closeParen : Denotes [')'] .closeParen
  | comma : Denotes [','] .comma

def slice (source : String) (start stop : Nat) : String := String.Pos.Raw.extract source ⟨start⟩ ⟨stop⟩

structure IsTiling (source : String) (start : Nat) (ts : List (Lexeme ν)) (stop : Nat) : Prop where
  apart : ts.Pairwise fun t u => t.stop ≤ u.start
  extent : ∀ t ∈ ts, start ≤ t.start ∧ t.start < t.stop ∧ t.stop ≤ stop
  boundary : ∀ t ∈ ts, String.Pos.Raw.Valid source ⟨t.start⟩ ∧ String.Pos.Raw.Valid source ⟨t.stop⟩
  matched : ∀ t ∈ ts,
    IsLongestMatch (slice source t.start t.stop).toList (slice source t.stop source.utf8ByteSize).toList
  denoted : ∀ t ∈ ts, ∀ u, Denotes (slice source t.start t.stop).toList u ↔ u = t.token
  blank : ∀ p, start ≤ p → p < stop → (∀ t ∈ ts, p < t.start ∨ t.stop ≤ p) →
    ∃ c, String.Pos.Raw.get? source ⟨p⟩ = some c ∧ isBlank c = true

variable (ν) in
inductive IsRefused : List Char → List Char → Prop
  | unmatched {c cs} : isBlank c = false → (∀ text after, c :: cs = text ++ after → text ∉ rules) →
    IsRefused (c :: cs) [c]
  | overflow {text after} : text ∈ numerals → IsLongestMatch text after →
    Number.isFinite (numberValue text : ν) = false → IsRefused (text ++ after) text

end Uncertainty.Token
