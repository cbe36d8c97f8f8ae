import Mathlib.Logic.Basic
import Mathlib.Tactic.Lemma
import Uncertainty.Formula.Parser

/-! What the parser reads at each place, without the proofs that it gets on. -/

namespace Uncertainty.Formula

variable {ν α : Type}

def view {bound : Nat} (r : Result ν α bound) : Except (ExpressionError ν) (α × List (Lexeme ν)) :=
  r.map fun p => (p.value, p.rest)

def Closed (least : Nat) (ts : List (Lexeme ν)) : Prop :=
  ∀ op start stop rest, ts = ⟨.operator op, start, stop⟩ :: rest → op.precedence < least

lemma Closed.mono {p q : Nat} {ts : List (Lexeme ν)} (h : Closed p ts) (hpq : p ≤ q) : Closed q ts :=
  fun op start stop rest he => Nat.lt_of_lt_of_le (h op start stop rest he) hpq

section Chains

variable {operand : OperandParser ν} {least bound bound' : Nat} {done : List (Operator × Formula ν)}
  {ts rest : List (Lexeme ν)} {op : Operator} {start stop : Nat}

lemma chainTail_closed (h : Closed least ts) (hb : ts.length < bound) :
    view (chainTail operand least done ts hb) = .ok (done.reverse, ts) := by
  unfold chainTail
  split
  · rw [if_pos (h _ _ _ _ rfl)]
    rfl
  · rfl

lemma chainTail_operator (hop : least ≤ op.precedence) (hb : (⟨.operator op, start, stop⟩ :: rest).length < bound) :
    chainTail operand least done (⟨.operator op, start, stop⟩ :: rest) hb =
      match operand (operandPrecedence op) rest with
      | .error e => .error e
      | .ok p => chainTail operand least ((op, p.value) :: done) p.rest
          (Nat.lt_trans p.shorter (Nat.lt_of_succ_lt hb)) := by
  cases hp : operand (operandPrecedence op) rest with
  | error e => rw [chainTail, if_neg (Nat.not_lt.mpr hop), hp]
  | ok p => rw [chainTail, if_neg (Nat.not_lt.mpr hop), hp]

lemma chainTail_bound (hb : ts.length < bound) (hb' : ts.length < bound') :
    view (chainTail operand least done ts hb) = view (chainTail operand least done ts hb') := by
  -- The bound stands in the types only, so both sides read the same tokens in the same order.
  induction hn : ts.length using Nat.strongRecOn generalizing ts done bound bound' with
  | ind n ih =>
    by_cases hc : Closed least ts
    · rw [chainTail_closed hc, chainTail_closed hc]
    · simp only [Closed, not_forall, Nat.not_lt] at hc
      obtain ⟨op, start, stop, rest, rfl, hop⟩ := hc
      rw [chainTail_operator hop, chainTail_operator hop]
      cases operand (operandPrecedence op) rest with
      | error e => rfl
      | ok p =>
        have hlt : p.rest.length < n := by
          have := p.shorter
          rw [← hn, List.length_cons]
          omega
        exact ih _ hlt _ _ rfl

end Chains

section Arguments

variable {operand : OperandParser ν} {bound bound' : Nat} {done : List (Formula ν)} {ts : List (Lexeme ν)}

lemma arguments_bound (hb : ts.length ≤ bound) (hb' : ts.length ≤ bound') :
    view (arguments operand done ts hb) = view (arguments operand done ts hb') := by
  induction hn : ts.length using Nat.strongRecOn generalizing ts done bound bound' with
  | ind n ih =>
    rw [arguments, arguments]
    cases operand 0 ts with
    | error e => rfl
    | ok p =>
      dsimp only
      split
      · have hlt := p.shorter
        have hlength := length_of_afterComma? ‹afterComma? p.rest = some _›
        exact ih _ (by omega) _ _ rfl
      · rfl

lemma arguments_step (hb : ts.length ≤ bound) :
    view (arguments operand done ts hb) = (view (operand 0 ts)).bind fun x =>
      match afterComma? x.2 with
      | some rest => view (arguments operand (x.1 :: done) rest (Nat.le_refl _))
      | none => .ok ((x.1 :: done).reverse, x.2) := by
  rw [arguments]
  cases operand 0 ts with
  | error e => rfl
  | ok p =>
    have hbind (f : Formula ν × List (Lexeme ν) → Except (ExpressionError ν) (List (Formula ν) × List (Lexeme ν))) :
        (view (.ok p : Result ν (Formula ν) ts.length)).bind f = f (p.value, p.rest) := rfl
    rw [hbind]
    dsimp only
    split
    · simp only [‹afterComma? p.rest = some _›]
      exact arguments_bound _ _
    · simp only [‹afterComma? p.rest = none›]
      rfl

end Arguments

variable {stop n least : Nat} {head : Formula ν} {done : List (Operator × Formula ν)} {ts rest : List (Lexeme ν)}

def resumed (stop n least : Nat) (head : Formula ν) (done : List (Operator × Formula ν)) (ts : List (Lexeme ν)) :
    Except (ExpressionError ν) (Formula ν × List (Lexeme ν)) :=
  (view (chainTail (level stop n) least done ts (Nat.lt_succ_self _))).map fun x => (ofChain head x.1, x.2)

lemma resumed_closed (h : Closed least ts) :
    resumed stop n least head done ts = .ok (ofChain head done.reverse, ts) := by
  rw [resumed, chainTail_closed h]
  rfl

lemma resumed_operator {op : Operator} {start stop' : Nat} (hop : least ≤ op.precedence) :
    resumed stop n least head done (⟨.operator op, start, stop'⟩ :: rest) =
      (view (level stop n (operandPrecedence op) rest)).bind fun x =>
        resumed stop n least head ((op, x.1) :: done) x.2 := by
  rw [resumed, chainTail_operator hop]
  cases level stop n (operandPrecedence op) rest with
  | error e => rfl
  | ok p => exact congrArg (Except.map _) (chainTail_bound _ _)

lemma level_succ : view (level stop (n + 1) least ts) =
    (view (signed stop (level stop n) ts)).bind fun x => resumed stop n least x.1 [] x.2 := by
  rw [level]
  cases signed stop (level stop n) ts with
  | error e => rfl
  | ok p =>
    change _ = resumed stop n least p.value [] p.rest
    rw [resumed, ← chainTail_bound p.shorter]
    dsimp only
    cases chainTail (level stop n) least [] p.rest p.shorter <;> rfl

lemma ofTokens_eq : ofTokens stop ts = (view (level stop maxNesting 0 ts)).bind fun x =>
    if x.2.isEmpty then .ok x.1 else .error (unexpected stop .operatorOrEnd x.2) := by
  rw [ofTokens]
  cases level stop maxNesting 0 ts <;> rfl

section Atoms

variable {operand : OperandParser ν} {start stop' : Nat}

lemma signed_number {v : ν} : view (signed stop operand (⟨.number v, start, stop'⟩ :: rest)) = .ok (.number v, rest) :=
  rfl

lemma signed_named {name : String} (h : ∀ a b us, rest ≠ ⟨.openParen, a, b⟩ :: us) :
    view (signed stop operand (⟨.identifier name, start, stop'⟩ :: rest)) = .ok (.named name start, rest) := by
  rw [signed, atom]
  · rfl
  · exact h
  · exact nofun

lemma signed_minus : view (signed stop operand (⟨.operator .sub, start, stop'⟩ :: rest)) =
    (view (operand negationPrecedence rest)).bind fun x => .ok (.negation x.1, x.2) := by
  rw [signed]
  cases operand negationPrecedence rest <;> rfl

lemma signed_paren : view (signed stop operand (⟨.openParen, start, stop'⟩ :: rest)) =
    (view (operand 0 rest)).bind fun x => (view (close stop x.2)).map fun y => (x.1, y.2) := by
  simp only [signed, atom]
  cases operand 0 rest with
  | error e => rfl
  | ok p =>
    change _ = (view (close stop p.rest)).map _
    dsimp only
    cases close stop p.rest <;> rfl

lemma callArguments_some (hne : ∀ a b us, rest ≠ ⟨.closeParen, a, b⟩ :: us) :
    view (callArguments stop operand rest) = (view (arguments operand [] rest (Nat.le_refl _))).bind fun x =>
      (view (close stop x.2)).map fun y => (x.1, y.2) := by
  unfold callArguments
  split
  · exact absurd rfl (hne _ _ _)
  · cases arguments operand [] rest (Nat.le_refl _) with
    | error e => rfl
    | ok p =>
      change _ = (view (close stop p.rest)).map _
      dsimp only
      cases close stop p.rest <;> rfl

lemma signed_call {name : String} {start₂ stop₂ : Nat} :
    view (signed stop operand (⟨.identifier name, start, stop'⟩ :: ⟨.openParen, start₂, stop₂⟩ :: rest)) =
      (view (callArguments stop operand rest)).bind fun x => (call name start x.1).map fun f => (f, x.2) := by
  simp only [signed, atom]
  cases callArguments stop operand rest with
  | error e => rfl
  | ok p =>
    change _ = (call name start p.value).map _
    dsimp only
    cases call name start p.value <;> rfl

end Atoms

end Uncertainty.Formula
