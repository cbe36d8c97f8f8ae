import Uncertainty.Formula.Printing
import Uncertainty.Proofs.Expression.Copies
import Uncertainty.Proofs.Formula.Evaluation

/-! How deep sums nest. A left operand stands in the chain that the sum goes on, so only right operands add levels. -/

namespace Uncertainty

variable {ν : Type} [Number ν]

lemma Number.nesting_le (v : ν) : Number.nesting v ≤ 2 := by
  rw [Number.nesting]
  split <;> omega

namespace Expression

variable {op : Operator} {e e' l r : Expression ν}

lemma nesting_literal_le (v : ν) : (literal v).nesting ≤ 2 := Number.nesting_le v

lemma nesting_distribution_le (d : Distribution ν) : (distribution d).nesting ≤ 3 := by
  have hmax (values : List ν) : (values.map Number.nesting).foldr max 0 ≤ 2 := by
    induction values with
    | nil => exact Nat.zero_le _
    | cons v values ih => exact Nat.max_le.mpr ⟨Number.nesting_le v, ih⟩
  exact Nat.add_le_add_left (hmax d.numbers) 1

lemma nesting_pos (e : Expression ν) : 0 < e.nesting := by
  cases e with
  | literal v =>
    rw [nesting, Number.nesting]
    split <;> omega
  | distribution d => exact Nat.lt_of_lt_of_le Nat.one_pos (Nat.le_add_right 1 _)
  | binary op l r =>
    rw [nesting]
    omega

lemma nesting_binary_le : (binary op l r).nesting ≤ max (1 + l.nesting) (2 + r.nesting) := by
  rw [nesting]
  split <;> split <;> omega

lemma nesting_sum_le (hop : op = .add ∨ op = .sub) :
    (binary op l r).nesting ≤ max (max l.nesting 3) (2 + r.nesting) := by
  have hleft : (if wrapsLeft op l then 1 else 0) + l.nesting ≤ max l.nesting 3 := by
    cases l with
    | literal v =>
      have := nesting_literal_le v
      split <;> omega
    | distribution d =>
      have hw : wrapsLeft op (distribution d) = false := by
        rcases hop with rfl | rfl <;> rfl
      rw [hw, if_neg Bool.false_ne_true]
      omega
    | binary op' l' r' =>
      have hw : wrapsLeft op (binary op' l' r') = false := by
        rcases hop with rfl | rfl <;> cases op' <;> rfl
      rw [hw, if_neg Bool.false_ne_true]
      omega
  have hright : (if wrapsRight op r then 1 else 0) ≤ 1 := by
    split <;> omega
  rw [nesting]
  omega

section Repeating

lemma repeated_of_literal?_eq_none (hl : e.literal? = none) (n : Nat) :
    e.repeated n = match Id.run (sumCopies (fun a b => pure (.binary .add a b)) e n) with
      | some sum => .ok sum
      | none => ofValue Number.zero := by
  cases e with
  | literal v => cases hl
  | _ => rfl

variable {n : Nat} (he : e.repeated n = .ok e')
include he

lemma repeated_cases : (∃ v, Number.isFinite v = true ∧ e' = literal v) ∨
    e.literal? = none ∧ Id.run (sumCopies (fun a b => pure (.binary .add a b)) e n) = some e' := by
  have hvalue {v : ν} (hv : ofValue v = .ok e') : ∃ v, Number.isFinite v = true ∧ e' = literal v := by
    rw [ofValue] at hv
    split at hv
    · cases hv
      exact ⟨v, ‹_›, rfl⟩
    · cases hv
  cases hl : e.literal? with
  | some v =>
    cases e with
    | literal v => exact .inl (hvalue he)
    | _ => cases hl
  | none =>
    rw [repeated_of_literal?_eq_none hl] at he
    split at he
    · cases he
      exact .inr ⟨rfl, ‹_›⟩
    · exact .inl (hvalue he)

lemma isReduced_repeated (h : e.IsReduced) : e'.IsReduced := by
  rcases repeated_cases he with ⟨v, hv, rfl⟩ | ⟨hl, hsum⟩
  · exact hv
  · let Term (_ : Nat) (x : Expression ν) : Prop := x.IsReduced ∧ x.literal? = none
    have hadd (a b : Expression ν) (ha : Term 0 a) (hb : Term 0 b) : Term 0 (.binary .add a b) := by
      refine ⟨⟨ha.1, hb.1, ?_⟩, rfl⟩
      rw [ha.2]
      rfl
    have hfirst : Term n e := ⟨h, hl⟩
    have hterm : Term 0 e' := addCopies_within (fun _ _ _ _ ha => ha) (fun _ a ha => hadd a a ha ha) hadd
      n.lt_two_pow_self (by rintro _ ⟨⟩) hfirst hsum
    exact hterm.1

lemma nesting_repeated_le {m : Nat} (hn : n < 2 ^ (m + 1)) : e'.nesting ≤ e.nesting + 2 * (m + 1) := by
  have hpos := e.nesting_pos
  rcases repeated_cases he with ⟨v, -, rfl⟩ | ⟨-, hsum⟩
  · exact (nesting_literal_le v).trans (by omega)
  · let Room (k : Nat) (x : Expression ν) : Prop := x.nesting + 2 * k ≤ e.nesting + 2 * (m + 1)
    have hadd {a b : Expression ν} {k : Nat}
        (hk : max (max a.nesting 3) (2 + b.nesting) + 2 * k ≤ e.nesting + 2 * (m + 1)) : Room k (.binary .add a b) :=
      (Nat.add_le_add_right (nesting_sum_le (.inl rfl)) _).trans hk
    have hmono (i j : Nat) (a : Expression ν) (hij : i ≤ j) (ha : Room j a) : Room i a :=
      (Nat.add_le_add_left (Nat.mul_le_mul_left 2 hij) _).trans ha
    have hdouble (k : Nat) (a : Expression ν) (ha : Room (k + 1) a) : Room k (.binary .add a a) := by
      have := a.nesting_pos
      dsimp only [Room] at ha
      exact hadd (by omega)
    have hnext (a b : Expression ν) (ha : Room 0 a) (hb : Room 1 b) : Room 0 (.binary .add a b) := by
      have := b.nesting_pos
      dsimp only [Room] at ha hb
      exact hadd (by omega)
    have hfirst : Room (m + 1) e := le_refl _
    exact addCopies_within hmono hdouble hnext hn (by rintro _ ⟨⟩) hfirst hsum

end Repeating

end Expression

namespace Value

variable {op : Operator} {u v w : Value ν}

lemma nesting_combine_le (h : v.combine op w = .ok u) :
    u.toExpression.nesting ≤ max (1 + v.toExpression.nesting) (2 + w.toExpression.nesting) := by
  rcases combine_cases h with ⟨l, r, rfl, rfl, -, rfl⟩ | ⟨-, rfl⟩
  · have := (scalar r).toExpression.nesting_pos
    exact (Expression.nesting_literal_le _).trans (by omega)
  · exact Expression.nesting_binary_le

lemma nesting_sum_le (hop : op = .add ∨ op = .sub) (h : v.combine op w = .ok u) :
    u.toExpression.nesting ≤ max (max v.toExpression.nesting 3) (2 + w.toExpression.nesting) := by
  rcases combine_cases h with ⟨l, r, rfl, rfl, -, rfl⟩ | ⟨-, rfl⟩
  · exact (Expression.nesting_literal_le _).trans (by omega)
  · exact Expression.nesting_sum_le hop

end Value

end Uncertainty
