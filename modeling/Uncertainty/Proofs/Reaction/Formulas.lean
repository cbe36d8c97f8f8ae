import Uncertainty.Proofs.Expression.Copies
import Uncertainty.Proofs.Formula.Evaluation
import Uncertainty.Reaction.Basic

namespace Uncertainty.Reaction

variable {ν : Type} [Number ν] {d d' : Attribute} {base : Value ν} {new current e e' : Expression ν} {old delta : ν}
  {n : Nat}

/-- One item adds the new expression and takes the old value away; more of them add the difference that often. -/
inductive Incremented (base : Value ν) (new : Expression ν) (old : ν) (n : Nat) (e : Expression ν) : Prop
  | once {s u : Value ν} : n = 1 → base.folded.combine .add (Value.expression new).folded = .ok s →
    s.combine .sub (.scalar old) = .ok u → e = u.toExpression → Incremented base new old n e
  | repeated {u v : Value ν} {total : Expression ν} : n ≠ 1 →
    (Value.expression new).folded.combine .sub (.scalar old) = .ok v → v.toExpression.repeated n = .ok total →
    base.folded.combine .add (Value.expression total).folded = .ok u → e = u.toExpression → Incremented base new old n e

lemma name_ne (d : Attribute) : d.name ≠ "newValue" ∧ d.name ≠ "oldValue" ∧ d.name ≠ "totalDelta" := by
  cases d <;> decide

lemma incremental_ok (h : incremental d base new old n = .ok e) : Incremented base new old n e := by
  obtain ⟨hd₁, hd₂, hd₃⟩ := name_ne d
  rw [incremental] at h
  dsimp only at h
  by_cases hn : n = 1
  · rw [if_pos hn] at h
    obtain ⟨u, hu, h⟩ := exists_of_bind_ok h
    cases h
    obtain ⟨v, w, s, t, hv, hw, ht, hs, hu⟩ :=
      evaluateText_operations (y := "newValue") (z := "oldValue") d.isIdentifier_name (by decide) (by decide) hu
    obtain rfl := Environment.resolve_folded (by simp [Environment.get?_bind, hd₁, hd₂]; rfl) hv
    obtain rfl := Environment.resolve_folded (by simp [Environment.get?_bind]; rfl) hw
    obtain rfl := Environment.resolve_folded (by simp [Environment.get?_bind]; rfl) ht
    exact .once hn hs hu rfl
  · rw [if_neg hn] at h
    obtain ⟨u, hu, h⟩ := exists_of_bind_ok h
    obtain ⟨total, htotal, h⟩ := exists_of_bind_ok h
    obtain ⟨u', hu', h⟩ := exists_of_bind_ok h
    cases h
    obtain ⟨v, w, hv, hw, hu⟩ :=
      evaluateText_operation (x := "massNew") (y := "massOld") .sub (by decide) (by decide) hu
    obtain rfl := Environment.resolve_folded (by simp [Environment.get?_bind]; rfl) hv
    obtain rfl := Environment.resolve_folded (by simp [Environment.get?_bind]; rfl) hw
    obtain ⟨v, w, hv, hw, hu'⟩ :=
      evaluateText_operation (y := "totalDelta") .add d.isIdentifier_name (by decide) hu'
    obtain rfl := Environment.resolve_folded (by simp [Environment.get?_bind, hd₃]; rfl) hv
    obtain rfl := Environment.resolve_folded (by simp [Environment.get?_bind]; rfl) hw
    exact .repeated hn hu (ok_of_mapError_ok htotal) hu' rfl

lemma isFinite_repeated {e total : Expression ν} (h : e.repeated n = .ok total) : (Value.expression total).IsFinite := by
  have hvalue {x : ν} (hx : Expression.ofValue x = .ok total) : (Value.expression total).IsFinite := by
    rw [Expression.ofValue] at hx
    split at hx
    · cases hx
      rintro _ ⟨⟩
      assumption
    · cases hx
  cases he : e.literal? with
  | some v =>
    cases e <;> cases he
    exact hvalue h
  | none =>
    have hliteral := Expression.sumCopies_literal? he n
    rw [Expression.repeated_eq he] at h
    cases hsum : Id.run (sumCopies (fun a b => pure (Expression.binary .add a b)) e n) with
    | none =>
      rw [hsum] at h
      exact hvalue h
    | some sum =>
      rw [hsum] at h hliteral
      cases h
      intro x hx
      cases total with
      | literal v => cases hliteral
      | distribution d | binary op l r => cases hx

section Evaluating

variable (hb : base.IsFinite) (hnew : (Value.expression new).IsFinite) (hold : (Value.scalar old).IsFinite)
include hb hnew hold

lemma incremental_once : incremental d base new old 1 = (do
    let s ← base.folded.combine .add (Value.expression new).folded
    let u ← s.combine .sub (.scalar old)
    return u.toExpression) := by
  obtain ⟨hd₁, hd₂, -⟩ := name_ne d
  let env := ((Environment.empty.bind d.name base).bind "newValue" (.expression new)).bind "oldValue" (.scalar old)
  have htext : env.evaluateText (d.name ++ " + newValue - oldValue") = _ :=
    evaluateText_operations_of_bound (y := "newValue") (z := "oldValue") (v := base) (w := .expression new)
      (t := .scalar old) (by simp [env, Environment.get?_bind, hd₁, hd₂]) (by simp [env, Environment.get?_bind]) hb hnew
      (by simp [env, Environment.get?_bind]) hold d.isIdentifier_name (by decide) (by decide)
  rw [incremental]
  dsimp only
  rw [if_pos rfl, htext, bind_assoc]
  rfl

lemma incremental_repeated (hn : n ≠ 1) : incremental d base new old n = (do
    let v ← (Value.expression new).folded.combine .sub (.scalar old)
    let total ← (v.toExpression.repeated n).mapError fun e => .malformed 0 (.leaf e)
    let u ← base.folded.combine .add (Value.expression total).folded
    return u.toExpression) := by
  obtain ⟨-, -, hd₃⟩ := name_ne d
  let env := (Environment.empty.bind "massNew" (.expression new)).bind "massOld" (.scalar old)
  have hdelta : env.evaluateText "massNew - massOld" = _ :=
    evaluateText_operation_of_bound (x := "massNew") (y := "massOld") (v := .expression new) (w := .scalar old)
      (by simp [env, Environment.get?_bind]) (by simp [env, Environment.get?_bind]) hnew hold .sub (by decide) (by decide)
  rw [incremental]
  dsimp only
  rw [if_neg hn, hdelta]
  refine bind_congr fun v => ?_
  cases htotal : v.toExpression.repeated n with
  | error e => rfl
  | ok total =>
    let env := (Environment.empty.bind d.name base).bind "totalDelta" (.expression total)
    have hsum : env.evaluateText (d.name ++ " + totalDelta") = _ :=
      evaluateText_operation_of_bound (y := "totalDelta") (v := base) (w := .expression total)
        (by simp [env, Environment.get?_bind, hd₃]) (by simp [env, Environment.get?_bind]) hb (isFinite_repeated htotal)
        .add d.isIdentifier_name (by decide)
    exact congrArg (· >>= fun u => pure u.toExpression) hsum

end Evaluating

lemma Incremented.unique (h : Incremented base new old n e) (h' : Incremented base new old n e') : e = e' := by
  cases h with
  | once hn hs hu he =>
    cases h' with
    | once _ hs' hu' he' =>
      cases hs.symm.trans hs'
      cases hu.symm.trans hu'
      exact he.trans he'.symm
    | repeated hne => exact absurd hn hne
  | repeated hn hv htotal hu he =>
    cases h' with
    | once hn' => exact absurd hn' hn
    | repeated _ hv' htotal' hu' he' =>
      cases hv.symm.trans hv'
      cases htotal.symm.trans htotal'
      cases hu.symm.trans hu'
      exact he.trans he'.symm

lemma shifted_ok (h : shifted d current delta = .ok e) :
    ∃ u, (Value.expression current).folded.combine .add (.scalar delta) = .ok u ∧ e = u.toExpression := by
  have hd : d.name ≠ "delta" := by
    cases d <;> decide
  rw [shifted] at h
  obtain ⟨u, hu, h⟩ := exists_of_bind_ok h
  cases h
  obtain ⟨v, w, hv, hw, hu⟩ := evaluateText_operation (y := "delta") .add d.isIdentifier_name (by decide) hu
  obtain rfl := Environment.resolve_folded (by simp [Environment.get?_bind, hd]; rfl) hv
  obtain rfl := Environment.resolve_folded (by simp [Environment.get?_bind]; rfl) hw
  exact ⟨u, hu, rfl⟩

lemma shifted_unique (h : shifted d current delta = .ok e) (h' : shifted d' current delta = .ok e') : e = e' := by
  obtain ⟨u, hu, rfl⟩ := shifted_ok h
  obtain ⟨u', hu', rfl⟩ := shifted_ok h'
  cases hu.symm.trans hu'
  rfl

end Uncertainty.Reaction
