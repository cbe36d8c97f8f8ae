import Uncertainty.Expression.Estimate
import Uncertainty.Proofs.Expression.Copies
import Uncertainty.Proofs.Number.Exact

namespace Uncertainty

def Moments.times {ν : Type} [Number ν] (n : Nat) (m : Moments ν) : Moments ν :=
  ⟨Number.ofNat n * m.mean, Number.ofNat n * m.variance⟩

namespace Expression

section Exactness

variable {ν : Type} [Number ν] {e l r : Expression ν} {a b m : Moments ν} {v : ν}

def IsLinear (e : Expression ν) : Prop := e.shape.linear = true ∧ e.shape.sampled = false

structure HasMoments (e : Expression ν) (m : Moments ν) : Prop where
  linear : e.IsLinear
  exact : e.shape.exact = some m

lemma IsLinear.of_constant (h : e.shape.constant = true) : e.IsLinear := by
  induction e with
  | literal v => exact ⟨rfl, rfl⟩
  | distribution d => cases h
  | binary op l r ihl ihr =>
    obtain ⟨hl, hr⟩ := (Bool.and_eq_true _ _).mp h
    obtain ⟨⟨hl', hls⟩, hr', hrs⟩ := And.intro (ihl hl) (ihr hr)
    refine ⟨?_, (congrArg₂ or hls hrs).trans rfl⟩
    cases op <;> simp [shape, Shape.combine, Shape.combineLinear, hl, hr, hl', hr']

lemma IsLinear.operands {op : Operator} (h : (binary op l r).IsLinear) : l.IsLinear ∧ r.IsLinear := by
  obtain ⟨hlinear, hsampled⟩ := h
  obtain ⟨hls, hrs⟩ : l.shape.sampled = false ∧ r.shape.sampled = false := by
    simpa [shape, Shape.combine] using hsampled
  have hc {e : Expression ν} (h : e.shape.constant = true) : e.shape.linear = true := (IsLinear.of_constant h).1
  refine ⟨⟨?_, hls⟩, ?_, hrs⟩ <;> cases op <;>
    simp only [shape, Shape.combine, Shape.combineLinear, Bool.and_eq_true, Bool.or_eq_true] at hlinear <;> grind

lemma HasMoments.of_operands {op : Operator} (h : (Expression.binary op l r).IsLinear) (hl : l.HasMoments a)
    (hr : r.HasMoments b) : (Expression.binary op l r).HasMoments (Moments.combine op l.shape.constant a b) := by
  have hcond : (Shape.combineLinear op l.shape r.shape && !(l.shape.sampled || r.shape.sampled)) = true := by
    have hlinear : Shape.combineLinear op l.shape r.shape = true := h.1
    simp [hlinear, hl.linear.2, hr.linear.2]
  refine ⟨h, ?_⟩
  change Shape.combineExact op l.shape r.shape = _
  rw [Shape.combineExact, if_pos hcond, hl.exact, hr.exact]

lemma IsLinear.hasMoments (h : e.IsLinear) : ∃ m, e.HasMoments m := by
  induction e with
  | literal v => exact ⟨_, h, rfl⟩
  | distribution d =>
    cases d with
    | normal mu sigma => exact ⟨_, h, rfl⟩
    | sampled values => exact absurd h.2 nofun
  | binary op l r ihl ihr =>
    obtain ⟨a, ha⟩ := ihl h.operands.1
    obtain ⟨b, hb⟩ := ihr h.operands.2
    exact ⟨_, HasMoments.of_operands h ha hb⟩

lemma HasMoments.moments_eq (h : e.HasMoments m) (config : Sampling) : e.moments config = m := by
  have hexact : e.exactMoments? = some m := by
    cases e with
    | literal v => exact h.exact
    | binary op l r => exact h.exact
    | distribution d =>
      cases d with
      | normal mu sigma => exact h.exact
      | sampled values => exact absurd h.linear.2 nofun
  rw [moments, hexact]

lemma IsLinear.hasMoments_of {config : Sampling} (h : e.IsLinear) (hm : e.moments config = m) : e.HasMoments m := by
  obtain ⟨m', hm'⟩ := h.hasMoments
  rw [hm'.moments_eq config] at hm
  exact hm ▸ hm'

lemma hasMoments_literal : (literal v).HasMoments ⟨v, Number.zero⟩ := ⟨⟨rfl, rfl⟩, rfl⟩

lemma HasMoments.binary {op : Operator} (hl : l.HasMoments a) (hr : r.HasMoments b)
    (hop : op = .add ∨ op = .sub) : (binary op l r).HasMoments (Moments.combine op l.shape.constant a b) := by
  refine HasMoments.of_operands ⟨?_, (congrArg₂ or hl.linear.2 hr.linear.2).trans rfl⟩ hl hr
  rcases hop with rfl | rfl <;> exact (congrArg₂ and hl.linear.1 hr.linear.1).trans rfl

end Exactness

section Rational

variable {F : Transcendentals} {e e' l r : Expression (Exact F)} {a b m : Moments (Exact F)}

lemma HasMoments.add (hl : l.HasMoments a) (hr : r.HasMoments b) :
    (Expression.binary .add l r).HasMoments ⟨a.mean + b.mean, a.variance + b.variance⟩ :=
  hl.binary hr (.inl rfl)

lemma HasMoments.sub (hl : l.HasMoments a) (hr : r.HasMoments b) :
    (Expression.binary .sub l r).HasMoments ⟨a.mean - b.mean, a.variance + b.variance⟩ :=
  hl.binary hr (.inr rfl)

lemma sumCopies_hasMoments (h : e.HasMoments m) (n : Nat) :
    Totals (fun k x => x.HasMoments (m.times k)) n (Id.run (sumCopies (fun a b => pure (.binary .add a b)) e n)) := by
  have hadd : ∀ i j l r, l.HasMoments (m.times i) → r.HasMoments (m.times j) →
      (Expression.binary .add l r).HasMoments (m.times (i + j)) := by
    intro i j l r hl hr
    rw [Moments.times, Exact.ofNat_add_mul, Exact.ofNat_add_mul]
    exact hl.add hr
  have hone : e.HasMoments (m.times 1) := by
    rw [Moments.times, Exact.ofNat_one_mul, Exact.ofNat_one_mul]
    exact h
  exact sumCopies_totals hadd hone n

lemma repeated_hasMoments (h : e.HasMoments m) {n : Nat} (hn : n ≠ 0) (he : e.repeated n = .ok e') :
    e'.HasMoments (m.times n) := by
  have hcopies := sumCopies_hasMoments h n
  cases hl : e.literal? with
  | some v =>
    cases e <;> cases hl
    obtain rfl : m = ⟨v, Number.zero⟩ := Option.some.inj h.exact.symm
    rw [repeated, ofValue] at he
    split at he
    · cases he
      rw [Moments.times, ← Exact.mul_ofNat v, Exact.ofNat_mul_zero]
      exact hasMoments_literal
    · cases he
  | none =>
    rw [repeated_eq hl] at he
    cases hsum : Id.run (sumCopies (fun a b => pure (Expression.binary .add a b)) e n) with
    | none =>
      rw [hsum] at hcopies
      exact absurd hcopies hn
    | some sum =>
      rw [hsum] at he hcopies
      cases he
      exact hcopies

lemma exists_repeated {mean variance : ℚ} (h : e.HasMoments ⟨.rational mean, .rational variance⟩) (n : Nat) :
    ∃ e', e.repeated n = .ok e' ∧ e'.HasMoments ⟨.rational (n * mean), .rational (n * variance)⟩ := by
  cases hl : e.literal? with
  | some v =>
    cases e <;> cases hl
    obtain ⟨rfl, hzero⟩ := Moments.mk.inj (Option.some.inj h.exact)
    refine ⟨literal (.rational (mean * n)), rfl, ?_⟩
    have hvariance : (.rational (n * variance) : Exact F) = Number.zero := by
      rw [← Exact.rational_mul, ← hzero]
      exact Exact.ofNat_mul_zero n
    rw [hvariance, mul_comm]
    exact hasMoments_literal
  | none =>
    have hcopies := sumCopies_hasMoments h n
    rw [repeated_eq hl]
    cases hsum : Id.run (sumCopies (fun a b => pure (Expression.binary .add a b)) e n) with
    | none =>
      rw [hsum] at hcopies
      obtain rfl : n = 0 := hcopies
      refine ⟨literal Number.zero, rfl, ?_⟩
      simpa using hasMoments_literal (v := (Number.zero : Exact F))
    | some sum =>
      rw [hsum] at hcopies
      exact ⟨sum, rfl, hcopies⟩

end Rational

end Expression

end Uncertainty
