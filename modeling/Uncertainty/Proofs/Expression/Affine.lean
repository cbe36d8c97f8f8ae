import Mathlib.Algebra.BigOperators.Ring.List
import Mathlib.Tactic.NormNum
import Uncertainty.Expression.Affine
import Uncertainty.Formula.Printing
import Uncertainty.Proofs.Expression.Moments

/-! A linear expression is a constant and a sum of independent normal variables with constant factors, and its exact
moments are those of this sum. -/

namespace Uncertainty

namespace AffineForm

variable {F : Transcendentals} {a b : AffineForm} {k : ℚ} {xs ys : List ℚ}

lemma leaves_add : ((a.add b).leaves : List (Distribution (Exact F))) = a.leaves ++ b.leaves := List.map_append

lemma leaves_scale : ((a.scale k).leaves : List (Distribution (Exact F))) = a.leaves := by
  simp [leaves, scale, Function.comp_def]

lemma valueAt_add (h : xs.length = a.terms.length) : (a.add b).valueAt (xs ++ ys) = a.valueAt xs + b.valueAt ys := by
  simp only [valueAt, add, List.zipWith_append h.symm, List.sum_append]
  ring

lemma valueAt_scale : (a.scale k).valueAt xs = k * a.valueAt xs := by
  have hsum (terms : List AffineTerm) : (List.zipWith (·.factor * ·)
      (terms.map fun t => { t with factor := k * t.factor }) xs).sum = k * (List.zipWith (·.factor * ·) terms xs).sum := by
    induction terms generalizing xs with
    | nil => simp
    | cons t terms ih => cases xs <;> simp [ih, mul_add, mul_assoc]
  simp only [valueAt, scale, hsum, mul_add]

lemma mean_add : (a.add b).mean = a.mean + b.mean := by
  simp only [mean, add, List.map_append, List.sum_append]
  ring

lemma mean_scale : (a.scale k).mean = k * a.mean := by
  simp [mean, scale, Function.comp_def, mul_assoc, List.sum_map_mul_left, mul_add]

lemma variance_add : (a.add b).variance = a.variance + b.variance := by
  simp [variance, add]

lemma variance_scale : (a.scale k).variance = k ^ 2 * a.variance := by
  simp [variance, scale, Function.comp_def, mul_pow, mul_assoc, List.sum_map_mul_left]

end AffineForm

section Trial

variable {ν : Type} [Number ν]

namespace Distribution

lemma drawAll_append (ds ds' : List (Distribution ν)) (s : Random.Stream) :
    drawAll (ds ++ ds') s =
      ((drawAll ds s).1 ++ (drawAll ds' (drawAll ds s).2).1, (drawAll ds' (drawAll ds s).2).2) := by
  induction ds generalizing s with
  | nil => rfl
  | cons d ds ih => simp [drawAll, ih]

@[simp]
lemma length_drawAll (ds : List (Distribution ν)) (s : Random.Stream) : (drawAll ds s).1.length = ds.length := by
  induction ds generalizing s with
  | nil => rfl
  | cons d ds ih => simp [drawAll, ih]

end Distribution

namespace Expression

lemma draw_eq_valueAt (e : Expression ν) (s : Random.Stream) :
    e.draw s = (e.valueAt (Distribution.drawAll e.leaves s).1, (Distribution.drawAll e.leaves s).2) := by
  induction e generalizing s with
  | literal v => rfl
  | distribution d => rfl
  | binary op l r ihl ihr => simp [draw, valueAt, leaves, Distribution.drawAll_append, ihl, ihr]

lemma trial_eq_valueAt (e : Expression ν) (s : Random.Stream) :
    e.trial s = (e.valueAt (Distribution.drawAll e.leaves s).1, (Distribution.drawAll e.leaves s).2) := by
  rw [trial, runTasks_visit, runTasks, ← draw_eq_valueAt]
  rfl

lemma constant_iff_leaves {e : Expression ν} : e.shape.constant = true ↔ e.leaves = [] := by
  induction e with
  | literal v => exact iff_of_true rfl rfl
  | distribution d => exact iff_of_false nofun nofun
  | binary op l r ihl ihr => simp [shape, Shape.combine, leaves, ihl, ihr]

end Expression

end Trial

namespace Expression

variable {F : Transcendentals} {e l r : Expression (Exact F)} {a b : AffineForm}

/-- The expression is this sum: it has the same variables in the same order, a trial computes its value, and the exact
moments are its own. -/
structure Represents (e : Expression (Exact F)) (a : AffineForm) : Prop where
  leaves : e.leaves = a.leaves
  value : ∀ xs : List ℚ, xs.length = a.terms.length → e.valueAt (xs.map .rational) = .rational (a.valueAt xs)
  moments : e.HasMoments ⟨.rational a.mean, .rational a.variance⟩

namespace Represents

lemma length_leaves (h : e.Represents a) : e.leaves.length = a.terms.length := by
  rw [h.leaves, AffineForm.leaves, List.length_map]

lemma literal (q : ℚ) : (literal (.rational q) : Expression (Exact F)).Represents ⟨q, []⟩ where
  leaves := rfl
  value xs hxs := by simp [valueAt, AffineForm.valueAt]
  moments := by
    have h := hasMoments_literal (v := (.rational q : Exact F))
    simpa [AffineForm.mean, AffineForm.variance] using h

lemma normal (mu sigma : ℚ) :
    (distribution (.normal (.rational mu) (.rational sigma)) : Expression (Exact F)).Represents
      ⟨0, [⟨1, mu, sigma⟩]⟩ where
  leaves := rfl
  value xs hxs := by
    obtain ⟨x, rfl⟩ := List.length_eq_one_iff.mp hxs
    simp [valueAt, AffineForm.valueAt]
  moments := by
    refine ⟨⟨rfl, rfl⟩, ?_⟩
    simp [shape, Shape.leaf, Distribution.isSampled, Distribution.moments, Distribution.mean, Distribution.variance,
      AffineForm.mean, AffineForm.variance, sq]

lemma value_operands (hl : l.Represents a) (hr : r.Represents b) (op : Operator) {xs : List ℚ}
    (hxs : xs.length = a.terms.length + b.terms.length) : ∃ ys zs, xs = ys ++ zs ∧ ys.length = a.terms.length ∧
      (binary op l r).valueAt (xs.map .rational) = op.apply (.rational (a.valueAt ys)) (.rational (b.valueAt zs)) := by
  refine ⟨xs.take a.terms.length, xs.drop a.terms.length, (List.take_append_drop _ _).symm, by simp [hxs], ?_⟩
  rw [valueAt, hl.length_leaves, ← List.map_take, ← List.map_drop, hl.value _ (by simp [hxs]),
    hr.value _ (by simp [hxs])]

lemma eq_of_constant (h : e.Represents a) (hc : e.shape.constant = true) : ∃ q, a = ⟨q, []⟩ := by
  have hterms := h.leaves.symm.trans (constant_iff_leaves.mp hc)
  obtain ⟨q, terms⟩ := a
  obtain rfl : terms = [] := List.map_eq_nil_iff.mp hterms
  exact ⟨q, rfl⟩

lemma add (hl : l.Represents a) (hr : r.Represents b) : (binary .add l r).Represents (a.add b) where
  leaves := by rw [Expression.leaves, hl.leaves, hr.leaves, AffineForm.leaves_add]
  value xs hxs := by
    obtain ⟨ys, zs, rfl, hys, hv⟩ := hl.value_operands hr .add (hxs.trans List.length_append)
    rw [hv, AffineForm.valueAt_add hys]
    rfl
  moments := by
    rw [AffineForm.mean_add, AffineForm.variance_add]
    exact hl.moments.add hr.moments

lemma sub (hl : l.Represents a) (hr : r.Represents b) : (binary .sub l r).Represents (a.add (b.scale (-1))) where
  leaves := by rw [Expression.leaves, hl.leaves, hr.leaves, AffineForm.leaves_add, AffineForm.leaves_scale]
  value xs hxs := by
    obtain ⟨ys, zs, rfl, hys, hv⟩ := hl.value_operands hr .sub (by simpa [AffineForm.add, AffineForm.scale] using hxs)
    rw [hv, AffineForm.valueAt_add hys, AffineForm.valueAt_scale, neg_one_mul, ← sub_eq_add_neg]
    rfl
  moments := by
    rw [AffineForm.mean_add, AffineForm.variance_add, AffineForm.mean_scale, AffineForm.variance_scale]
    have hm := hl.moments.sub hr.moments
    rw [neg_one_mul, ← sub_eq_add_neg, neg_one_sq, one_mul]
    exact hm

section Constants

variable {q : ℚ}

lemma value_of_constant (hl : l.Represents a) (hr : r.Represents ⟨q, []⟩) (op : Operator) {xs : List ℚ}
    (hxs : xs.length = a.terms.length) :
    (binary op l r).valueAt (xs.map .rational) = op.apply (.rational (a.valueAt xs)) (.rational q) := by
  obtain ⟨ys, zs, rfl, hys, hv⟩ := hl.value_operands hr op hxs
  obtain rfl : zs = [] := by simpa [hys] using hxs
  rw [hv, List.append_nil]
  simp [AffineForm.valueAt]

lemma mul_left (hl : l.Represents ⟨q, []⟩) (hr : r.Represents b) (hc : l.shape.constant = true)
    (h : (binary .mul l r).IsLinear) : (binary .mul l r).Represents (b.scale q) where
  leaves := by rw [Expression.leaves, constant_iff_leaves.mp hc, List.nil_append, hr.leaves, AffineForm.leaves_scale]
  value xs hxs := by
    obtain ⟨ys, zs, rfl, hys, hv⟩ := hl.value_operands hr .mul (by simpa [AffineForm.scale] using hxs)
    obtain rfl := List.length_eq_zero_iff.mp hys
    rw [hv, AffineForm.valueAt_scale]
    simp [Operator.apply, AffineForm.valueAt]
  moments := by
    have hm := HasMoments.of_operands h hl.moments hr.moments
    rw [hc] at hm
    rw [AffineForm.mean_scale, AffineForm.variance_scale]
    simpa [Moments.combine, AffineForm.mean, sq] using hm

lemma mul_right (hl : l.Represents a) (hr : r.Represents ⟨q, []⟩) (hc : r.shape.constant = true)
    (hc' : l.shape.constant = false) (h : (binary .mul l r).IsLinear) :
    (binary .mul l r).Represents (a.scale q) where
  leaves := by rw [Expression.leaves, constant_iff_leaves.mp hc, List.append_nil, hl.leaves, AffineForm.leaves_scale]
  value xs hxs := by
    rw [hl.value_of_constant hr .mul (by simpa [AffineForm.scale] using hxs), AffineForm.valueAt_scale, mul_comm]
    rfl
  moments := by
    have hm := HasMoments.of_operands h hl.moments hr.moments
    rw [hc'] at hm
    rw [AffineForm.mean_scale, AffineForm.variance_scale]
    simpa [Moments.combine, AffineForm.mean, sq] using hm

lemma div (hl : l.Represents a) (hr : r.Represents ⟨q, []⟩) (hc : r.shape.constant = true) (hq : q ≠ 0)
    (h : (binary .div l r).IsLinear) : (binary .div l r).Represents (a.scale q⁻¹) where
  leaves := by rw [Expression.leaves, constant_iff_leaves.mp hc, List.append_nil, hl.leaves, AffineForm.leaves_scale]
  value xs hxs := by
    rw [hl.value_of_constant hr .div (by simpa [AffineForm.scale] using hxs), AffineForm.valueAt_scale,
      ← div_eq_inv_mul]
    exact Exact.rational_div hq
  moments := by
    have hm := HasMoments.of_operands h hl.moments hr.moments
    rw [AffineForm.mean_scale, AffineForm.variance_scale, inv_pow, ← div_eq_inv_mul, ← div_eq_inv_mul, sq]
    simpa [Moments.combine, AffineForm.mean, Exact.rational_div, hq] using hm

lemma pow {p s : ℚ} (hl : l.Represents ⟨p, []⟩) (hr : r.Represents ⟨q, []⟩)
    (hs : (Number.power (.rational p) (.rational q) : Exact F) = .rational s) (h : (binary .pow l r).IsLinear) :
    (binary .pow l r).Represents ⟨s, []⟩ where
  leaves := by
    rw [Expression.leaves, hl.leaves, hr.leaves]
    rfl
  value xs hxs := by
    rw [hl.value_of_constant hr .pow hxs]
    simpa [Operator.apply, AffineForm.valueAt] using hs
  moments := by
    have hm := HasMoments.of_operands h hl.moments hr.moments
    simpa [Moments.combine, AffineForm.mean, AffineForm.variance, hs] using hm

end Constants

end Represents

lemma IsLinear.exists_represents (hl : e.IsLinear) (hn : ∀ v ∈ e.numbers, Number.isFinite v = true)
    (hd : e.isDefined = true) : ∃ a, e.Represents a := by
  induction e with
  | literal v =>
    obtain ⟨q, rfl⟩ := Exact.rational_of_isFinite (hn v List.mem_cons_self)
    exact ⟨_, .literal q⟩
  | distribution d =>
    cases d with
    | normal mu sigma =>
      obtain ⟨mu, rfl⟩ := Exact.rational_of_isFinite (hn mu List.mem_cons_self)
      obtain ⟨sigma, rfl⟩ := Exact.rational_of_isFinite (hn sigma (List.mem_cons_of_mem _ List.mem_cons_self))
      exact ⟨_, .normal mu sigma⟩
    | sampled values => exact absurd hl.2 nofun
  | binary op l r ihl ihr =>
    rw [isDefined, Bool.and_eq_true, Bool.and_eq_true] at hd
    obtain ⟨⟨hdl, hdr⟩, hop⟩ := hd
    obtain ⟨a, ha⟩ := ihl hl.operands.1 (fun v hv => hn v (List.mem_append_left _ hv)) hdl
    obtain ⟨b, hb⟩ := ihr hl.operands.2 (fun v hv => hn v (List.mem_append_right _ hv)) hdr
    have hlinear : Shape.combineLinear op l.shape r.shape = true := hl.1
    cases op with
    | add => exact ⟨_, ha.add hb⟩
    | sub => exact ⟨_, ha.sub hb⟩
    | mul =>
      cases hc : l.shape.constant with
      | true =>
        obtain ⟨q, rfl⟩ := ha.eq_of_constant hc
        exact ⟨_, ha.mul_left hb hc hl⟩
      | false =>
        have hcr : r.shape.constant = true := by simp_all [Shape.combineLinear]
        obtain ⟨q, rfl⟩ := hb.eq_of_constant hcr
        exact ⟨_, ha.mul_right hb hcr hc hl⟩
    | div =>
      have hcr : r.shape.constant = true := (Bool.and_eq_true_iff.mp hlinear).1
      obtain ⟨q, rfl⟩ := hb.eq_of_constant hcr
      have hq : q ≠ 0 := by
        rintro rfl
        have hvalue : r.valueAt [] = Number.zero := by simpa [AffineForm.valueAt] using hb.value [] rfl
        have hzero : ((Number.zero : Exact F) == Number.zero) = true := LawfulZero.beq_refl rfl
        rw [definedAt, hcr, hvalue, hzero] at hop
        cases hop
      exact ⟨_, ha.div hb hcr hq hl⟩
    | pow =>
      obtain ⟨hcl, hcr⟩ := Bool.and_eq_true_iff.mp hlinear
      obtain ⟨p, rfl⟩ := ha.eq_of_constant hcl
      obtain ⟨q, rfl⟩ := hb.eq_of_constant hcr
      have hp : l.valueAt [] = .rational p := by simpa [AffineForm.valueAt] using ha.value [] rfl
      have hq : r.valueAt [] = .rational q := by simpa [AffineForm.valueAt] using hb.value [] rfl
      obtain ⟨s, hs⟩ := Exact.rational_of_isFinite (by simpa [definedAt, hcl, hcr, hp, hq] using hop)
      exact ⟨_, ha.pow hb hs hl⟩

theorem linear_expression_is_affine (hl : e.IsLinear) (hn : ∀ v ∈ e.numbers, Number.isFinite v = true)
    (hd : e.isDefined = true) : ∃ a : AffineForm, e.leaves = a.leaves ∧
      (∀ xs : List ℚ, xs.length = e.leaves.length → e.valueAt (xs.map .rational) = .rational (a.valueAt xs)) ∧
      (∀ s, (e.trial s).1 = e.valueAt (Distribution.drawAll e.leaves s).1) ∧
      e.shape.exact = some ⟨.rational a.mean, .rational a.variance⟩ := by
  obtain ⟨a, ha⟩ := hl.exists_represents hn hd
  refine ⟨a, ha.leaves, fun xs hxs => ha.value xs (hxs.trans ha.length_leaves), fun s => ?_, ha.moments.exact⟩
  rw [trial_eq_valueAt]

def squares : Transcendentals :=
  ⟨fun p q => if q = 2 then some (p * p) else none, fun _ => none, fun _ => none, fun _ => none, 0⟩

def reused : Expression (Exact squares) :=
  let x := distribution (.normal (.rational 1) (.rational 2))
  let two := literal (.rational 2)
  binary .add (binary .sub (binary .mul (binary .add (literal (.rational 1)) two) x) (binary .div x two))
    (binary .mul x (binary .pow two two))

theorem reused_is_affine : reused.IsLinear ∧ (∀ v ∈ reused.numbers, Number.isFinite v = true) ∧
    reused.isDefined = true ∧ ∃ a : AffineForm, reused.leaves = a.leaves ∧ a.mean = 13 / 2 ∧ a.variance = 101 ∧
      ∀ x y z : ℚ, a.valueAt [x, y, z] = 3 * x - 1 / 2 * y + 4 * z := by
  have hl : reused.IsLinear := ⟨rfl, rfl⟩
  have hn : ∀ v ∈ reused.numbers, Number.isFinite v = true := by decide
  have hd : reused.isDefined = true := by decide +kernel
  obtain ⟨a, hleaves, hvalue, -, hexact⟩ := linear_expression_is_affine hl hn hd
  have hpower : (Number.power (.rational 2) (.rational 2) : Exact squares) = .rational 4 := by decide +kernel
  have hmoments : reused.shape.exact = some ⟨.rational (13 / 2), .rational 101⟩ := by
    simp [reused, shape, Shape.combine, Shape.literal, Shape.leaf, Shape.combineExact, Shape.combineLinear,
      Moments.combine, Distribution.isSampled, Distribution.moments, Distribution.mean, Distribution.variance,
      Exact.rational_div, hpower]
    norm_num
  obtain ⟨hmean, hvariance⟩ : a.mean = 13 / 2 ∧ a.variance = 101 := by simpa [hexact] using hmoments
  refine ⟨hl, hn, hd, a, hleaves, hmean, hvariance, fun x y z => ?_⟩
  have hxyz : (1 + 2) * x - y / 2 + z * 4 = a.valueAt [x, y, z] := by
    simpa [reused, valueAt, leaves, Operator.apply, Exact.rational_div, hpower] using hvalue [x, y, z] rfl
  rw [← hxyz]
  ring

end Expression

end Uncertainty
