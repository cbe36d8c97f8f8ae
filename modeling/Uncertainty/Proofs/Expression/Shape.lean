import Uncertainty.Expression.Tree
import Uncertainty.Proofs.Expression.Moments

/-! The shape of an expression, which is put together from those of its operands, is what a walk over the tree finds. -/

namespace Uncertainty.Expression

variable {ν : Type} {e l r : Expression ν} {op : Operator}

lemma isConstant_binary : (binary op l r).IsConstant ↔ l.IsConstant ∧ r.IsConstant := by
  simp [IsConstant, tips, forall_and]

lemma hasSamples_binary : (binary op l r).HasSamples ↔ l.HasSamples ∨ r.HasSamples := by
  simp [HasSamples, tips, exists_or]

variable [Number ν]

lemma constant_iff : e.shape.constant = true ↔ e.IsConstant := by
  induction e with
  | literal v => exact iff_of_true rfl (by simp [IsConstant, tips])
  | distribution d => exact iff_of_false nofun fun h => h d List.mem_cons_self
  | binary op l r ihl ihr =>
    rw [isConstant_binary, ← ihl, ← ihr]
    exact Bool.and_eq_true_iff

lemma sampled_iff : e.shape.sampled = true ↔ e.HasSamples := by
  induction e with
  | literal v => exact iff_of_false nofun (by simp [HasSamples, tips])
  | distribution d =>
    cases d with
    | normal mu sigma => exact iff_of_false nofun (by simp [HasSamples, tips])
    | sampled values => exact iff_of_true rfl ⟨values, List.mem_cons_self⟩
  | binary op l r ihl ihr =>
    rw [hasSamples_binary, ← ihl, ← ihr]
    exact Bool.or_eq_true_iff

lemma leaves_eq (e : Expression ν) : e.shape.leaves = min leafLimit e.tips.length := by
  induction e with
  | literal v => rfl
  | distribution d => rfl
  | binary op l r ihl ihr =>
    change min leafLimit (l.shape.leaves + r.shape.leaves) = min leafLimit (l.tips ++ r.tips).length
    rw [ihl, ihr, List.length_append]
    omega

lemma depth_eq (e : Expression ν) : e.shape.depth = e.height := by
  induction e with
  | literal v => rfl
  | distribution d => rfl
  | binary op l r ihl ihr =>
    change 1 + max l.shape.depth r.shape.depth = max l.height r.height + 1
    rw [ihl, ihr, Nat.add_comm]

lemma linear_iff : e.shape.linear = true ↔ e.IsLinearTree := by
  induction e with
  | literal v => exact iff_of_true rfl (.literal v)
  | distribution d => exact iff_of_true rfl (.distribution d)
  | binary op l r ihl ihr =>
    change Shape.combineLinear op l.shape r.shape = true ↔ _
    cases op with
    | add =>
      rw [Shape.combineLinear, Bool.and_eq_true_iff, ihl, ihr]
      constructor
      · exact fun h => .add h.1 h.2
      · intro h
        cases h with
        | add hl hr => exact ⟨hl, hr⟩
    | sub =>
      rw [Shape.combineLinear, Bool.and_eq_true_iff, ihl, ihr]
      constructor
      · exact fun h => .sub h.1 h.2
      · intro h
        cases h with
        | sub hl hr => exact ⟨hl, hr⟩
    | mul =>
      rw [Shape.combineLinear, Bool.or_eq_true_iff, Bool.and_eq_true_iff, Bool.and_eq_true_iff, constant_iff,
        constant_iff, ihl, ihr]
      constructor
      · rintro (⟨hl, hr⟩ | ⟨hr, hl⟩)
        · exact .mulLeft hl hr
        · exact .mulRight hl hr
      · intro h
        cases h with
        | mulLeft hl hr => exact .inl ⟨hl, hr⟩
        | mulRight hl hr => exact .inr ⟨hr, hl⟩
    | div =>
      rw [Shape.combineLinear, Bool.and_eq_true_iff, constant_iff, ihl]
      constructor
      · exact fun h => .div h.2 h.1
      · intro h
        cases h with
        | div hl hr => exact ⟨hr, hl⟩
    | pow =>
      rw [Shape.combineLinear, Bool.and_eq_true_iff, constant_iff, constant_iff]
      constructor
      · exact fun h => .pow h.1 h.2
      · intro h
        cases h with
        | pow hl hr => exact ⟨hl, hr⟩

lemma isLinear_iff : e.IsLinear ↔ e.IsLinearTree ∧ ¬ e.HasSamples := by
  rw [IsLinear, linear_iff, ← sampled_iff, Bool.not_eq_true]

lemma isSome_exact_iff : e.shape.exact.isSome = true ↔ e.IsLinear := by
  constructor
  · cases e with
    | literal v => exact fun _ => ⟨rfl, rfl⟩
    | distribution d =>
      cases d with
      | normal mu sigma => exact fun _ => ⟨rfl, rfl⟩
      | sampled values => exact nofun
    | binary op l r =>
      intro h
      change (Shape.combineExact op l.shape r.shape).isSome = true at h
      rw [Shape.combineExact] at h
      split at h
      · obtain ⟨hlinear, hsampled⟩ := Bool.and_eq_true_iff.mp ‹_›
        exact ⟨hlinear, by simpa [shape, Shape.combine] using hsampled⟩
      · cases h
  · intro h
    obtain ⟨m, hm⟩ := h.hasMoments
    rw [hm.exact]
    rfl

lemma exactMoments?_eq_none : e.exactMoments? = none ↔ e.NeedsTrials := by
  cases e with
  | literal v => exact iff_of_false nofun fun ⟨⟨_, _, _, h⟩, _⟩ => nomatch h
  | distribution d => exact iff_of_false nofun fun ⟨⟨_, _, _, h⟩, _⟩ => nomatch h
  | binary op l r =>
    change (binary op l r).shape.exact = none ↔ _
    rw [NeedsTrials, ← Option.not_isSome_iff_eq_none, isSome_exact_iff, isLinear_iff, not_and_or, not_not,
      iff_and_self]
    exact fun _ => ⟨op, l, r, rfl⟩

theorem shape_is_found_by_walk (e : Expression ν) :
    (e.shape.constant = true ↔ e.IsConstant) ∧ (e.shape.sampled = true ↔ e.HasSamples) ∧
      e.shape.leaves = min leafLimit e.tips.length ∧ e.shape.depth = e.height ∧
      (e.shape.linear = true ↔ e.IsLinearTree) ∧ (e.IsConstant → e.IsLinearTree) ∧
      (e.shape.exact.isSome = true ↔ e.IsLinearTree ∧ ¬ e.HasSamples) ∧
      (e.NeedsTrials → e.exactMoments? = none ∧ ∀ config, e.moments config = e.estimate config) ∧
      (¬ e.NeedsTrials → ∃ m, e.exactMoments? = some m ∧ ∀ config, e.moments config = m) := by
  refine ⟨constant_iff, sampled_iff, leaves_eq e, depth_eq e, linear_iff, fun h => ?_, ?_, fun h => ?_, fun h => ?_⟩
  · exact linear_iff.mp (IsLinear.of_constant (constant_iff.mpr h)).1
  · rw [isSome_exact_iff, isLinear_iff]
  · have hnone := exactMoments?_eq_none.mpr h
    exact ⟨hnone, fun config => by rw [moments, hnone]⟩
  · obtain ⟨m, hm⟩ := Option.ne_none_iff_exists'.mp (mt exactMoments?_eq_none.mp h)
    exact ⟨m, hm, fun config => by rw [moments, hm]⟩

end Uncertainty.Expression
