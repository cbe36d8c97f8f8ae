import Uncertainty.Proofs.Expression.Moments
import Uncertainty.Proofs.Reaction.Formulas

namespace Uncertainty

namespace Value

variable {F : Transcendentals} {u v w : Value (Exact F)} {a b : Moments (Exact F)}

def HasMoments (v : Value (Exact F)) (m : Moments (Exact F)) : Prop := v.toExpression.HasMoments m

lemma HasMoments.of_scalar {x : Exact F} (h : (scalar x).HasMoments a) : a = ⟨x, Number.zero⟩ :=
  (Option.some.inj h.exact).symm

lemma HasMoments.add (hv : v.HasMoments a) (hw : w.HasMoments b) (h : v.combine .add w = .ok u) :
    u.HasMoments ⟨a.mean + b.mean, a.variance + b.variance⟩ := by
  rcases combine_cases h with ⟨l, r, rfl, rfl, -, rfl⟩ | ⟨-, rfl⟩
  · obtain rfl := hv.of_scalar
    obtain rfl := hw.of_scalar
    change HasMoments _ ⟨l + r, Number.zero + Number.zero⟩
    rw [Exact.zero_add_zero]
    exact Expression.hasMoments_literal
  · exact Expression.HasMoments.add hv hw

lemma HasMoments.sub (hv : v.HasMoments a) (hw : w.HasMoments b) (h : v.combine .sub w = .ok u) :
    u.HasMoments ⟨a.mean - b.mean, a.variance + b.variance⟩ := by
  rcases combine_cases h with ⟨l, r, rfl, rfl, -, rfl⟩ | ⟨-, rfl⟩
  · obtain rfl := hv.of_scalar
    obtain rfl := hw.of_scalar
    change HasMoments _ ⟨l - r, Number.zero + Number.zero⟩
    rw [Exact.zero_add_zero]
    exact Expression.hasMoments_literal
  · exact Expression.HasMoments.sub hv hw

lemma folded_hasMoments (h : v.HasMoments a) : v.folded.HasMoments a := by
  rwa [HasMoments, toExpression_folded]

section Rational

variable {p q s t : ℚ}

lemma HasMoments.isFinite (h : v.HasMoments ⟨.rational p, .rational s⟩) : v.IsFinite := by
  intro x hx
  have hfolded := folded_hasMoments h
  rw [hx] at hfolded
  cases hfolded.of_scalar
  rfl

lemma HasMoments.exists_combine (op : Operator) (hv : v.HasMoments ⟨.rational p, .rational s⟩)
    (hw : w.HasMoments ⟨.rational q, .rational t⟩)
    (hop : Number.isFinite (op.apply (.rational p) (.rational q) : Exact F) = true) :
    ∃ u, v.combine op w = .ok u := by
  apply Value.exists_combine
  rintro l r rfl rfl
  cases hv.of_scalar
  cases hw.of_scalar
  exact hop

lemma HasMoments.exists_add (hv : v.HasMoments ⟨.rational p, .rational s⟩) (hw : w.HasMoments ⟨.rational q, .rational t⟩) :
    ∃ u, v.combine .add w = .ok u ∧ u.HasMoments ⟨.rational (p + q), .rational (s + t)⟩ := by
  obtain ⟨u, hu⟩ := hv.exists_combine .add hw rfl
  exact ⟨u, hu, hv.add hw hu⟩

lemma HasMoments.exists_sub (hv : v.HasMoments ⟨.rational p, .rational s⟩) (hw : w.HasMoments ⟨.rational q, .rational t⟩) :
    ∃ u, v.combine .sub w = .ok u ∧ u.HasMoments ⟨.rational (p - q), .rational (s + t)⟩ := by
  obtain ⟨u, hu⟩ := hv.exists_combine .sub hw rfl
  exact ⟨u, hu, hv.sub hw hu⟩

end Rational

end Value

namespace Reaction

variable {F : Transcendentals} {d : Attribute} {base : Value (Exact F)} {new e : Expression (Exact F)} {old : Exact F}
  {b m : Moments (Exact F)}

lemma incremental_hasMoments {n : Nat} (hn : n ≠ 0) (hb : base.HasMoments b) (hm : new.HasMoments m)
    (h : incremental d base new old n = .ok e) :
    e.HasMoments ⟨b.mean + Number.ofNat n * (m.mean - old), b.variance + Number.ofNat n * m.variance⟩ := by
  have hnew : (Value.expression new).folded.HasMoments m := Value.folded_hasMoments hm
  have hold : (Value.scalar old).HasMoments ⟨old, Number.zero⟩ := Expression.hasMoments_literal
  cases incremental_ok h with
  | once hone hs hu he =>
    have hu' := ((Value.folded_hasMoments hb).add hnew hs).sub hold hu
    rw [he, hone, Exact.ofNat_one_mul, Exact.ofNat_one_mul, ← Exact.add_sub_assoc,
      ← Exact.add_zero (b.variance + m.variance)]
    exact hu'
  | repeated _ hv htotal hu he =>
    have hsum := Expression.repeated_hasMoments (hnew.sub hold hv) hn htotal
    have hu' := (Value.folded_hasMoments hb).add (Value.folded_hasMoments (v := .expression _) hsum) hu
    rw [he, ← Exact.add_zero m.variance]
    exact hu'

lemma exists_incremental (d : Attribute) (value : ℚ) {mean variance mean' variance' : ℚ}
    (hb : base.HasMoments ⟨.rational mean, .rational variance⟩)
    (hm : new.HasMoments ⟨.rational mean', .rational variance'⟩) (n : Nat) :
    ∃ e, incremental d base new (.rational value) n = .ok e ∧
      e.HasMoments ⟨.rational (mean + n * (mean' - value)), .rational (variance + n * variance')⟩ := by
  have hnew : (Value.expression new).HasMoments ⟨.rational mean', .rational variance'⟩ := hm
  have hold : (Value.scalar (.rational value : Exact F)).HasMoments ⟨.rational value, .rational 0⟩ := by
    rw [← Exact.zero_eq]
    exact Expression.hasMoments_literal
  by_cases hn : n = 1
  · subst hn
    obtain ⟨s, hs, hsum⟩ := (Value.folded_hasMoments hb).exists_add (Value.folded_hasMoments hnew)
    obtain ⟨u, hu, hdifference⟩ := hsum.exists_sub hold
    refine ⟨u.toExpression, ?_, ?_⟩
    · rw [incremental_once hb.isFinite hnew.isFinite hold.isFinite, hs]
      exact congrArg (· >>= fun u => pure u.toExpression) hu
    · rw [Nat.cast_one, one_mul, one_mul, ← add_sub_assoc, ← add_zero (variance + variance')]
      exact hdifference
  · obtain ⟨v, hv, hdelta⟩ := (Value.folded_hasMoments hnew).exists_sub hold
    obtain ⟨total, htotal, hcopies⟩ := Expression.exists_repeated hdelta n
    obtain ⟨u, hu, hsum⟩ := (Value.folded_hasMoments hb).exists_add (Value.folded_hasMoments (v := .expression total) hcopies)
    refine ⟨u.toExpression, ?_, ?_⟩
    · rw [incremental_repeated hb.isFinite hnew.isFinite hold.isFinite hn, hv]
      dsimp only [bind, Except.bind]
      rw [htotal]
      exact congrArg (· >>= fun u => pure u.toExpression) hu
    · rw [← add_zero variance']
      exact hsum

lemma shifted_hasMoments (hm : new.HasMoments m) (h : shifted d new old = .ok e) :
    e.HasMoments ⟨m.mean + old, m.variance⟩ := by
  have hold : (Value.scalar old).HasMoments ⟨old, Number.zero⟩ := Expression.hasMoments_literal
  obtain ⟨u, hu, rfl⟩ := shifted_ok h
  have hu' := (Value.folded_hasMoments (v := .expression new) hm).add hold hu
  rw [← Exact.add_zero m.variance]
  exact hu'

end Reaction

end Uncertainty
