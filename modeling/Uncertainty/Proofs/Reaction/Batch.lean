import Uncertainty.Proofs.Expression.Affine
import Uncertainty.Proofs.Reaction.Effects
import Uncertainty.Proofs.Reaction.Increment
import Uncertainty.Proofs.Reaction.Plain
import Uncertainty.Proofs.Reaction.Restraint

namespace Uncertainty

open Attempt

section Success

variable {ν : Type}

variable [Number ν] {reaction : Reaction} {config : Sampling} {container : EntityId} {w : Workspace (Listing ν) ν}

lemma Reaction.exists_writeBack (hw : Accepts w.store w.supply.fresh) {x : ν}
    (hx : w.model.get container reaction.derived = .ok x) (template : Record ν) {e : Expression ν}
    (hf : Number.isFinite (e.mean config) = true) :
    ∃ r w', start (reaction.writeBack config container (RecordStore.find? w.store reaction.derived.name container)
      template e) w = (.ok r, w') := by
  obtain ⟨r, w₁, hsave, -⟩ := saveExpression_succeeds hw rfl template e
  obtain ⟨m, hset⟩ := Registry.set_of_get hx (e.mean config)
  obtain ⟨hsaves, -⟩ := saveExpression_eq_ok.mp hsave
  exact ⟨r, { w₁ with model := m }, writeBack_eq_ok.mpr ⟨hf, hsaves, _, hset⟩⟩

end Success

namespace Reaction

variable {F : Transcendentals}

structure LinearChange {σ : Type} [RecordStore σ (Exact F)] (w : Workspace σ (Exact F)) (config : Sampling)
    (derived : Attribute) (change : Change (Exact F)) (old newMean newVariance mean variance : ℚ) : Prop where
  old : change.old = .rational old
  new : ∃ e, recordedExpression? w.store change.parameter change.affected = some e ∧ e.IsLinear ∧
    e.moments config = ⟨.rational newMean, .rational newVariance⟩
  held : ∃ x, w.model.get change.container derived = .ok x
  baseline : match recordedExpression? w.store derived change.container with
    | some e => e.IsLinear ∧ e.moments config = ⟨.rational mean, .rational variance⟩
    | none => w.model.get change.container derived = .ok (.rational mean) ∧ variance = 0

variable {config : Sampling} {change : Change (Exact F)} {reaction : Reaction} {old newMean newVariance mean variance : ℚ}
  {count : Nat}

lemma LinearChange.plain {w : Workspace (Store (Exact F)) (Exact F)} (hs : w.store.Sound)
    (h : LinearChange w config reaction.derived change old newMean newVariance mean variance) :
    LinearChange w.plain config reaction.derived change old newMean newVariance mean variance := by
  refine ⟨h.old, ?_, h.held, ?_⟩
  · rw [Workspace.recordedExpression?_plain hs]
    exact h.new
  · rw [Workspace.recordedExpression?_plain hs]
    exact h.baseline

section Listing

variable {w w' : Workspace (Listing (Exact F)) (Exact F)} {trigger : Trigger (Exact F)}
  (h : LinearChange w config reaction.derived change old newMean newVariance mean variance)
include h

lemma LinearChange.exists_source :
    ∃ source, RecordStore.find? w.store change.parameter.name change.affected = some source := by
  obtain ⟨e, he, -⟩ := h.new
  obtain ⟨source, hsource, -⟩ := Option.bind_eq_some_iff.mp he
  exact ⟨source, hsource⟩

lemma LinearChange.exists_base : ∃ base : Value (Exact F), base.HasMoments ⟨.rational mean, .rational variance⟩ ∧
    ∀ v, IsValueOf w.model reaction.derived change.container
      (recordedExpression? w.store reaction.derived change.container) v ↔ v = base := by
  have hbaseline := h.baseline
  cases hrecorded : recordedExpression? w.store reaction.derived change.container with
  | some e =>
    rw [hrecorded] at hbaseline
    exact ⟨.expression e, hbaseline.1.hasMoments_of hbaseline.2, fun v => Iff.rfl⟩
  | none =>
    rw [hrecorded] at hbaseline
    obtain ⟨hget, rfl⟩ := hbaseline
    refine ⟨.scalar (.rational mean), ?_, fun v => ⟨?_, fun hv => ⟨_, hget, hv⟩⟩⟩
    · rw [← Exact.zero_eq]
      exact Expression.hasMoments_literal
    · rintro ⟨x, hx, rfl⟩
      cases hget.symm.trans hx
      rfl

lemma LinearChange.exists_expression (hpolicy : reaction.policy = .incremental) (hcount : count ≤ maxRepeatedTerms)
    (htrigger : trigger = .changes change count ∨ count = 1 ∧ trigger = .change change) :
    ∃ e, e.HasMoments ⟨.rational (mean + count * (newMean - old)), .rational (variance + count * newVariance)⟩ ∧
      ∀ e', Yields reaction w e' trigger ↔ e' = e := by
  obtain ⟨new, hnew, hlinear, hmoments⟩ := h.new
  obtain ⟨base, hbase, hvalue⟩ := h.exists_base
  obtain ⟨e, he, hsum⟩ := exists_incremental reaction.derived old hbase (hlinear.hasMoments_of hmoments) count
  have hadds (e' : Expression (Exact F)) : Adds reaction change count w new e' ↔ e' = e := by
    simp only [Adds, hpolicy, hvalue, exists_eq_left, h.old, he, Except.ok.injEq]
    exact eq_comm
  refine ⟨e, hsum, fun e' => ?_⟩
  rcases htrigger with rfl | ⟨rfl, rfl⟩
  · simp [Yields, hnew, hadds, hcount]
  · simp [Yields, hnew, hadds]

end Listing

/-- As many times as there are items, the mean grows by the difference between the new mean and the old value, and the
variance by the new variance. That nothing fails takes an id that is free, for a new record. -/
theorem incremental_reaction_adds_moments (calls : List (StoreCall (Exact F))) (m : Registry (Exact F))
    (supply : IdSupply) {trigger : Trigger (Exact F)} (hpolicy : reaction.policy = .incremental)
    (hcount : count ≤ maxRepeatedTerms)
    (htrigger : trigger = .changes change count ∨ count = 1 ∧ trigger = .change change) :
    let s := (StoreCall.performAll calls (Store.empty : Store (Exact F))).2
    let w : Workspace (Store (Exact F)) (Exact F) := ⟨s, m, supply⟩
    LinearChange w config reaction.derived change old newMean newVariance mean variance →
      (∀ r w', start (reaction.run config trigger) w = (.ok (some r), w') →
        RecordStore.find? w'.store reaction.derived.name change.container = some r ∧
        w'.model.get change.container reaction.derived = .ok (.rational (mean + count * (newMean - old))) ∧
        ∃ e, r.expression? = some e ∧ e.IsLinear ∧ e.moments config =
          ⟨.rational (mean + count * (newMean - old)), .rational (variance + count * newVariance)⟩) ∧
      (s.holds supply.fresh = false → ∃ r w', start (reaction.run config trigger) w = (.ok (some r), w')) := by
  intro s w h
  have hs : Stands s s.listing := ⟨(Stands.empty.performAll calls).2.sound, rfl⟩
  have hw := h.plain hs.sound
  obtain ⟨e, he, hyields⟩ := hw.exists_expression hpolicy hcount htrigger
  obtain ⟨hlinear, hmoments⟩ := And.intro he.linear (he.moments_eq config)
  have hmean : e.mean config = .rational (mean + count * (newMean - old)) := congrArg Moments.mean hmoments
  have hcontainer : trigger.container = change.container := by
    rcases htrigger with rfl | ⟨-, rfl⟩ <;> rfl
  refine ⟨fun r w' hrun => ?_, fun hfresh => ?_⟩
  · obtain ⟨hrun, hs'⟩ := Workspace.start_run_plain_of_eq hs.sound hrun
    obtain ⟨source, e', -, he', hr⟩ := run_eq_some.mp hrun
    obtain rfl := (hyields e').mp he'
    obtain ⟨-, hsaves, old, hset⟩ := writeBack_eq_ok.mp hr
    rw [hcontainer] at hsaves hset
    have hfound := hsaves.savedAs.filed.found
    rw [Workspace.find?_plain hs'] at hfound
    exact ⟨hfound, hmean ▸ Registry.get_set_self hset, e', hsaves.savedAs.expression, hlinear, hmoments⟩
  · obtain ⟨x, hx⟩ := hw.held
    obtain ⟨source, hsource⟩ := hw.exists_source
    have haccepts : Accepts w.plain.store w.plain.supply.fresh := Listing.accepts (hs.holds supply.fresh ▸ hfresh)
    obtain ⟨r, w', hr⟩ := exists_writeBack haccepts hx source (hmean ▸ rfl : Number.isFinite (e.mean config) = true)
    have hrun : start (reaction.run config trigger) w.plain = (.ok (some r), w') := by
      refine run_eq_some.mpr ⟨source, e, ?_, (hyields e).mpr rfl, hcontainer ▸ hr⟩
      rcases htrigger with rfl | ⟨-, rfl⟩ <;> exact hsource
    obtain ⟨w'', hstart, -⟩ := Workspace.exists_start_run_of_plain (w := w) hs.sound hrun
    exact ⟨r, w'', hstart⟩

theorem three_links_add_moments :
    let links := derivedRecord .crossLinkMass ⟨1⟩ default ⟨0, 1⟩ (.distribution (.normal (.rational 5) (.rational 2)))
    let total := derivedRecord .totalMass ⟨0⟩ default ⟨0, 2⟩ (.distribution (.normal (.rational 100) (.rational 1)))
    let s := (StoreCall.performAll [.insert links, .insert total] (Store.empty : Store (Exact Expression.squares))).2
    let w : Workspace (Store (Exact Expression.squares)) (Exact Expression.squares) :=
      ⟨s, ⟨#[Entity.new .damperSystem none]⟩, ⟨0⟩⟩
    let change := ⟨.crossLinkMass, .rational 4, .rational 5, ⟨1⟩, ⟨0⟩⟩
    let trigger := .changes change 3
    ∃ r w', start (totalMass.run .standard trigger) w = (.ok (some r), w') ∧
      w'.model.get ⟨0⟩ .totalMass = .ok (.rational 103) ∧
        r.expression?.map (·.moments .standard) = some ⟨.rational 103, .rational 13⟩ := by
  intro links total s w change trigger
  have hanswers := (Stands.empty.performAll [.insert links, .insert total]).2.answers.find?
  have hlinks : recordedExpression? s .crossLinkMass ⟨1⟩ = some (.distribution (.normal (.rational 5) (.rational 2))) :=
    congrArg (·.bind (·.expression?)) (hanswers _ _)
  have htotal : recordedExpression? s .totalMass ⟨0⟩ = some (.distribution (.normal (.rational 100) (.rational 1))) :=
    congrArg (·.bind (·.expression?)) (hanswers _ _)
  have hmoments (mean deviation : ℚ) : Expression.HasMoments
      (.distribution (.normal (.rational mean) (.rational deviation)) : Expression (Exact Expression.squares))
      ⟨.rational mean, .rational (deviation * deviation)⟩ := ⟨⟨rfl, rfl⟩, rfl⟩
  have h : LinearChange w .standard .totalMass change 4 5 (2 * 2) 100 (1 * 1) := by
    refine ⟨rfl, ⟨_, hlinks, (hmoments 5 2).linear, (hmoments 5 2).moments_eq _⟩, ⟨.rational 0, rfl⟩, ?_⟩
    rw [htotal]
    exact ⟨(hmoments 100 1).linear, (hmoments 100 1).moments_eq _⟩
  have hpolicy : totalMass.policy = .incremental := rfl
  have hcount : 3 ≤ maxRepeatedTerms := by decide
  have htrigger : trigger = .changes change 3 ∨ 3 = 1 ∧ trigger = .change change := .inl rfl
  obtain ⟨hadds, hsucceeds⟩ := incremental_reaction_adds_moments [.insert links, .insert total] w.model ⟨0⟩ hpolicy hcount
    htrigger h
  obtain ⟨r, w', hrun⟩ := hsucceeds (by decide +kernel)
  obtain ⟨-, hvalue, e, he, -, hexact⟩ := hadds r w' hrun
  have hmean : (100 : ℚ) + (3 : ℕ) * (5 - 4) = 103 := by norm_num
  have hvariance : (1 * 1 : ℚ) + (3 : ℕ) * (2 * 2) = 13 := by norm_num
  rw [hmean] at hvalue hexact
  rw [hvariance] at hexact
  exact ⟨r, w', hrun, hvalue, by rw [he, Option.map_some, hexact]⟩

end Reaction

end Uncertainty
