import Uncertainty.Proofs.Expression.Estimate
import Uncertainty.Proofs.Number.FloatOverflow
import Uncertainty.Proofs.Reaction.Formulas
import Uncertainty.Proofs.Reaction.Plain
import Uncertainty.Proofs.Reaction.Restraint

namespace Uncertainty

open Attempt

section Spoiling

variable {ν : Type} [Number ν]

section Mean

variable [LawfulOverflow ν] [LawfulQuotient ν]

lemma Tally.isFinite_of_add {t : Tally ν} {x : ν} (h : Number.isFinite (t.add x).mean = true) :
    Number.isFinite t.mean = true ∧ Number.isFinite x = true := by
  -- The new mean is the one before plus a share of the deviation of the value from it.
  obtain ⟨hmean, hquotient⟩ := LawfulOverflow.of_add h
  exact ⟨hmean, (LawfulOverflow.of_sub (LawfulQuotient.of_div hquotient)).1⟩

lemma Tally.isFinite_of_foldl {t : Tally ν} {xs : List ν} (h : Number.isFinite (xs.foldl Tally.add t).mean = true) :
    Number.isFinite t.mean = true ∧ ∀ x ∈ xs, Number.isFinite x = true := by
  induction xs generalizing t with
  | nil => exact ⟨h, nofun⟩
  | cons x xs ih =>
    obtain ⟨hmean, hxs⟩ := ih h
    obtain ⟨ht, hx⟩ := isFinite_of_add hmean
    exact ⟨ht, List.forall_mem_cons.mpr ⟨hx, hxs⟩⟩

lemma Expression.isFinite_of_estimate {e : Expression ν} {config : Sampling}
    (h : Number.isFinite (e.estimate config).mean = true) : ∀ v ∈ e.trials config, Number.isFinite v = true := by
  rw [estimate_eq] at h
  exact (Tally.isFinite_of_foldl h).2

end Mean

lemma Expression.materialize_of_not_isFinite {e : Expression ν} {config : Sampling} {v : ν} (hv : v ∈ e.trials config)
    (hbad : Number.isFinite v = false) : e.materialize config =
      .error (.invalidResult (.draws ((e.trials config).countP fun v => !Number.isFinite v) config.samples)) := by
  have hpos : 0 < (e.trials config).countP fun v => !Number.isFinite v :=
    List.countP_pos_iff.mpr ⟨v, hv, by rw [hbad]; rfl⟩
  rw [List.countP_eq_length_filter] at hpos ⊢
  rw [materialize, ← e.length_trials config]
  exact if_pos hpos

end Spoiling

namespace Workspace

variable {σ ν α β : Type}

def Trusting (work : Work σ ν α) : Prop := ∀ w x, (start work w).1 ≠ .error (.expression x)

namespace Trusting

lemma done (a : α) : Trusting (pure a : Work σ ν α) := nofun

lemma bind {work : Work σ ν α} {next : α → Work σ ν β} (hw : Trusting work) (hn : ∀ a, Trusting (next a)) :
    Trusting (work >>= next) := by
  intro w x h
  have hfirst := hw w x
  rw [start_bind] at h
  rcases hwork : start work w with ⟨e | a, u⟩ <;> rw [hwork] at h hfirst
  · exact hfirst (congrArg Except.error (Except.error.inj h))
  · exact hn a u x h

lemma freshId : Trusting (freshId : Work σ ν RecordId) := nofun

lemma writeModel (f : Registry ν → Except ModelError (α × Registry ν)) : Trusting (writeModel f : Work σ ν α) := by
  intro w x h
  rw [Workspace.writeModel, start_step] at h
  cases hf : f w.model <;> rw [hf] at h <;> cases h

lemma writeStore (f : σ → Except StoreError σ) : Trusting (writeStore f : Work σ ν Unit) := by
  intro w x h
  rw [Workspace.writeStore, start_step] at h
  cases hf : f w.store <;> rw [hf] at h <;> cases h

lemma saveExpression [RecordStore σ ν] (derived : Attribute) (container : EntityId) (existing : Option (Record ν))
    (template : Record ν) (e : Expression ν) :
    Trusting (Reaction.saveExpression derived container existing template e : Work σ ν (Record ν)) := by
  unfold Reaction.saveExpression
  cases existing with
  | some old => exact (writeStore _).bind fun _ => .done _
  | none => exact freshId.bind fun id => (writeStore _).bind fun _ => .done _

end Trusting

end Workspace

namespace Reaction

open Workspace

section Refusing

variable {σ ν : Type} [RecordStore σ ν] [Number ν]

lemma run_spares_refused (reaction : Reaction) (config : Sampling) (trigger : Trigger ν) (w : Workspace σ ν) :
    Spares (fun r => ∃ x, r = .error (.expression x)) (reaction.run config trigger) w := by
  refine run_spares_of fun existing template e _ => ?_
  rw [writeBack]
  split
  · rw [bind_assoc]
    refine (readModel_reads _).then_spares fun current _ => ?_
    have htrusting : Trusting (do
        let record ← saveExpression reaction.derived trigger.container existing template e
        let _ ← writeModel (·.set trigger.container reaction.derived (e.mean config))
        return some record : Work σ ν (Option (Record ν))) :=
      .bind (.saveExpression _ _ _ _ _) fun r => .bind (.writeModel _) fun _ => .done _
    rintro ⟨x, hx⟩
    simp only [bind_assoc, pure_bind] at hx
    exact absurd hx (htrusting w x)
  · exact ((Reads.fails _).bind fun _ => .done _).spares w

end Refusing

section Listing

variable {ν : Type} [Number ν] {w : Workspace (Listing ν) ν} {reaction : Reaction} {config : Sampling}

lemma start_propagate_of_adds {change : Change ν} {count : Nat} {source : Record ν} {new e : Expression ν}
    (hsource : RecordStore.find? w.store change.parameter.name change.affected = some source)
    (hnew : source.expression? = some new) (he : Adds reaction change count w new e) :
    start (reaction.propagate config change count) w = start (do return some (← reaction.writeBack config
      change.container (RecordStore.find? w.store reaction.derived.name change.container) source e)) w := by
  have hderived := derivedExpression_eq_ok.mpr ⟨he, rfl⟩
  rw [propagate, start_bind, readStore_eq_ok.mpr ⟨hsource, rfl⟩]
  dsimp only
  rw [hnew]
  dsimp only
  rw [start_bind, readStore_eq_ok.mpr ⟨rfl, rfl⟩]
  dsimp only
  rw [start_bind, hderived]

lemma start_absorb_of_absorbs {container : EntityId} {delta : ν} {existing : Record ν} {e : Expression ν}
    (hexisting : RecordStore.find? w.store reaction.derived.name container = some existing)
    (he : Absorbs reaction container delta w e) :
    start (reaction.absorb config container delta) w = start (do return some (← reaction.writeBack config
      container (some existing) existing e)) w := by
  unfold Absorbs recordedExpression? at he
  rw [hexisting] at he
  rw [absorb, start_bind, readStore_eq_ok.mpr ⟨hexisting, rfl⟩]
  dsimp only
  cases hpolicy : reaction.policy with
  | incremental =>
    rw [hpolicy] at he
    obtain ⟨current, hcurrent, hdelta, hshifted⟩ := he
    change existing.expression? = some current at hcurrent
    dsimp only
    rw [hcurrent]
    dsimp only
    rw [if_neg (ne_true_of_eq_false hdelta), start_bind, ofExpression_eq_ok.mpr ⟨hshifted, rfl⟩]
  | recompute formula inputs =>
    rw [hpolicy] at he
    dsimp only
    rw [start_bind, recomputed_eq_ok.mpr ⟨he, rfl⟩]

lemma start_run_of_yields {trigger : Trigger ν} {source : Record ν} {e : Expression ν}
    (hsource : trigger.source? reaction.derived w.store = some source) (he : Yields reaction w e trigger) :
    start (reaction.run config trigger) w = start (do return some (← reaction.writeBack config trigger.container
      (RecordStore.find? w.store reaction.derived.name trigger.container) source e)) w := by
  have hnew {a : Attribute} {id : EntityId} {new : Expression ν}
      (hfind : RecordStore.find? w.store a.name id = some source)
      (hrecorded : recordedExpression? w.store a id = some new) : source.expression? = some new := by
    rwa [recordedExpression?, hfind] at hrecorded
  cases trigger with
  | change c =>
    obtain ⟨new, hrecorded, hadds⟩ := he
    exact start_propagate_of_adds hsource (hnew hsource hrecorded) hadds
  | changes c count =>
    obtain ⟨hcount, new, hrecorded, hadds⟩ := he
    rw [run, handleMultiple, if_neg (Nat.not_lt.mpr hcount)]
    exact start_propagate_of_adds hsource (hnew hsource hrecorded) hadds
  | difference container delta =>
    change RecordStore.find? w.store reaction.derived.name container = some source at hsource
    change start (reaction.absorb config container delta) w = _
    rw [start_absorb_of_absorbs hsource he, ← hsource]
    rfl

end Listing

/-- If one trial is no finite number, be it the first, the last or any other, neither is the mean of the estimate. The
trials are not taken for samples then, and each reaction that has the expression to write fails and writes nothing. -/
theorem bad_trial_is_refused {ν : Type} [Number ν] [LawfulOverflow ν] [LawfulQuotient ν] {e : Expression ν}
    {config : Sampling} {v : ν} (hsampled : e.exactMoments? = none) (hv : v ∈ e.trials config)
    (hbad : Number.isFinite v = false) :
    Number.isFinite (e.estimate config).mean = false ∧
      e.materialize config =
        .error (.invalidResult (.draws ((e.trials config).countP fun v => !Number.isFinite v) config.samples)) ∧
      ∀ (calls : List (StoreCall ν)) (m : Registry ν) (supply : IdSupply) (reaction : Reaction) (trigger : Trigger ν)
        (source : Record ν),
        let w : Workspace (Store ν) ν := ⟨(StoreCall.performAll calls Store.empty).2, m, supply⟩
        trigger.source? reaction.derived w.store = some source → Yields reaction w.plain e trigger →
          start (reaction.run config trigger) w = (.error (.expression (.invalidResult
            (.estimate reaction.derived trigger.container (e.estimate config).mean))), w) := by
  have hspoilt : Number.isFinite (e.estimate config).mean = false := by
    refine eq_false_of_ne_true fun h => ?_
    cases hbad.symm.trans (Expression.isFinite_of_estimate h v hv)
  refine ⟨hspoilt, Expression.materialize_of_not_isFinite hv hbad, ?_⟩
  intro calls m supply reaction trigger source w hsource hyields
  have hs : w.store.Sound := (Stands.empty.performAll calls).2.sound
  have hmean : e.mean config = (e.estimate config).mean := by
    rw [Expression.mean, Expression.moments, hsampled]
  have hplain : start (reaction.run config trigger) w.plain = (.error (.expression (.invalidResult
      (.estimate reaction.derived trigger.container (e.estimate config).mean))), w.plain) := by
    rw [← source?_plain hs] at hsource
    rw [start_run_of_yields hsource hyields, writeBack, hmean, if_neg (ne_true_of_eq_false hspoilt)]
    rfl
  have hfailed := (congrArg Prod.fst (start_run_plain hs reaction config trigger).1).symm
  rw [hplain] at hfailed
  exact Prod.ext hfailed (run_spares_refused reaction config trigger w ⟨_, hfailed⟩)

def uncountedLink : Expression Float := .binary .div (.literal 1) (.distribution (.sampled [0, 4]))

theorem uncountedLink_is_refused :
    let e : Expression Float := .binary .sub (.binary .add (.literal 0) uncountedLink) (.literal 4)
    let link := derivedRecord .crossLinkMass ⟨1⟩ default ⟨0, 1⟩ uncountedLink
    let s := (StoreCall.performAll [.insert link] (Store.empty : Store Float)).2
    let w : Workspace (Store Float) Float := ⟨s, ⟨#[Entity.new .damperSystem none]⟩, ⟨0⟩⟩
    let trigger : Trigger Float := .change ⟨.crossLinkMass, 4, 4, ⟨1⟩, ⟨0⟩⟩
    (e.trials ⟨3, 1⟩).map Number.isFinite = [true, false, true] ∧ Number.isFinite (e.estimate ⟨3, 1⟩).mean = false ∧
      e.materialize ⟨3, 1⟩ = .error (.invalidResult (.draws 1 3)) ∧
        start (totalMass.run ⟨3, 1⟩ trigger) w = (.error (.expression (.invalidResult
          (.estimate .totalMass ⟨0⟩ (e.estimate ⟨3, 1⟩).mean))), w) := by
  intro e link s w trigger
  have htrials : (e.trials ⟨3, 1⟩).map Number.isFinite = [true, false, true] := by decide +kernel
  have hsampled : e.exactMoments? = none := rfl
  obtain ⟨v, hv, hbad⟩ : ∃ v ∈ e.trials ⟨3, 1⟩, Number.isFinite v = false :=
    List.mem_map.mp (htrials ▸ by decide : false ∈ (e.trials ⟨3, 1⟩).map Number.isFinite)
  obtain ⟨hmean, hmaterialize, hrefused⟩ := bad_trial_is_refused hsampled hv hbad
  have hcount : ((e.trials ⟨3, 1⟩).countP fun v => !Number.isFinite v) = 1 := by decide +kernel
  have hsource : trigger.source? totalMass.derived w.store = some link := rfl
  have hbase : (Value.scalar (0 : Float)).IsFinite := by
    rintro x ⟨⟩
    decide +kernel
  have hnew : (Value.expression uncountedLink).IsFinite := by
    rintro x ⟨⟩
  have hold : (Value.scalar (4 : Float)).IsFinite := by
    rintro x ⟨⟩
    decide +kernel
  have hyields : Yields totalMass w.plain e trigger :=
    ⟨uncountedLink, rfl, .scalar 0, ⟨0, rfl, rfl⟩, (incremental_once hbase hnew hold).trans rfl⟩
  rw [hcount] at hmaterialize
  exact ⟨htrials, hmean, hmaterialize, hrefused [.insert link] w.model ⟨0⟩ totalMass trigger link hsource hyields⟩

end Reaction

end Uncertainty
