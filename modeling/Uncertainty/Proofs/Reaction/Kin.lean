import Uncertainty.Proofs.Model.Sharing
import Uncertainty.Proofs.Reaction.Restraint
import Uncertainty.Proofs.Store.Renaming

namespace Uncertainty

open Attempt Workspace

variable {σ τ ν α β : Type}

/-- Workspaces side by side. They have the entities of the zone in common and find corresponding records for them; a
derived record of an entity of the zone can be saved in both, and a value of it be set. The index of `works` says how
many ids can still be drawn from both. -/
structure Kin (σ τ ν : Type) [RecordStore σ ν] [RecordStore τ ν] where
  rename : RecordId → RecordId
  zone : EntityId → Prop
  fails : Error ν → Error ν → Prop
  works : Nat → Workspace σ ν → Workspace τ ν → Prop
  spare : ∀ {k w w'}, works (k + 1) w w' → works k w w'
  fails_refl : ∀ {e : Error ν}, (∀ f, e.rename f = e) → fails e e
  shares : ∀ {k w w'}, works k w w' → w.model.Shares zone w'.model
  find? : ∀ {k w w' id}, works k w w' → zone id → ∀ name,
    RecordStore.find? w'.store name id = (RecordStore.find? w.store name id).map (Record.rename rename)
  save : ∀ {w w' container existing} {derived : Attribute}, zone container →
    RecordStore.find? w.store derived.name container = existing → ∀ template e,
      SimAt works fails (existing.elim 1 fun _ => 0) (fun r r' => r' = r.rename rename)
        (Reaction.saveExpression derived container existing template e)
        (Reaction.saveExpression derived container (existing.map (Record.rename rename)) (template.rename rename) e) w w'
  set : ∀ {id}, zone id → ∀ a v, Sim works fails 0 Eq (writeModel (·.set id a v)) (writeModel (·.set id a v))

namespace Kin

variable [RecordStore σ ν] [RecordStore τ ν] (K : Kin σ τ ν)

instance : Attempt.Sparing K.works where
  spare h := K.spare h

abbrev Same (k : Nat) (A : α → β → Prop) (work : Work σ ν α) (work' : Work τ ν β) : Prop :=
  Sim K.works K.fails k A work work'

abbrev SameAt (k : Nat) (A : α → β → Prop) (work : Work σ ν α) (work' : Work τ ν β) (w : Workspace σ ν)
    (w' : Workspace τ ν) : Prop :=
  SimAt K.works K.fails k A work work' w w'

variable {K}

namespace Same

lemma ofExpression (x : Except (ExpressionError ν) α) :
    K.Same 0 Eq (Workspace.ofExpression x) (Workspace.ofExpression x) :=
  Sim.lift ((Alike.refl (fun _ => rfl) x).mapError fun _ _ h => h ▸ K.fails_refl fun _ => rfl)

lemma readModel {f : Registry ν → Except ModelError α}
    (hf : ∀ {m m' : Registry ν}, m.Shares K.zone m' → f m' = f m) :
    K.Same 0 Eq (Workspace.readModel f) (Workspace.readModel f) := by
  apply Sim.look
  intro j w w' h
  rw [hf (K.shares h)]
  exact (Alike.refl (fun _ => rfl) _).mapError fun _ _ h => h ▸ K.fails_refl fun _ => rfl

lemma readEntity {γ : Type} {f : Registry ν → Except ModelError γ} {P : γ → Prop}
    (hf : ∀ {m m' : Registry ν}, m.Shares K.zone m' → f m' = f m ∧ ∀ a, f m = .ok a → P a) :
    K.Same 0 (fun a b => b = a ∧ P a) (Workspace.readModel f) (Workspace.readModel f) := by
  apply Sim.look
  intro j w w' h
  obtain ⟨hsame, hP⟩ := hf (K.shares h)
  rw [hsame]
  cases hfm : f w.model with
  | error e => exact .error (K.fails_refl fun _ => rfl)
  | ok a => exact .ok ⟨rfl, hP a hfm⟩

lemma get {id : EntityId} (hz : K.zone id) (a : Attribute) :
    K.Same 0 Eq (Workspace.readModel (·.get id a)) (Workspace.readModel (·.get id a)) :=
  readModel fun h => h.get hz a

lemma find? {id : EntityId} (hz : K.zone id) (name : String) :
    K.Same 0 (fun r r' => r' = r.map (Record.rename K.rename)) (readStore (RecordStore.find? · name id))
      (readStore (RecordStore.find? · name id)) :=
  fun _ _ _ h => ⟨.ok (K.find? h hz name), h⟩

lemma recordedValue {id : EntityId} (hz : K.zone id) (a : Attribute) (recorded : Option (Record ν)) :
    K.Same 0 Eq (Reaction.recordedValue (σ := σ) a id recorded)
      (Reaction.recordedValue a id (recorded.map (Record.rename K.rename))) := by
  have hr : (recorded.map (Record.rename K.rename)).bind (·.expression?) = recorded.bind (·.expression?) := by
    cases recorded <;> rfl
  rw [Reaction.recordedValue, Reaction.recordedValue]
  rw [hr]
  cases recorded.bind (·.expression?) with
  | some e => exact .done rfl
  | none =>
    apply (get hz a).before
    rintro v _ rfl
    exact .done rfl

lemma currentValue {container : EntityId} (hz : K.zone container) (a : Attribute) :
    K.Same 0 Eq (Reaction.currentValue container a) (Reaction.currentValue container a) := by
  rw [Reaction.currentValue]
  refine (readEntity (P := fun holder => ∀ i, holder = some i → K.zone i) fun h => ⟨?_, ?_⟩).before ?_
  · exact h.sameBut.findHolder container a
  · rintro _ hfound i rfl
    exact h.zone_of_findHolder hz hfound
  rintro _ holder ⟨rfl, hholder⟩
  cases holder with
  | none =>
    apply (readModel fun h => h.sameBut.kind container).before
    rintro kind _ rfl
    exact .fails (K.fails_refl fun _ => rfl)
  | some holder =>
    apply (find? (hholder holder rfl) _).before
    rintro recorded _ rfl
    exact recordedValue (hholder holder rfl) a recorded

lemma bindInputs {container : EntityId} (hz : K.zone container) (inputs : List Input) (env : Environment ν) :
    K.Same 0 Eq (Reaction.bindInputs container inputs env) (Reaction.bindInputs container inputs env) := by
  induction inputs generalizing env with
  | nil => exact .done rfl
  | cons input rest ih =>
    rw [Reaction.bindInputs]
    apply (currentValue hz input.source).bind
    rintro value _ rfl
    exact ih (env.bind input.name value)

variable [Number ν]

lemma recomputed {container : EntityId} (hz : K.zone container) (formula : String) (inputs : List Input) :
    K.Same 0 Eq (Reaction.recomputed container formula inputs) (Reaction.recomputed container formula inputs) := by
  rw [Reaction.recomputed]
  apply (bindInputs hz inputs _).bind
  rintro env _ rfl
  apply (ofExpression _).bind
  rintro value _ rfl
  exact .done rfl

lemma derivedExpression {change : Change ν} (hz : K.zone change.container) (reaction : Reaction) (count : Nat)
    (existing : Option (Record ν)) (new : Expression ν) :
    K.Same 0 Eq (reaction.derivedExpression change count existing new)
      (reaction.derivedExpression change count (existing.map (Record.rename K.rename)) new) := by
  rw [Reaction.derivedExpression, Reaction.derivedExpression]
  cases reaction.policy with
  | incremental =>
    apply (recordedValue hz reaction.derived existing).bind
    rintro base _ rfl
    exact ofExpression _
  | recompute formula inputs => exact recomputed hz formula inputs

variable (reaction : Reaction) {config : Sampling}

lemma writeBack {container : EntityId} (hz : K.zone container) {existing : Option (Record ν)} {w : Workspace σ ν} {w' : Workspace τ ν}
    (hfind : RecordStore.find? w.store reaction.derived.name container = existing) (template : Record ν)
    (e : Expression ν) :
    K.SameAt (existing.elim 1 fun _ => 0) (fun r r' => r' = r.rename K.rename)
      (reaction.writeBack config container existing template e)
      (reaction.writeBack config container (existing.map (Record.rename K.rename)) (template.rename K.rename) e) w w' := by
  rw [Reaction.writeBack, Reaction.writeBack]
  by_cases hf : Number.isFinite (e.mean config) = true
  · rw [if_pos hf, if_pos hf]
    refine (get hz reaction.derived).reading (readModel_reads _) (readModel_reads _) ?_
    rintro _ _ - - -
    refine (K.save hz hfind template e).bind ?_
    rintro r _ rfl
    apply (K.set hz _ _).bind
    rintro _ _ rfl
    exact .done rfl
  · rw [if_neg hf, if_neg hf]
    exact .fails (K.fails_refl fun _ => rfl)

variable {change : Change ν} (haffected : K.zone change.affected) (hz : K.zone change.container)
include haffected hz

lemma propagate (count : Nat) :
    K.Same 1 (fun r r' => r' = r.map (Record.rename K.rename)) (reaction.propagate config change count)
      (reaction.propagate config change count) := by
  refine SimAt.sim fun w w' => ?_
  rw [Reaction.propagate]
  apply (find? haffected _).reading (readStore_reads _) (readStore_reads _)
  rintro source _ rfl - -
  cases source with
  | none => exact .done rfl
  | some source =>
    simp only [Option.map_some, Record.rename_expression?]
    cases source.expression? with
    | none => exact .done rfl
    | some new =>
      apply (find? hz _).reading (readStore_reads _) (readStore_reads _)
      rintro existing _ rfl hexisting -
      have hfind : RecordStore.find? w.store reaction.derived.name change.container = existing :=
        Except.ok.inj (congrArg Prod.fst hexisting)
      apply (derivedExpression hz reaction count existing new).reading (Reaction.derivedExpression_reads _ _ _ _ _)
        (Reaction.derivedExpression_reads _ _ _ _ _)
      rintro e _ rfl - -
      have hle : existing.elim 1 (fun _ => 0) ≤ 1 := by cases existing <;> simp
      apply ((writeBack reaction hz hfind source e).spare hle).bind
      rintro r _ rfl
      exact .done rfl

lemma handleMultiple (count : Nat) :
    K.Same 1 (fun r r' => r' = r.map (Record.rename K.rename)) (reaction.handleMultiple config change count)
      (reaction.handleMultiple config change count) := by
  rw [Reaction.handleMultiple, Reaction.handleMultiple]
  by_cases hc : maxRepeatedTerms < count
  · rw [if_pos hc, if_pos hc]
    exact .fails (K.fails_refl fun _ => rfl)
  · rw [if_neg hc, if_neg hc]
    exact propagate reaction haffected hz count

omit haffected

lemma absorb (delta : ν) :
    K.Same 0 (fun r r' => r' = r.map (Record.rename K.rename)) (reaction.absorb config change.container delta)
      (reaction.absorb config change.container delta) := by
  refine SimAt.sim fun w w' => ?_
  rw [Reaction.absorb]
  apply (find? hz _).reading (readStore_reads _) (readStore_reads _)
  rintro existing _ rfl hexisting -
  have hfind : RecordStore.find? w.store reaction.derived.name change.container = existing :=
    Except.ok.inj (congrArg Prod.fst hexisting)
  cases existing with
  | none => exact .done rfl
  | some existing =>
    -- A record that is there is rewritten, so no id is drawn.
    have hwrite : ∀ e, K.SameAt 0 (fun r r' => r' = r.map (Record.rename K.rename))
        (do return some (← reaction.writeBack config change.container (some existing) existing e))
        (do return some (← reaction.writeBack config change.container (some (existing.rename K.rename))
          (existing.rename K.rename) e)) w w' := by
      intro e
      apply (writeBack reaction hz hfind existing e).bind
      rintro r _ rfl
      exact .done rfl
    cases reaction.policy with
    | incremental =>
      simp only [Option.map_some, Record.rename_expression?]
      cases existing.expression? with
      | none => exact .done rfl
      | some current =>
        by_cases hdelta : (delta == Number.zero) = true
        · simp only [hdelta, if_true]
          exact .done rfl
        · simp only [hdelta, Bool.false_eq_true, if_false]
          apply (ofExpression _).reading (ofExpression_reads _) (ofExpression_reads _)
          rintro e _ rfl - -
          exact hwrite e
    | recompute formula inputs =>
      apply (recomputed hz formula inputs).reading (Reaction.recomputed_reads _ _ _) (Reaction.recomputed_reads _ _ _)
      rintro e _ rfl - -
      exact hwrite e

end Same

end Kin

end Uncertainty
