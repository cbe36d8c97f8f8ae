import Uncertainty.Engine.Session
import Uncertainty.Proofs.Reaction.Kin

namespace Uncertainty

variable {σ τ ν α β : Type}

namespace Kin

variable [RecordStore σ ν] [RecordStore τ ν] (K : Kin σ τ ν)

structure Passes (past past' : List (HistoryEntry ν)) (k : Nat) (p : Pass σ ν) (p' : Pass τ ν) : Prop where
  work : K.works k p.work p'.work
  updated : p'.updated = p.updated.map (Record.rename K.rename)
  history : ∃ news, p.history = past ++ news ∧ p'.history = past' ++ news.map (HistoryEntry.rename K.rename)

variable {past past' : List (HistoryEntry ν)}

instance : Attempt.Sparing (K.Passes past past') where
  spare h := ⟨K.spare h.work, h.updated, h.history⟩

abbrev Step (past past' : List (HistoryEntry ν)) (k : Nat) (A : α → β → Prop) (work : Pass.Work σ ν α)
    (work' : Pass.Work τ ν β) : Prop :=
  Attempt.Sim (K.Passes past past') K.fails k A work work'

variable {K}

namespace Step

lemma onWorkspace {k : Nat} {A : α → β → Prop} {work : Workspace.Work σ ν α} {work' : Workspace.Work τ ν β}
    (h : K.Same k A work work') : K.Step past past' k A (Pass.onWorkspace work) (Pass.onWorkspace work') := by
  intro j p p' hp
  obtain ⟨hresult, hwork⟩ := h j p.work p'.work hp.work
  rw [Pass.onWorkspace, Pass.onWorkspace, Attempt.start_zoom, Attempt.start_zoom]
  exact ⟨hresult, hwork, hp.updated, hp.history⟩

lemma readModel {f : Registry ν → Except ModelError α}
    (hf : ∀ {m m' : Registry ν}, m.Shares K.zone m' → f m' = f m) :
    K.Step past past' 0 Eq (Pass.readModel f) (Pass.readModel f) :=
  onWorkspace (Same.readModel hf)

lemma setValue {id : EntityId} (hz : K.zone id) (a : Attribute) (v : ν) :
    K.Step past past' 0 Eq (Pass.setValue id a v) (Pass.setValue id a v) :=
  onWorkspace (K.set hz a v)

section Changes

variable {config : Config} (change : Change ν) (hz : K.zone change.container)

section Log

include hz

lemma remember (rule : Rule) (source : Option RecordId) (derived : Attribute) (r : Record ν) :
    K.Step past past' 0 Eq (Pass.remember config rule change source derived r)
      (Pass.remember config rule change (source.map K.rename) derived (r.rename K.rename)) := by
  rw [Pass.remember, Pass.remember]
  by_cases hh : config.recordHistory = true
  · rw [if_pos hh, if_pos hh]
    apply (readModel fun h => h.get hz derived).before
    rintro mean _ rfl
    apply Attempt.Sim.modifies
    rintro j p p' ⟨hwork, hupdated, news, hp, hp'⟩
    refine ⟨hwork, hupdated, news ++ [⟨rule, change.parameter, source, r.id, r.expression?, mean⟩], ?_, ?_⟩
    · simp only [hp, List.append_assoc]
    · rw [hp', List.map_append, ← List.append_assoc]
      rfl
  · rw [if_neg hh, if_neg hh]
    exact .done rfl

lemma log (rule : Rule) (source : Option RecordId) (derived : Attribute) (r : Record ν) :
    K.Step past past' 0 Eq (Pass.log config rule change source derived r)
      (Pass.log config rule change (source.map K.rename) derived (r.rename K.rename)) := by
  rw [Pass.log]
  apply (remember change hz rule source derived r).bind
  rintro _ _ rfl
  apply Attempt.Sim.modifies
  rintro j p p' ⟨hwork, hupdated, hhistory⟩
  exact ⟨hwork, by simp only [hupdated, List.map_append, List.map_cons, List.map_nil], hhistory⟩

end Log

section Source

variable (haffected : K.zone change.affected)
include haffected

lemma sourceRecord :
    K.Step past past' 0 (fun id id' => id' = id.map K.rename) (Pass.sourceRecord change) (Pass.sourceRecord change) := by
  rw [Pass.sourceRecord]
  apply (onWorkspace (Same.find? haffected _)).bind
  rintro found _ rfl
  exact .done (by cases found <;> rfl)

variable [Number ν]

lemma itemsOf : K.Step past past' 0 Eq (Pass.itemsOf change) (Pass.itemsOf change) := by
  rw [Pass.itemsOf, Pass.itemsOf]
  by_cases hc : change.parameter.isCount = true
  · rw [if_pos hc, if_pos hc]
    exact .done rfl
  · rw [if_neg hc, if_neg hc]
    exact readModel fun h => h.multiplicity haffected change.parameter

include hz

lemma carryOver (reaction : Reaction) (count : Nat) :
    K.Step past past' 1 (fun r r' => r' = r.map (Record.rename K.rename)) (Pass.carryOver config reaction change count)
      (Pass.carryOver config reaction change count) := by
  match count with
  | 0 => exact .done rfl
  | 1 => exact onWorkspace (Same.propagate reaction haffected hz 1)
  | n + 2 => exact onWorkspace (Same.handleMultiple reaction haffected hz (n + 2))

lemma propagateMass (reaction : Reaction) (delta : ν) :
    K.Step past past' 1 Eq (Pass.propagateMass config reaction change delta)
      (Pass.propagateMass config reaction change delta) := by
  rw [Pass.propagateMass]
  apply (itemsOf change haffected).before
  rintro count _ rfl
  apply (carryOver change hz haffected reaction count).bind
  rintro carried _ rfl
  cases carried with
  | some r =>
    apply (sourceRecord change haffected).bind
    rintro source _ rfl
    exact log change hz _ source reaction.derived r
  | none =>
    apply (onWorkspace (Same.absorb reaction hz delta)).bind
    rintro absorbed _ rfl
    cases absorbed with
    | some r => exact log change hz .crispAdjustment none reaction.derived r
    | none =>
      apply (readModel fun h => h.get hz reaction.derived).bind
      rintro current _ rfl
      apply (setValue hz reaction.derived (current + delta)).bind
      rintro _ _ rfl
      exact .done rfl

lemma propagateDamping :
    K.Step past past' 1 Eq (Pass.propagateDamping config change) (Pass.propagateDamping config change) := by
  rw [Pass.propagateDamping]
  apply (readModel fun h => h.dampingRatio? hz).before
  rintro ratio _ rfl
  cases ratio with
  | none => exact .done rfl
  | some ratio =>
    apply (onWorkspace (Same.propagate .dampingRatio haffected hz 1)).bind
    rintro carried _ rfl
    cases carried with
    | some r =>
      apply (sourceRecord change haffected).bind
      rintro source _ rfl
      exact log change hz .recompute source _ r
    | none =>
      apply (onWorkspace (Same.absorb .dampingRatio hz Number.zero)).bind
      rintro absorbed _ rfl
      cases absorbed with
      | some r => exact log change hz .crispAdjustment none _ r
      | none =>
        apply (setValue hz .dampingRatio ratio).bind
        rintro _ _ rfl
        exact .done rfl

lemma propagateWeight (delta : ν) :
    K.Step past past' 1 Eq (Pass.propagateWeight config change delta) (Pass.propagateWeight config change delta) := by
  rw [Pass.propagateWeight, Pass.propagateWeight]
  by_cases hw : config.propagateWeight = true
  · rw [if_pos hw, if_pos hw]
    exact propagateMass change hz haffected .totalWeight delta
  · rw [if_neg hw, if_neg hw]
    exact .done rfl

lemma propagateTotals (delta : ν) :
    K.Step past past' 3 Eq (Pass.propagateTotals config change delta) (Pass.propagateTotals config change delta) := by
  rw [Pass.propagateTotals]
  apply (readModel fun h => h.get hz .totalMass).before
  rintro before _ rfl
  change K.Step past past' (1 + (1 + 1)) Eq _ _
  apply (propagateMass change hz haffected .totalMass delta).add
  rintro _ _ rfl
  apply (propagateWeight change hz haffected delta).add
  rintro _ _ rfl
  apply (readModel fun h => h.get hz .totalMass).before
  rintro after _ rfl
  by_cases h : (after == before) = true
  · simp only [h, if_true]
    exact .done rfl
  · simp only [h, Bool.false_eq_true, if_false]
    exact propagateDamping ⟨.totalMass, before, after, change.container, change.container⟩ hz hz

lemma propagateInput :
    K.Step past past' 1 Eq (Pass.propagateInput config change) (Pass.propagateInput config change) := by
  rw [Pass.propagateInput, Pass.propagateInput]
  by_cases h : change.parameter.isDampingInput = true
  · rw [if_pos h, if_pos h]
    exact propagateDamping change hz haffected
  · rw [if_neg h, if_neg h]
    exact .done rfl

end Source

end Changes

variable [Number ν] {id : EntityId}

lemma writeMass (config : Config) {system : EntityId} (hsystem : K.zone system) (hz : K.zone id) (a : Attribute) (v : ν) :
    K.Step past past' 3 Eq (Pass.writeMass config system id a v) (Pass.writeMass config system id a v) := by
  rw [Pass.writeMass]
  apply (readModel fun h => h.totalMass hsystem).before
  rintro before _ rfl
  apply (setValue hz a v).before
  rintro old _ rfl
  apply (readModel fun h => h.totalMass hsystem).before
  rintro after _ rfl
  apply (propagateTotals ⟨a, old, v, id, system⟩ hsystem hz _).bind
  rintro _ _ rfl
  exact .done rfl

lemma write (config : Config) (id : EntityId) (hz : K.zone id) (a : Attribute) (v : ν) :
    K.Step past past' 3 Eq (Pass.write config id a v) (Pass.write config id a v) := by
  rw [Pass.write]
  apply (onWorkspace (Same.readEntity fun h => ⟨h.sameBut.rootOf id, fun _ hroot => h.zone_of_rootOf hz hroot⟩)).before
  rintro _ system ⟨rfl, hsystem⟩
  by_cases h : (a.isMass || a.isCount) = true
  · rw [if_pos h, if_pos h]
    exact writeMass config hsystem hz a v
  · rw [if_neg h, if_neg h]
    apply (setValue hz a v).before
    rintro old _ rfl
    apply ((propagateInput ⟨a, old, v, id, system⟩ hsystem hz).spare (by omega)).bind
    rintro _ _ rfl
    exact .done rfl

end Step

end Kin

end Uncertainty
