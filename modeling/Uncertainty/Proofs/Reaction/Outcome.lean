import Mathlib.Data.List.Forall2
import Uncertainty.Proofs.Attempt
import Uncertainty.Proofs.Model.Registry
import Uncertainty.Reaction.Trigger
import Uncertainty.Store.Listing

namespace Uncertainty

open Attempt

variable {ν : Type}

def recordedExpression? {σ : Type} [RecordStore σ ν] (s : σ) (a : Attribute) (id : EntityId) : Option (Expression ν) :=
  (RecordStore.find? s a.name id).bind (·.expression?)

lemma eq_ok_of_toOption_bind {ε α : Type} {x : Except ε (Option α)} {a : α} (h : x.toOption.bind id = some a) :
    x = .ok (some a) := by
  cases x with
  | error e => cases h
  | ok o => exact congrArg Except.ok h

namespace Workspace

variable {σ α : Type} {w w' : Workspace σ ν}

lemma readModel_eq_ok {f : Registry ν → Except ModelError α} {a : α} :
    start (Workspace.readModel f : Work σ ν α) w = (.ok a, w') ↔ f w.model = .ok a ∧ w' = w := by
  rw [Workspace.readModel, start_look]
  cases f w.model with
  | error e => simp [Except.mapError]
  | ok b => simp [Except.mapError, eq_comm]

lemma readStore_eq_ok {f : σ → α} {a : α} :
    start (Workspace.readStore f : Work σ ν α) w = (.ok a, w') ↔ f w.store = a ∧ w' = w := by
  change (Except.ok (f w.store), w) = _ ↔ _
  simp [eq_comm]

lemma writeModel_eq_ok {f : Registry ν → Except ModelError (α × Registry ν)} {a : α} :
    start (Workspace.writeModel f : Work σ ν α) w = (.ok a, w') ↔
      f w.model = .ok (a, w'.model) ∧ w' = { w with model := w'.model } := by
  rw [Workspace.writeModel, start_step]
  cases f w.model with
  | error e => simp
  | ok b =>
    obtain ⟨b, m⟩ := b
    constructor
    · rintro ⟨⟩
      exact ⟨rfl, rfl⟩
    · rintro ⟨⟨⟩, hw⟩
      rw [hw]

lemma writeStore_eq_ok {f : σ → Except StoreError σ} {u : Unit} :
    start (Workspace.writeStore f : Work σ ν Unit) w = (.ok u, w') ↔
      f w.store = .ok w'.store ∧ w' = { w with store := w'.store } := by
  rw [Workspace.writeStore, start_step]
  cases f w.store with
  | error e => simp
  | ok s =>
    constructor
    · rintro ⟨⟩
      exact ⟨rfl, rfl⟩
    · rintro ⟨⟨⟩, hw⟩
      rw [hw]

lemma ofExpression_eq_ok {x : Except (ExpressionError ν) α} {a : α} :
    start (ofExpression x : Work σ ν α) w = (.ok a, w') ↔ x = .ok a ∧ w' = w := by
  rw [ofExpression, start_liftM]
  cases x with
  | error e => simp [Except.mapError]
  | ok b => simp [Except.mapError, eq_comm]

lemma freshId_eq_ok {id : RecordId} :
    start (freshId : Work σ ν RecordId) w = (.ok id, w') ↔
      id = w.supply.fresh ∧ w' = { w with supply := w.supply.next } := by
  change (Except.ok w.supply.fresh, { w with supply := w.supply.next }) = _ ↔ _
  simp [eq_comm]

end Workspace

namespace Reaction

open Workspace

def Saves {σ : Type} [RecordStore σ ν] (derived : Attribute) (container : EntityId) (existing : Option (Record ν))
    (template : Record ν) (e : Expression ν) (r : Record ν) (w w' : Workspace σ ν) : Prop :=
  match existing with
  | some old => r = old.withExpression e ∧ RecordStore.update r w.store = .ok w'.store ∧ w'.supply = w.supply
  | none => r = derivedRecord derived container template w.supply.fresh e ∧
      RecordStore.insert r w.store = .ok w'.store ∧ w'.supply = w.supply.next

lemma saveExpression_eq_ok {σ : Type} [RecordStore σ ν] {w w' : Workspace σ ν} {derived : Attribute}
    {container : EntityId} {existing : Option (Record ν)} {template r : Record ν} {e : Expression ν} :
    start (saveExpression derived container existing template e) w = (.ok r, w') ↔
      Saves derived container existing template e r w w' ∧ w'.model = w.model := by
  obtain ⟨s, m, supply⟩ := w
  obtain ⟨s', m', supply'⟩ := w'
  unfold saveExpression Saves
  cases existing with
  | some old =>
    simp only [start_bind_eq_ok, writeStore_eq_ok, start_pure_eq_ok]
    constructor
    · rintro ⟨_, _, ⟨hupdate, hw⟩, rfl, rfl⟩
      cases hw
      exact ⟨⟨rfl, hupdate, rfl⟩, rfl⟩
    · rintro ⟨⟨rfl, hupdate, rfl⟩, rfl⟩
      exact ⟨(), _, ⟨hupdate, rfl⟩, rfl, rfl⟩
  | none =>
    simp only [start_bind_eq_ok, freshId_eq_ok, writeStore_eq_ok, start_pure_eq_ok]
    constructor
    · rintro ⟨_, _, ⟨rfl, rfl⟩, _, _, ⟨hinsert, hw⟩, rfl, rfl⟩
      cases hw
      exact ⟨⟨rfl, hinsert, rfl⟩, rfl⟩
    · rintro ⟨⟨rfl, hinsert, rfl⟩, rfl⟩
      exact ⟨_, _, ⟨rfl, rfl⟩, (), _, ⟨hinsert, rfl⟩, rfl, rfl⟩

variable {w w' : Workspace (Listing ν) ν}

def IsValueOf (m : Registry ν) (a : Attribute) (id : EntityId) (e : Option (Expression ν)) (v : Value ν) : Prop :=
  match e with
  | some e => v = .expression e
  | none => ∃ x, m.get id a = .ok x ∧ v = .scalar x

lemma recordedValue_eq_ok {σ : Type} {w w' : Workspace σ ν} {a : Attribute} {id : EntityId}
    {recorded : Option (Record ν)} {v : Value ν} :
    start (recordedValue a id recorded) w = (.ok v, w') ↔
      IsValueOf w.model a id (recorded.bind (·.expression?)) v ∧ w' = w := by
  rw [recordedValue]
  cases recorded.bind (·.expression?) with
  | some e => simp [IsValueOf, eq_comm]
  | none =>
    simp only [start_bind_eq_ok, readModel_eq_ok, start_pure_eq_ok, IsValueOf]
    constructor
    · rintro ⟨x, _, ⟨hx, rfl⟩, rfl, rfl⟩
      exact ⟨⟨x, hx, rfl⟩, rfl⟩
    · rintro ⟨⟨x, hx, rfl⟩, rfl⟩
      exact ⟨x, _, ⟨hx, rfl⟩, rfl, rfl⟩

/-- What is known of an attribute in a container: what is recorded for its first holder, or else the value in the
model. -/
def IsKnown (w : Workspace (Listing ν) ν) (container : EntityId) (a : Attribute) (v : Value ν) : Prop :=
  ∃ holder, w.model.findHolder container a = .ok (some holder) ∧
    IsValueOf w.model a holder (recordedExpression? w.store a holder) v

lemma currentValue_eq_ok {container : EntityId} {a : Attribute} {v : Value ν} :
    start (currentValue container a) w = (.ok v, w') ↔ IsKnown w container a v ∧ w' = w := by
  rw [currentValue]
  simp only [start_bind_eq_ok, readModel_eq_ok]
  constructor
  · rintro ⟨o, _, ⟨ho, rfl⟩, h⟩
    cases o with
    | none => simp [start_bind_eq_ok] at h
    | some holder =>
      simp only [start_bind_eq_ok, readStore_eq_ok, recordedValue_eq_ok] at h
      obtain ⟨_, _, ⟨rfl, rfl⟩, hv, rfl⟩ := h
      exact ⟨⟨holder, ho, hv⟩, rfl⟩
  · rintro ⟨⟨holder, hholder, hv⟩, rfl⟩
    refine ⟨some holder, _, ⟨hholder, rfl⟩, ?_⟩
    simp only [start_bind_eq_ok, readStore_eq_ok, recordedValue_eq_ok]
    exact ⟨_, _, ⟨rfl, rfl⟩, hv, rfl⟩

def bound (inputs : List Input) (values : List (Value ν)) (env : Environment ν) : Environment ν :=
  (inputs.zip values).foldl (fun env entry => env.bind entry.1.name entry.2) env

lemma bindInputs_eq_ok {container : EntityId} {inputs : List Input} {env env' : Environment ν} :
    start (bindInputs container inputs env) w = (.ok env', w') ↔ (∃ values,
      List.Forall₂ (fun input v => IsKnown w container input.source v) inputs values ∧ env' = bound inputs values env) ∧
        w' = w := by
  induction inputs generalizing env with
  | nil =>
    rw [bindInputs, start_pure_eq_ok]
    simp [bound, eq_comm]
  | cons input rest ih =>
    simp only [bindInputs, start_bind_eq_ok, currentValue_eq_ok, List.forall₂_cons_left_iff]
    constructor
    · rintro ⟨v, _, ⟨hv, rfl⟩, h⟩
      obtain ⟨⟨values, hvalues, rfl⟩, rfl⟩ := ih.mp h
      exact ⟨⟨_, ⟨v, values, hv, hvalues, rfl⟩, rfl⟩, rfl⟩
    · rintro ⟨⟨_, ⟨v, values, hv, hvalues, rfl⟩, rfl⟩, rfl⟩
      exact ⟨v, _, ⟨hv, rfl⟩, ih.mpr ⟨⟨values, hvalues, rfl⟩, rfl⟩⟩

variable [Number ν]

def Recomputed (w : Workspace (Listing ν) ν) (container : EntityId) (formula : String) (inputs : List Input)
    (e : Expression ν) : Prop :=
  ∃ values u, List.Forall₂ (fun input v => IsKnown w container input.source v) inputs values ∧
    (bound inputs values Environment.empty).evaluateText formula = .ok u ∧ e = u.toExpression

lemma recomputed_eq_ok {container : EntityId} {formula : String} {inputs : List Input} {e : Expression ν} :
    start (recomputed container formula inputs) w = (.ok e, w') ↔ Recomputed w container formula inputs e ∧ w' = w := by
  simp only [recomputed, start_bind_eq_ok, bindInputs_eq_ok, ofExpression_eq_ok, start_pure_eq_ok]
  constructor
  · rintro ⟨_, _, ⟨⟨values, hvalues, rfl⟩, rfl⟩, u, _, ⟨hu, rfl⟩, rfl, rfl⟩
    exact ⟨⟨values, u, hvalues, hu, rfl⟩, rfl⟩
  · rintro ⟨⟨values, u, hvalues, hu, rfl⟩, rfl⟩
    exact ⟨_, _, ⟨⟨values, hvalues, rfl⟩, rfl⟩, u, _, ⟨hu, rfl⟩, rfl, rfl⟩

def Adds (reaction : Reaction) (change : Change ν) (count : Nat) (w : Workspace (Listing ν) ν)
    (new e : Expression ν) : Prop :=
  match reaction.policy with
  | .incremental => ∃ base, IsValueOf w.model reaction.derived change.container
      (recordedExpression? w.store reaction.derived change.container) base ∧
      incremental reaction.derived base new change.old count = .ok e
  | .recompute formula inputs => Recomputed w change.container formula inputs e

def Absorbs (reaction : Reaction) (container : EntityId) (delta : ν) (w : Workspace (Listing ν) ν)
    (e : Expression ν) : Prop :=
  match reaction.policy with
  | .incremental => ∃ current, recordedExpression? w.store reaction.derived container = some current ∧
      (delta == Number.zero) = false ∧ shifted reaction.derived current delta = .ok e
  | .recompute formula inputs => Recomputed w container formula inputs e

variable {reaction : Reaction} {config : Sampling}

lemma writeBack_eq_ok {σ : Type} [RecordStore σ ν] {w w' : Workspace σ ν} {container : EntityId}
    {existing : Option (Record ν)} {template r : Record ν} {e : Expression ν} :
    start (reaction.writeBack config container existing template e) w = (.ok r, w') ↔
      Number.isFinite (e.mean config) = true ∧ Saves reaction.derived container existing template e r w w' ∧
        ∃ old, w.model.set container reaction.derived (e.mean config) = .ok (old, w'.model) := by
  rw [writeBack]
  by_cases hf : Number.isFinite (e.mean config) = true
  · simp only [hf, if_true, start_bind_eq_ok, readModel_eq_ok, saveExpression_eq_ok, writeModel_eq_ok, start_pure_eq_ok,
      true_and]
    constructor
    · rintro ⟨_, _, ⟨-, rfl⟩, _, w₁, ⟨hsaves, hmodel⟩, old, _, ⟨hset, hw⟩, rfl, rfl⟩
      rw [hw]
      exact ⟨hsaves, old, hmodel ▸ hset⟩
    · rintro ⟨hsaves, old, hset⟩
      exact ⟨old, _, ⟨Registry.get_of_set hset, rfl⟩, r, { w' with model := w.model }, ⟨hsaves, rfl⟩, old, w', ⟨hset, rfl⟩,
        rfl, rfl⟩
  · simp [hf]

section Propagating

variable {change : Change ν} {count : Nat} {r : Record ν}

lemma derivedExpression_eq_ok {new e : Expression ν} :
    start (reaction.derivedExpression change count (RecordStore.find? w.store reaction.derived.name change.container) new)
      w = (.ok e, w') ↔ Adds reaction change count w new e ∧ w' = w := by
  rw [derivedExpression, Adds]
  cases reaction.policy with
  | incremental =>
    simp only [start_bind_eq_ok, recordedValue_eq_ok, ofExpression_eq_ok, recordedExpression?]
    constructor
    · rintro ⟨base, _, ⟨hbase, rfl⟩, he, rfl⟩
      exact ⟨⟨base, hbase, he⟩, rfl⟩
    · rintro ⟨⟨base, hbase, he⟩, rfl⟩
      exact ⟨base, _, ⟨hbase, rfl⟩, he, rfl⟩
  | recompute formula inputs => exact recomputed_eq_ok

lemma propagate_eq_none : start (reaction.propagate config change count) w = (.ok none, w') ↔
    recordedExpression? w.store change.parameter change.affected = none ∧ w' = w := by
  rw [propagate, recordedExpression?]
  simp only [start_bind_eq_ok, readStore_eq_ok]
  constructor
  · rintro ⟨found, _, ⟨hfound, rfl⟩, h⟩
    rw [hfound]
    cases found with
    | none => exact ⟨rfl, (start_pure_eq_ok.mp h).2⟩
    | some source =>
      dsimp only at h
      cases hnew : source.expression? with
      | none =>
        rw [hnew] at h
        exact ⟨hnew, (start_pure_eq_ok.mp h).2⟩
      | some new =>
        rw [hnew] at h
        simp only [start_bind_eq_ok, start_pure_eq_ok, reduceCtorEq, false_and, and_false, exists_false] at h
  · rintro ⟨hnone, rfl⟩
    refine ⟨_, _, ⟨rfl, rfl⟩, ?_⟩
    cases hfound : RecordStore.find? w'.store change.parameter.name change.affected with
    | none => rfl
    | some source =>
      rw [hfound] at hnone
      change source.expression? = none at hnone
      simp [hnone]

lemma propagate_eq_some : start (reaction.propagate config change count) w = (.ok (some r), w') ↔
    ∃ source new e, RecordStore.find? w.store change.parameter.name change.affected = some source ∧
      source.expression? = some new ∧ Adds reaction change count w new e ∧
        start (reaction.writeBack config change.container
          (RecordStore.find? w.store reaction.derived.name change.container) source e) w = (.ok r, w') := by
  rw [propagate]
  simp only [start_bind_eq_ok, readStore_eq_ok]
  constructor
  · rintro ⟨found, _, ⟨hfound, rfl⟩, h⟩
    cases found with
    | none => cases h
    | some source =>
      dsimp only at h
      cases hnew : source.expression? with
      | none =>
        rw [hnew] at h
        cases h
      | some new =>
        rw [hnew] at h
        simp only [start_bind_eq_ok, readStore_eq_ok, start_pure_eq_ok] at h
        obtain ⟨_, _, ⟨rfl, rfl⟩, e, _, he, r', _, hr, ⟨⟩, rfl⟩ := h
        obtain ⟨hadds, rfl⟩ := derivedExpression_eq_ok.mp he
        exact ⟨source, new, e, hfound, hnew, hadds, hr⟩
  · rintro ⟨source, new, e, hfound, hnew, hadds, hr⟩
    refine ⟨_, _, ⟨hfound, rfl⟩, ?_⟩
    simp only [hnew, start_bind_eq_ok, readStore_eq_ok, start_pure_eq_ok]
    exact ⟨_, _, ⟨rfl, rfl⟩, e, _, derivedExpression_eq_ok.mpr ⟨hadds, rfl⟩, r, w', hr, rfl, rfl⟩

end Propagating

section Absorbing

variable {container : EntityId} {delta : ν} {r : Record ν}

lemma absorb_eq_none (h : start (reaction.absorb config container delta) w = (.ok none, w')) :
    w' = w ∧ (recordedExpression? w.store reaction.derived container = none ∨
      reaction.policy = .incremental ∧ (delta == Number.zero) = true) := by
  rw [absorb] at h
  simp only [start_bind_eq_ok, readStore_eq_ok] at h
  obtain ⟨found, _, ⟨hfound, rfl⟩, h⟩ := h
  rw [recordedExpression?, hfound]
  cases found with
  | none => exact ⟨(start_pure_eq_ok.mp h).2, .inl rfl⟩
  | some existing =>
    dsimp only at h
    cases hp : reaction.policy with
    | recompute formula inputs =>
      rw [hp] at h
      simp only [start_bind_eq_ok, start_pure_eq_ok, reduceCtorEq, false_and, and_false, exists_false] at h
    | incremental =>
      rw [hp] at h
      dsimp only at h
      cases hcurrent : existing.expression? with
      | none =>
        rw [hcurrent] at h
        exact ⟨(start_pure_eq_ok.mp h).2, .inl hcurrent⟩
      | some current =>
        rw [hcurrent] at h
        dsimp only at h
        split at h
        · exact ⟨(start_pure_eq_ok.mp h).2, .inr ⟨rfl, ‹_›⟩⟩
        · simp only [start_bind_eq_ok, start_pure_eq_ok, reduceCtorEq, false_and, and_false, exists_false] at h

lemma absorb_eq_some : start (reaction.absorb config container delta) w = (.ok (some r), w') ↔
    ∃ existing e, RecordStore.find? w.store reaction.derived.name container = some existing ∧
      Absorbs reaction container delta w e ∧
        start (reaction.writeBack config container (some existing) existing e) w = (.ok r, w') := by
  rw [absorb]
  unfold Absorbs
  simp only [start_bind_eq_ok, readStore_eq_ok, recordedExpression?]
  constructor
  · rintro ⟨found, _, ⟨hfound, rfl⟩, h⟩
    rw [hfound]
    cases found with
    | none => cases h
    | some existing =>
      dsimp only at h
      cases hp : reaction.policy with
      | recompute formula inputs =>
        rw [hp] at h
        simp only [start_bind_eq_ok, recomputed_eq_ok, start_pure_eq_ok] at h
        obtain ⟨e, _, ⟨he, rfl⟩, r', _, hr, ⟨⟩, rfl⟩ := h
        exact ⟨existing, e, rfl, he, hr⟩
      | incremental =>
        rw [hp] at h
        dsimp only at h
        cases hcurrent : existing.expression? with
        | none =>
          rw [hcurrent] at h
          cases h
        | some current =>
          rw [hcurrent] at h
          dsimp only at h
          split at h
          · cases h
          · simp only [start_bind_eq_ok, ofExpression_eq_ok, start_pure_eq_ok] at h
            obtain ⟨e, _, ⟨he, rfl⟩, r', _, hr, ⟨⟩, rfl⟩ := h
            exact ⟨existing, e, rfl, ⟨current, hcurrent, eq_false_of_ne_true ‹_›, he⟩, hr⟩
  · rintro ⟨existing, e, hfound, habsorbs, hr⟩
    rw [hfound] at habsorbs
    refine ⟨_, _, ⟨hfound, rfl⟩, ?_⟩
    dsimp only
    cases hp : reaction.policy with
    | recompute formula inputs =>
      rw [hp] at habsorbs
      simp only [start_bind_eq_ok, recomputed_eq_ok, start_pure_eq_ok]
      exact ⟨e, _, ⟨habsorbs, rfl⟩, r, w', hr, rfl, rfl⟩
    | incremental =>
      rw [hp] at habsorbs
      obtain ⟨current, hcurrent, hdelta, he⟩ := habsorbs
      change existing.expression? = some current at hcurrent
      simp only [hcurrent, hdelta, Bool.false_eq_true, if_false, start_bind_eq_ok, ofExpression_eq_ok, start_pure_eq_ok]
      exact ⟨e, _, ⟨he, rfl⟩, r, w', hr, rfl, rfl⟩

end Absorbing

def Yields (reaction : Reaction) (w : Workspace (Listing ν) ν) (e : Expression ν) : Trigger ν → Prop
  | .change c => ∃ new, recordedExpression? w.store c.parameter c.affected = some new ∧ Adds reaction c 1 w new e
  | .changes c count => count ≤ maxRepeatedTerms ∧
      ∃ new, recordedExpression? w.store c.parameter c.affected = some new ∧ Adds reaction c count w new e
  | .difference container delta => Absorbs reaction container delta w e

lemma run_eq_some {trigger : Trigger ν} {r : Record ν} : start (reaction.run config trigger) w = (.ok (some r), w') ↔
    ∃ source e, trigger.source? reaction.derived w.store = some source ∧ Yields reaction w e trigger ∧
      start (reaction.writeBack config trigger.container
        (RecordStore.find? w.store reaction.derived.name trigger.container) source e) w = (.ok r, w') := by
  have hpropagate (c : Change ν) (count : Nat) : start (reaction.propagate config c count) w = (.ok (some r), w') ↔
      ∃ source e, RecordStore.find? w.store c.parameter.name c.affected = some source ∧
        (∃ new, recordedExpression? w.store c.parameter c.affected = some new ∧ Adds reaction c count w new e) ∧
          start (reaction.writeBack config c.container
            (RecordStore.find? w.store reaction.derived.name c.container) source e) w = (.ok r, w') := by
    simp only [propagate_eq_some, recordedExpression?]
    constructor
    · rintro ⟨source, new, e, hsource, hnew, hadds, hr⟩
      exact ⟨source, e, hsource, ⟨new, hsource ▸ hnew, hadds⟩, hr⟩
    · rintro ⟨source, e, hsource, ⟨new, hnew, hadds⟩, hr⟩
      rw [hsource] at hnew
      exact ⟨source, new, e, hsource, hnew, hadds, hr⟩
  cases trigger with
  | change c => exact hpropagate c 1
  | changes c count =>
    rw [run, handleMultiple]
    by_cases hc : maxRepeatedTerms < count
    · rw [if_pos hc]
      exact ⟨nofun, fun ⟨_, _, _, ⟨hle, _⟩, _⟩ => absurd hc (Nat.not_lt.mpr hle)⟩
    · rw [if_neg hc, hpropagate]
      simp only [Yields, Nat.not_lt.mp hc, true_and, Trigger.source?, Trigger.container]
  | difference container delta =>
    rw [run, absorb_eq_some]
    simp only [Trigger.source?, Trigger.container, Yields]
    constructor
    · rintro ⟨existing, e, hfound, habsorbs, hr⟩
      exact ⟨existing, e, hfound, habsorbs, hfound ▸ hr⟩
    · rintro ⟨existing, e, hfound, habsorbs, hr⟩
      exact ⟨existing, e, hfound, habsorbs, hfound ▸ hr⟩

end Reaction

end Uncertainty
