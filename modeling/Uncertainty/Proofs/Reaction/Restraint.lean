import Uncertainty.Number.Binary64
import Uncertainty.Proofs.Reaction.Outcome
import Uncertainty.Proofs.Store.Listing
import Uncertainty.Proofs.Store.Refinement

/-! A reaction that does not succeed writes nothing. -/

namespace Uncertainty

open Attempt Workspace

variable {σ ν : Type}

structure Accepts [RecordStore σ ν] (s : σ) (id : RecordId) : Prop where
  update : ∀ {name entity old}, RecordStore.find? s name entity = some old → ∀ e : Expression ν,
    ∃ s', RecordStore.update (old.withExpression e) s = .ok s'
  insert : ∀ r : Record ν, r.id = id → ∃ s', RecordStore.insert r s = .ok s'

lemma Listing.accepts {l : Listing ν} {id : RecordId} (hid : l.holds id = false) : Accepts l id where
  update hfind _ := exists_update_of_mem (mem_of_find? hfind).1 rfl
  insert r hr := by
    subst hr
    exact ⟨_, if_neg (ne_true_of_eq_false hid)⟩

lemma Stands.accepts {s : Store ν} {l : Listing ν} (h : Stands s l) {id : RecordId} (hid : s.holds id = false) :
    Accepts s id where
  update hfind e := by
    rw [h.answers.find?] at hfind
    exact (h.update _).exists_ok ((Listing.accepts (h.holds id ▸ hid)).update hfind e)
  insert r hr := (h.insert r).exists_ok ((Listing.accepts (h.holds id ▸ hid)).insert r hr)

def Fruitless {ε α : Type} (r : Except ε (Option α)) : Prop := ∀ a, r ≠ .ok (some a)

lemma Attempt.Spares.some {ε τ α : Type} {work : Attempt ε τ α} {s : τ} (h : Spares (fun r => r.isOk = false) work s) :
    Spares Fruitless (do return some (← work)) s := by
  intro hr
  rw [start_bind] at hr ⊢
  unfold Spares at h
  rcases hx : start work s with ⟨e | a, u⟩ <;> rw [hx] at h hr
  · exact h rfl
  · exact absurd rfl (hr a)

namespace Workspace

variable {α : Type}

lemma readModel_reads (f : Registry ν → Except ModelError α) : Reads (Workspace.readModel f : Work σ ν α) := .look _

lemma readStore_reads (f : σ → α) : Reads (Workspace.readStore f : Work σ ν α) := fun _ => rfl

lemma ofExpression_reads (r : Except (ExpressionError ν) α) : Reads (ofExpression r : Work σ ν α) := .lift _

end Workspace

namespace Reaction

variable [RecordStore σ ν]

omit [RecordStore σ ν] in
lemma recordedValue_reads (a : Attribute) (id : EntityId) (recorded : Option (Record ν)) :
    Reads (recordedValue a id recorded : Work σ ν (Value ν)) := by
  rw [recordedValue]
  split
  · exact .done _
  · exact (readModel_reads _).bind fun _ => .done _

lemma currentValue_reads (container : EntityId) (a : Attribute) :
    Reads (currentValue container a : Work σ ν (Value ν)) := by
  refine (readModel_reads _).bind fun holder => ?_
  cases holder with
  | none => exact (readModel_reads _).bind fun _ => .fails _
  | some holder => exact (readStore_reads _).bind fun recorded => recordedValue_reads a holder recorded

lemma bindInputs_reads (container : EntityId) (inputs : List Input) (env : Environment ν) :
    Reads (bindInputs container inputs env : Work σ ν (Environment ν)) := by
  induction inputs generalizing env with
  | nil => exact .done env
  | cons input rest ih => exact (currentValue_reads container input.source).bind fun value => ih (env.bind input.name value)

variable [Number ν]

lemma recomputed_reads (container : EntityId) (formula : String) (inputs : List Input) :
    Reads (recomputed container formula inputs : Work σ ν (Expression ν)) :=
  (bindInputs_reads container inputs _).bind fun _ => (ofExpression_reads _).bind fun _ => .done _

lemma derivedExpression_reads (reaction : Reaction) (change : Change ν) (count : Nat) (existing : Option (Record ν))
    (new : Expression ν) : Reads (reaction.derivedExpression change count existing new : Work σ ν (Expression ν)) := by
  rw [derivedExpression]
  split
  · exact (recordedValue_reads _ _ _).bind fun _ => ofExpression_reads _
  · exact recomputed_reads _ _ _

section Saving

variable {w : Workspace σ ν} {derived : Attribute} {container : EntityId} {e : Expression ν} {s : σ}

omit [Number ν] in
lemma saveExpression_update {old : Record ν} (hs : RecordStore.update (old.withExpression e) w.store = .ok s)
    (template : Record ν) :
    start (saveExpression derived container (some old) template e) w =
      (.ok (old.withExpression e), { w with store := s }) :=
  saveExpression_eq_ok.mpr ⟨⟨rfl, hs, rfl⟩, rfl⟩

omit [Number ν] in
lemma saveExpression_insert {template : Record ν}
    (hs : RecordStore.insert (derivedRecord derived container template w.supply.fresh e) w.store = .ok s) :
    start (saveExpression derived container none template e) w =
      (.ok (derivedRecord derived container template w.supply.fresh e),
        { w with store := s, supply := w.supply.next }) :=
  saveExpression_eq_ok.mpr ⟨⟨rfl, hs, rfl⟩, rfl⟩

end Saving

section Writing

variable {w : Workspace σ ν} {P : Except (Error ν) (Option (Record ν)) → Prop} {reaction : Reaction} {config : Sampling}

lemma propagate_spares_of {change : Change ν} {count : Nat}
    (hwrite : ∀ existing template e, RecordStore.find? w.store reaction.derived.name change.container = existing →
      Spares P (do return some (← reaction.writeBack config change.container existing template e)) w) :
    Spares P (reaction.propagate config change count) w := by
  refine (readStore_reads _).then_spares fun source _ => ?_
  cases source with
  | none => exact (Reads.done _).spares w
  | some source =>
    dsimp only
    split
    · exact (Reads.done _).spares w
    · refine (readStore_reads _).then_spares fun existing hexisting => ?_
      refine (derivedExpression_reads reaction change count existing _).then_spares fun e _ => ?_
      exact hwrite existing source e (Except.ok.inj (congrArg Prod.fst hexisting))

lemma absorb_spares_of {container : EntityId} {delta : ν}
    (hwrite : ∀ existing template e, RecordStore.find? w.store reaction.derived.name container = existing →
      Spares P (do return some (← reaction.writeBack config container existing template e)) w) :
    Spares P (reaction.absorb config container delta) w := by
  refine (readStore_reads _).then_spares fun existing hexisting => ?_
  have hfind : RecordStore.find? w.store reaction.derived.name container = existing :=
    Except.ok.inj (congrArg Prod.fst hexisting)
  cases existing with
  | none => exact (Reads.done _).spares w
  | some existing =>
    dsimp only
    split
    · split
      · exact (Reads.done _).spares w
      · split
        · exact (Reads.done _).spares w
        · exact (ofExpression_reads _).then_spares fun e _ => hwrite (some existing) existing e hfind
    · exact (recomputed_reads _ _ _).then_spares fun e _ => hwrite (some existing) existing e hfind

lemma run_spares_of {trigger : Trigger ν}
    (hwrite : ∀ existing template e, RecordStore.find? w.store reaction.derived.name trigger.container = existing →
      Spares P (do return some (← reaction.writeBack config trigger.container existing template e)) w) :
    Spares P (reaction.run config trigger) w := by
  cases trigger with
  | change c => exact propagate_spares_of hwrite
  | changes c count =>
    rw [run, handleMultiple]
    split
    · exact (Reads.fails _).spares w
    · exact propagate_spares_of hwrite
  | difference container delta => exact absorb_spares_of hwrite

end Writing

section Sparing

variable {w : Workspace σ ν} (hw : Accepts w.store w.supply.fresh) {reaction : Reaction} {config : Sampling}
  {container : EntityId} {existing : Option (Record ν)}
include hw

omit [Number ν] in
lemma saveExpression_succeeds {derived : Attribute}
    (hfind : RecordStore.find? w.store derived.name container = existing) (template : Record ν) (e : Expression ν) :
    ∃ r w', start (saveExpression derived container existing template e) w = (.ok r, w') ∧ w'.model = w.model := by
  cases existing with
  | some old =>
    obtain ⟨s, hs⟩ := hw.update hfind e
    exact ⟨_, _, saveExpression_update hs template, rfl⟩
  | none =>
    obtain ⟨s, hs⟩ := hw.insert (derivedRecord derived container template w.supply.fresh e) rfl
    exact ⟨_, _, saveExpression_insert hs, rfl⟩

/-- The record is saved only where the value that is set afterwards has been read, so that nothing fails any more. -/
lemma writeBack_spares (hfind : RecordStore.find? w.store reaction.derived.name container = existing)
    (template : Record ν) (e : Expression ν) :
    Spares (fun r => r.isOk = false) (reaction.writeBack config container existing template e) w := by
  rw [writeBack]
  split
  · refine (readModel_reads _).then_spares fun current hget => ?_
    have hget : w.model.get container reaction.derived = .ok current := ok_of_mapError_ok (congrArg Prod.fst hget)
    obtain ⟨r, w', hsave, hmodel⟩ := saveExpression_succeeds hw hfind template e
    obtain ⟨m, hset⟩ := Registry.set_of_get hget (e.mean config)
    intro hfailed
    rw [start_bind, hsave] at hfailed
    dsimp only at hfailed
    rw [start_bind, writeModel, start_step, hmodel, hset] at hfailed
    cases hfailed
  · exact (Reads.fails _).spares w

lemma propagate_spares (change : Change ν) (count : Nat) :
    Spares Fruitless (reaction.propagate config change count) w :=
  propagate_spares_of fun _ template e hfind => (writeBack_spares hw hfind template e).some

lemma handleMultiple_spares (change : Change ν) (count : Nat) :
    Spares Fruitless (reaction.handleMultiple config change count) w := by
  rw [handleMultiple]
  split
  · exact (Reads.fails _).spares w
  · exact propagate_spares hw change count

lemma absorb_spares (container : EntityId) (delta : ν) :
    Spares Fruitless (reaction.absorb config container delta) w :=
  absorb_spares_of fun _ template e hfind => (writeBack_spares hw hfind template e).some

end Sparing

omit [RecordStore σ ν] in
theorem fruitless_reaction_writes_nothing (calls : List (StoreCall ν)) (m : Registry ν) (supply : IdSupply)
    (reaction : Reaction) (config : Sampling) :
    let s := (StoreCall.performAll calls Store.empty).2
    let w : Workspace (Store ν) ν := ⟨s, m, supply⟩
    s.holds supply.fresh = false →
      (∀ change, Spares Fruitless (reaction.handle config change) w) ∧
        (∀ change count, Spares Fruitless (reaction.handleMultiple config change count) w) ∧
          ∀ container delta, Spares Fruitless (reaction.absorb config container delta) w := by
  intro s w hfresh
  have hw : Accepts w.store w.supply.fresh := (Stands.empty.performAll calls).2.accepts hfresh
  exact ⟨fun change => propagate_spares hw change 1, handleMultiple_spares hw, absorb_spares hw⟩

def heavyLinks : Record Float where
  id := ⟨0, 1⟩
  kind := default
  nature := default
  reducibility := default
  onDelete := default
  setManually := true
  location := Location.ofAttribute .crossLinkMass [⟨1⟩]
  effect := some { expression := some (.literal 1e308) }
  pattern := none
  perspective := none
  source := none

theorem heavyLinks_write_nothing :
    let s := (StoreCall.performAll [.insert heavyLinks] Store.empty).2
    let w : Workspace (Store Float) Float := ⟨s, ⟨#[Entity.new .damperSystem none]⟩, ⟨0⟩⟩
    let change : Change Float := ⟨.crossLinkMass, 0, 1e308, ⟨1⟩, ⟨0⟩⟩
    let doubled := start (totalMass.handleMultiple .standard change 2) w
    let unrecorded := start (totalMass.absorb .standard ⟨0⟩ 1) w
    s.holds (IdSupply.mk 0).fresh = false ∧ doubled.1.isOk = false ∧
      unrecorded.1.toOption.map (·.isNone) = some true ∧ doubled.2 = w ∧ unrecorded.2 = w := by
  intro s w change doubled unrecorded
  have hfresh : s.holds (IdSupply.mk 0).fresh = false := by decide +kernel
  obtain ⟨-, hmultiple, habsorb⟩ :=
    fruitless_reaction_writes_nothing [.insert heavyLinks] w.model w.supply totalMass .standard hfresh
  have hfailed : doubled.1.isOk = false := by decide +kernel
  have hnone : unrecorded.1.toOption.map (·.isNone) = some true := by decide +kernel
  refine ⟨hfresh, hfailed, hnone, hmultiple change 2 fun r hr => ?_, habsorb ⟨0⟩ 1 fun r hr => ?_⟩
  · change doubled.1 = _ at hr
    rw [hr] at hfailed
    cases hfailed
  · change unrecorded.1 = _ at hr
    rw [hr] at hnone
    cases hnone

end Reaction

end Uncertainty
