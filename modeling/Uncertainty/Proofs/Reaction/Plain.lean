import Uncertainty.Proofs.Reaction.Outcome
import Uncertainty.Proofs.Reaction.Twins
import Uncertainty.Proofs.Store.Refinement
import Uncertainty.Reaction.Trigger

/-! A reaction on the indexed store is the same reaction on the plain list of its records. -/

namespace Uncertainty

open Attempt

variable {ν : Type}

def Store.twins : Twins (Store ν) (Listing ν) ν where
  rename := id
  stores := Stands
  supplies _ ids ids' := ids' = ids
  find? h name entity := (h.answers.find? name entity).symm.trans Option.map_id_apply.symm
  insert h r := (h.insert r).mono (fun e f he => by rw [StoreError.rename_id, he]) fun _ _ h => h
  update h r := (h.update r).mono (fun e f he => by rw [StoreError.rename_id, he]) fun _ _ h => h
  draw h := ⟨h ▸ rfl, h ▸ rfl⟩
  spare h := h

namespace Workspace

def plain (w : Workspace (Store ν) ν) : Workspace (Listing ν) ν := ⟨w.store.listing, w.model, w.supply⟩

variable [Number ν] {w w' : Workspace (Store ν) ν} {r : Option (Record ν)}

lemma run_twins (reaction : Reaction) (config : Sampling) (trigger : Trigger ν) :
    Store.twins.kin.Same 1 (fun r r' => r' = r.map (Record.rename id)) (reaction.run config trigger)
      (reaction.run config trigger) := by
  cases trigger with
  | change c => exact Kin.Same.propagate reaction trivial trivial 1
  | changes c count => exact Kin.Same.handleMultiple reaction trivial trivial count
  | difference container delta =>
    let c : Change ν := ⟨reaction.derived, delta, delta, container, container⟩
    have hzone : (Store.twins : Twins (Store ν) (Listing ν) ν).kin.zone c.container := trivial
    exact (Kin.Same.absorb reaction hzone delta).spare (Nat.zero_le 1)

lemma start_run_plain (hs : w.store.Sound) (reaction : Reaction) (config : Sampling) (trigger : Trigger ν) :
    start (reaction.run config trigger) w.plain =
        ((start (reaction.run config trigger) w).1, (start (reaction.run config trigger) w).2.plain) ∧
      (start (reaction.run config trigger) w).2.store.Sound := by
  have hrun := run_twins reaction config trigger 0 w w.plain ⟨⟨hs, rfl⟩, rfl, rfl⟩
  revert hrun
  rcases start (reaction.run config trigger) w with ⟨x, u⟩
  rcases start (reaction.run config trigger) w.plain with ⟨y, ⟨l, m, supply⟩⟩
  rintro ⟨houtcome, ⟨hsound, rfl⟩, rfl, rfl⟩
  refine ⟨Prod.ext ?_ rfl, hsound⟩
  cases houtcome with
  | ok h => exact congrArg Except.ok (h.trans Option.map_id_apply)
  | error h => exact congrArg Except.error (h.trans (Error.rename_id _))

lemma start_run_plain_of_eq (hs : w.store.Sound) {reaction : Reaction} {config : Sampling} {trigger : Trigger ν}
    (h : start (reaction.run config trigger) w = (.ok r, w')) :
    start (reaction.run config trigger) w.plain = (.ok r, w'.plain) ∧ w'.store.Sound := by
  have hplain := start_run_plain hs reaction config trigger
  rwa [h] at hplain

lemma exists_start_run_of_plain (hs : w.store.Sound) {reaction : Reaction} {config : Sampling} {trigger : Trigger ν}
    {u : Workspace (Listing ν) ν} (h : start (reaction.run config trigger) w.plain = (.ok r, u)) :
    ∃ w', start (reaction.run config trigger) w = (.ok r, w') ∧ w'.plain = u ∧ w'.store.Sound := by
  obtain ⟨hplain, hsound⟩ := start_run_plain hs reaction config trigger
  rw [h] at hplain
  rcases hrun : start (reaction.run config trigger) w with ⟨x, w'⟩
  rw [hrun] at hplain hsound
  obtain ⟨rfl, rfl⟩ := Prod.mk.inj hplain
  exact ⟨w', rfl, rfl, hsound⟩

section Lookup

omit [Number ν]

variable (hs : w.store.Sound)
include hs

lemma find?_plain (name : String) (id : EntityId) :
    RecordStore.find? w.plain.store name id = RecordStore.find? w.store name id :=
  ((Stands.answers ⟨hs, rfl⟩).find? name id).symm

lemma recordedExpression?_plain (a : Attribute) (id : EntityId) :
    recordedExpression? w.plain.store a id = recordedExpression? w.store a id :=
  congrArg (·.bind (·.expression?)) (find?_plain hs a.name id)

lemma source?_plain (d : Attribute) (trigger : Trigger ν) :
    trigger.source? d w.plain.store = trigger.source? d w.store := by
  cases trigger <;> exact find?_plain hs _ _

end Lookup

end Workspace

end Uncertainty
