import Uncertainty.Proofs.Model.Containment
import Uncertainty.Proofs.Reaction.Effects
import Uncertainty.Proofs.Reaction.Plain

namespace Uncertainty

open Attempt

variable {ν : Type}

inductive Placed (d : Attribute) (container : EntityId) (source : Record ν) (e : Expression ν) (r : Record ν)
    (records records' : List (Record ν)) : Prop
  | revised {before after : List (Record ν)} {old : Record ν} (split : records = before ++ old :: after)
    (describes : old.describes d.name container = true)
    (earliest : ∀ a ∈ before, ¬ a.describes d.name container = true)
    (revision : r = { old with effect := some { old.effect.getD {} with expression := some e } })
    (result : records' = before ++ r :: after) : Placed d container source e r records records'
  | appended (absent : ∀ a ∈ records, ¬ a.describes d.name container = true) (fresh : ∀ a ∈ records, a.id ≠ r.id)
    (location : r.location.type = .parameter ∧ r.location.parameter = some d.name ∧ r.location.referenced = [container])
    (like : r.isLike source = true) (automatic : r.setManually = false) (origin : r.source = none)
    (result : records' = records ++ [r]) : Placed d container source e r records records'

namespace Reaction

lemma isLike_derivedRecord {template : Record ν} (h : template.effect.isSome = true) (d : Attribute)
    (container : EntityId) (id : RecordId) (e : Expression ν) :
    (derivedRecord d container template id e).isLike template = true := by
  obtain ⟨effect, heffect⟩ := Option.isSome_iff_exists.mp h
  simp [Record.isLike, derivedRecord, Record.copy, Record.withExpression, heffect]

section Saving

variable {d : Attribute} {container : EntityId} {template r : Record ν} {e : Expression ν} {w w' : Workspace (Listing ν) ν}

lemma Saves.placed (hs : Saves d container (RecordStore.find? w.store d.name container) template e r w w')
    (hn : (w.store.records.map (·.id)).Nodup)
    (ht : RecordStore.find? w.store d.name container = none → template.effect.isSome = true) :
    Placed d container template e r w.store.records w'.store.records := by
  cases hfind : RecordStore.find? w.store d.name container with
  | some old =>
    rw [hfind] at hs
    obtain ⟨rfl, hupdate, -⟩ := hs
    obtain ⟨hdesc, before, after, hsplit, hbefore⟩ := List.find?_eq_some_iff_append.mp hfind
    exact .revised hsplit hdesc (fun a ha => by simpa using hbefore a ha) rfl
      (Listing.records_update hupdate hn hsplit rfl)
  | none =>
    rw [hfind] at hs
    obtain ⟨rfl, hinsert, -⟩ := hs
    obtain ⟨hresult, hfresh⟩ := Listing.insert_ok hinsert
    exact .appended (fun a ha => Listing.not_describes_of_find? hfind ha) hfresh ⟨rfl, rfl, rfl⟩
      (isLike_derivedRecord (ht hfind) d container _ e) rfl rfl (congrArg Listing.records hresult)

end Saving

section Running

variable [Number ν] {reaction : Reaction} {config : Sampling} {trigger : Trigger ν}

lemma Yields.isSome_effect {w : Workspace (Listing ν) ν} {source : Record ν} {e : Expression ν}
    (h : Yields reaction w e trigger) (hsource : trigger.source? reaction.derived w.store = some source)
    (hnone : RecordStore.find? w.store reaction.derived.name trigger.container = none) :
    source.effect.isSome = true := by
  have heffect {a : Attribute} {id : EntityId} {new : Expression ν}
      (hfind : RecordStore.find? w.store a.name id = some source)
      (hnew : recordedExpression? w.store a id = some new) : source.effect.isSome = true := by
    rw [recordedExpression?, hfind] at hnew
    change source.effect.bind _ = some new at hnew
    obtain ⟨effect, heffect, -⟩ := Option.bind_eq_some_iff.mp hnew
    exact Option.isSome_iff_exists.mpr ⟨effect, heffect⟩
  cases trigger with
  | change c =>
    obtain ⟨new, hnew, -⟩ := h
    exact heffect hsource hnew
  | changes c count =>
    obtain ⟨-, new, hnew, -⟩ := h
    exact heffect hsource hnew
  | difference container delta => cases hsource.symm.trans hnone

/-- A reaction writes one expression, to the earliest record of the derived attribute or to a new one, and its mean to
the model. All else stays as it was. -/
theorem reaction_places_one_record (calls : List (StoreCall ν)) (m : Registry ν) (supply : IdSupply)
    (reaction : Reaction) (config : Sampling) (trigger : Trigger ν) {r : Record ν} {w' : Workspace (Store ν) ν} :
    let s := (StoreCall.performAll calls (Store.empty : Store ν)).2
    start (reaction.run config trigger) ⟨s, m, supply⟩ = (.ok (some r), w') →
      ∃ source e, trigger.source? reaction.derived s = some source ∧ r.expression? = some e ∧
        Number.isFinite (e.mean config) = true ∧
        w'.model.get trigger.container reaction.derived = .ok (e.mean config) ∧
        m.SameBut (fun i a => i = trigger.container ∧ a = reaction.derived) w'.model ∧
        Placed reaction.derived trigger.container source e r s.records w'.store.records ∧
        SameAnswers w'.store (Listing.mk w'.store.records) := by
  intro s h
  have hs : Stands s s.listing := ⟨(Stands.empty.performAll calls).2.sound, rfl⟩
  obtain ⟨hrun, hs'⟩ := Workspace.start_run_plain_of_eq hs.sound h
  obtain ⟨source, e, hsource, hyields, hr⟩ := run_eq_some.mp hrun
  obtain ⟨hfinite, hsaves, old, hset⟩ := writeBack_eq_ok.mp hr
  have hplaced := hsaves.placed hs.ids_nodup (hyields.isSome_effect hsource)
  rw [Workspace.source?_plain hs.sound] at hsource
  exact ⟨source, e, hsource, hsaves.savedAs.expression, hfinite, Registry.get_set_self hset, .of_set hset, hplaced,
    Stands.answers ⟨hs', rfl⟩⟩

end Running

def weighedLinks : Record Float := heavyLinks.withExpression (.distribution (.normal 5 2))

theorem weighedLinks_place_one_total :
    let s := (StoreCall.performAll [.insert weighedLinks] (Store.empty : Store Float)).2
    let w : Workspace (Store Float) Float := ⟨s, ⟨#[Entity.new .damperSystem none]⟩, ⟨0⟩⟩
    let trigger : Trigger Float := .changes ⟨.crossLinkMass, 0, 5, ⟨1⟩, ⟨0⟩⟩ 2
    ∃ r w', start (totalMass.run .standard trigger) w = (.ok (some r), w') ∧ w'.store.records = [weighedLinks, r] ∧
      r.isLike weighedLinks = true ∧
        ∃ e, r.expression? = some e ∧ w'.model.get ⟨0⟩ .totalMass = .ok (e.mean .standard) := by
  intro s w trigger
  have hsome : ((start (totalMass.run .standard trigger) w).1.toOption.bind id).isSome = true := by decide +kernel
  rcases hrun : start (totalMass.run .standard trigger) w with ⟨x, w'⟩
  rw [hrun] at hsome
  obtain ⟨r, hr⟩ := Option.isSome_iff_exists.mp hsome
  obtain rfl := eq_ok_of_toOption_bind hr
  obtain ⟨source, e, hsource, he, -, hvalue, -, hplaced, -⟩ :=
    reaction_places_one_record [.insert weighedLinks] w.model ⟨0⟩ totalMass .standard trigger hrun
  obtain rfl : weighedLinks = source := Option.some.inj hsource
  have hrecords : s.records = [weighedLinks] := rfl
  rw [hrecords] at hplaced
  cases hplaced with
  | @revised before after old split describes =>
    have hold : old ∈ [weighedLinks] := split ▸ List.mem_append_right before List.mem_cons_self
    obtain rfl := List.mem_singleton.mp hold
    exact absurd describes (by decide +kernel)
  | appended absent fresh location like automatic origin result => exact ⟨r, w', rfl, result, like, e, he, hvalue⟩

end Reaction

end Uncertainty
