import Uncertainty.Proofs.Reaction.Outcome
import Uncertainty.Proofs.Store.Listing

namespace Uncertainty

open Attempt

variable {ν : Type}

namespace Workspace

variable {α : Type} {P : Workspace (Listing ν) ν → Prop}

lemma readModel_leads (f : Registry ν → Except ModelError α) :
    Leads P (Workspace.readModel f) fun a w => P w ∧ f w.model = .ok a := by
  intro w a _ hw h
  obtain ⟨hf, rfl⟩ := readModel_eq_ok.mp h
  exact ⟨hw, hf⟩

lemma find?_leads (name : String) (id : EntityId) :
    Leads P (Workspace.readStore (RecordStore.find? · name id)) fun r w =>
      P w ∧ RecordStore.find? w.store name id = r := by
  rintro w _ _ hw ⟨⟩
  exact ⟨hw, rfl⟩

lemma writeModel_leads (f : Registry ν → Except ModelError (α × Registry ν)) :
    Leads P (Workspace.writeModel f) fun a w => ∃ m, P { w with model := m } ∧ f m = .ok (a, w.model) := by
  intro w a w' hw h
  obtain ⟨hf, hw'⟩ := writeModel_eq_ok.mp h
  rw [hw']
  exact ⟨w.model, hw, hf⟩

def Same (w w' : Workspace (Listing ν) ν) : Prop := w'.store = w.store ∧ w'.model = w.model

end Workspace

namespace Reaction

open Workspace

def Saved (derived : Attribute) (container : EntityId) (existing : Option (Record ν)) (template : Record ν)
    (e : Expression ν) (l l' : Listing ν) : Prop :=
  match existing with
  | some old => l.update (old.withExpression e) = .ok l'
  | none => ∃ id, l.insert (derivedRecord derived container template id e) = .ok l'

lemma describes_derivedRecord {d : Attribute} {system : EntityId} {template : Record ν} {e : Expression ν} {id : RecordId}
    {d' : Attribute} {system' : EntityId} :
    (derivedRecord d system template id e).describes d'.name system' = true ↔ system' = system ∧ d' = d := by
  rw [Record.describes_iff]
  constructor
  · rintro ⟨hp, hmem⟩
    exact ⟨List.mem_singleton.mp hmem, (Attribute.name_injective (Option.some.inj hp)).symm⟩
  · rintro ⟨rfl, rfl⟩
    exact ⟨rfl, List.mem_singleton.mpr rfl⟩

def SavedAs (derived : Attribute) (container : EntityId) (existing : Option (Record ν)) (template : Record ν)
    (e : Expression ν) (r : Record ν) (l l' : Listing ν) : Prop :=
  match existing with
  | some old => r = old.withExpression e ∧ l.update r = .ok l'
  | none => (∃ id, r = derivedRecord derived container template id e) ∧ l.insert r = .ok l'

structure Filed (d : Attribute) (container : EntityId) (r : Record ν) (l l' : Listing ν) : Prop where
  put : l' = l.put r
  found : RecordStore.find? l' d.name container = some r
  expression : r.expression?.isSome = true

section Saving

variable {d : Attribute} {system : EntityId} {existing : Option (Record ν)} {template : Record ν} {e : Expression ν}
  {r : Record ν} {l l' : Listing ν}

lemma SavedAs.saved (hs : SavedAs d system existing template e r l l') : Saved d system existing template e l l' := by
  cases existing with
  | some old =>
    obtain ⟨rfl, hupdate⟩ := hs
    exact hupdate
  | none =>
    obtain ⟨⟨id, rfl⟩, hinsert⟩ := hs
    exact ⟨id, hinsert⟩

lemma Saves.savedAs {w w' : Workspace (Listing ν) ν} (hs : Saves d system existing template e r w w') :
    SavedAs d system existing template e r w.store w'.store := by
  cases existing with
  | some old => exact ⟨hs.1, hs.2.1⟩
  | none => exact ⟨⟨_, hs.1⟩, hs.2.1⟩

lemma Saved.exists_record (hs : Saved d system existing template e l l') :
    ∃ r, SavedAs d system existing template e r l l' := by
  cases existing with
  | some old => exact ⟨_, rfl, hs⟩
  | none =>
    obtain ⟨id, hinsert⟩ := hs
    exact ⟨_, ⟨id, rfl⟩, hinsert⟩

lemma SavedAs.expression (hs : SavedAs d system existing template e r l l') : r.expression? = some e := by
  cases existing with
  | some old =>
    obtain ⟨rfl, -⟩ := hs
    rfl
  | none =>
    obtain ⟨⟨id, rfl⟩, -⟩ := hs
    rfl

lemma SavedAs.filed (hs : SavedAs d system (RecordStore.find? l d.name system) template e r l l') :
    Filed d system r l l' := by
  have hsome : r.expression?.isSome = true := Option.isSome_iff_exists.mpr ⟨e, hs.expression⟩
  cases hfind : RecordStore.find? l d.name system with
  | some old =>
    rw [hfind] at hs
    obtain ⟨rfl, hupdate⟩ := hs
    exact ⟨Listing.eq_put_of_update hupdate, Listing.find?_update_self hupdate hfind rfl rfl, hsome⟩
  | none =>
    rw [hfind] at hs
    obtain ⟨⟨id, rfl⟩, hinsert⟩ := hs
    refine ⟨Listing.eq_put_of_insert hinsert, ?_, hsome⟩
    rw [(Listing.insert_ok hinsert).1, Listing.find?_append, hfind, if_pos (describes_derivedRecord.mpr ⟨rfl, rfl⟩)]
    rfl

lemma Saved.found (hs : Saved d system (RecordStore.find? l d.name system) template e l l') :
    ∃ r, RecordStore.find? l' d.name system = some r ∧ r.expression? = some e := by
  obtain ⟨r, hr⟩ := hs.exists_record
  exact ⟨r, hr.filed.found, hr.expression⟩

lemma Saved.cases (hs : Saved d system (RecordStore.find? l d.name system) template e l l') :
    (∃ old ∈ l.records, old.describes d.name system = true ∧ l.update (old.withExpression e) = .ok l') ∨
      (∀ r ∈ l.records, ¬ r.describes d.name system = true) ∧
        ∃ id, l' = l.append (derivedRecord d system template id e) ∧ ∀ r ∈ l.records, r.id ≠ id := by
  cases hfind : RecordStore.find? l d.name system with
  | none =>
    rw [hfind] at hs
    obtain ⟨id, hinsert⟩ := hs
    exact .inr ⟨fun r hr => Listing.not_describes_of_find? hfind hr, id, Listing.insert_ok hinsert⟩
  | some old =>
    rw [hfind] at hs
    obtain ⟨hold, hdesc⟩ := Listing.mem_of_find? hfind
    exact .inl ⟨old, hold, hdesc, hs⟩

lemma Saved.describes (hs : Saved d system (RecordStore.find? l d.name system) template e l l') :
    ∃ r ∈ l'.records, r.describes d.name system = true := by
  obtain ⟨r, hfound, -⟩ := hs.found
  exact ⟨r, Listing.mem_of_find? hfound⟩

end Saving

variable [Number ν]

structure Written (config : Sampling) (d : Attribute) (container : EntityId) (e : Expression ν)
    (w w' : Workspace (Listing ν) ν) : Prop where
  finite : Number.isFinite (e.mean config) = true
  saved : ∃ template, Saved d container (RecordStore.find? w.store d.name container) template e w.store w'.store
  set : ∃ old, w.model.set container d (e.mean config) = .ok (old, w'.model)

def Carried (config : Sampling) (reaction : Reaction) (change : Change ν) (count : Nat)
    (w w' : Workspace (Listing ν) ν) : Prop :=
  ∃ new e, count ≤ maxRepeatedTerms ∧
    recordedExpression? w.store change.parameter change.affected = some new ∧
    Adds reaction change count w new e ∧ Written config reaction.derived change.container e w w'

lemma Carried.isSome_source {config : Sampling} {reaction : Reaction} {change : Change ν} {count : Nat}
    {w w' : Workspace (Listing ν) ν} (h : Carried config reaction change count w w') :
    (recordedExpression? w.store change.parameter change.affected).isSome = true := by
  obtain ⟨new, -, -, hnew, -⟩ := h
  exact Option.isSome_iff_exists.mpr ⟨new, hnew⟩

def Shifted (config : Sampling) (reaction : Reaction) (container : EntityId) (delta : ν)
    (w w' : Workspace (Listing ν) ν) : Prop :=
  ∃ e, Absorbs reaction container delta w e ∧ Written config reaction.derived container e w w'

variable {config : Sampling} {reaction : Reaction} {w w' : Workspace (Listing ν) ν}

lemma written_of_writeBack {container : EntityId} {template r : Record ν} {e : Expression ν}
    (h : start (reaction.writeBack config container (RecordStore.find? w.store reaction.derived.name container) template e)
      w = (.ok r, w')) :
    Written config reaction.derived container e w w' ∧ Filed reaction.derived container r w.store w'.store := by
  obtain ⟨hf, hsaves, old, hset⟩ := writeBack_eq_ok.mp h
  exact ⟨⟨hf, ⟨template, hsaves.savedAs.saved⟩, old, hset⟩, hsaves.savedAs.filed⟩

lemma propagate_ok (change : Change ν) {count : Nat} (hcount : count ≤ maxRepeatedTerms) :
    Leads (Same w) (reaction.propagate config change count) fun r w' =>
      match r with
      | none => Same w w' ∧ recordedExpression? w.store change.parameter change.affected = none
      | some r => Carried config reaction change count w w' ∧
          Filed reaction.derived change.container r w.store w'.store := by
  rintro ⟨_, _, supply⟩ r w' ⟨rfl, rfl⟩ h
  cases r with
  | none =>
    obtain ⟨hnone, rfl⟩ := propagate_eq_none.mp h
    exact ⟨⟨rfl, rfl⟩, hnone⟩
  | some r =>
    obtain ⟨source, new, e, hfound, hnew, hadds, hr⟩ := propagate_eq_some.mp h
    obtain ⟨⟨hf, hsaved, hset⟩, hfiled⟩ := written_of_writeBack hr
    refine ⟨⟨new, e, hcount, ?_, hadds, hf, hsaved, hset⟩, hfiled⟩
    rw [recordedExpression?]
    exact Option.bind_eq_some_iff.mpr ⟨source, hfound, hnew⟩

lemma handleMultiple_ok (change : Change ν) (count : Nat) :
    Leads (Same w) (reaction.handleMultiple config change count) fun r w' =>
      match r with
      | none => Same w w' ∧ recordedExpression? w.store change.parameter change.affected = none
      | some r => Carried config reaction change count w w' ∧
          Filed reaction.derived change.container r w.store w'.store := by
  rw [handleMultiple]
  by_cases hc : maxRepeatedTerms < count
  · rw [if_pos hc]
    exact .fails _
  · rw [if_neg hc]
    exact propagate_ok change (Nat.not_lt.mp hc)

lemma absorb_ok (container : EntityId) (delta : ν) :
    Leads (Same w) (reaction.absorb config container delta) fun r w' =>
      match r with
      | none => Same w w' ∧ (recordedExpression? w.store reaction.derived container = none ∨
          reaction.policy = .incremental ∧ (delta == Number.zero) = true)
      | some r => (Shifted config reaction container delta w w' ∧
          (RecordStore.find? w.store reaction.derived.name container).isSome = true) ∧
          Filed reaction.derived container r w.store w'.store := by
  rintro ⟨_, _, supply⟩ r w' ⟨rfl, rfl⟩ h
  cases r with
  | none =>
    obtain ⟨rfl, hnone⟩ := absorb_eq_none h
    exact ⟨⟨rfl, rfl⟩, hnone⟩
  | some r =>
    obtain ⟨existing, e, hfound, habsorbs, hr⟩ := absorb_eq_some.mp h
    rw [← hfound] at hr
    obtain ⟨⟨hf, hsaved, hset⟩, hfiled⟩ := written_of_writeBack hr
    exact ⟨⟨⟨e, habsorbs, hf, hsaved, hset⟩, Option.isSome_iff_exists.mpr ⟨existing, hfound⟩⟩, hfiled⟩

end Reaction

end Uncertainty
