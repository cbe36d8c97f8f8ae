import Mathlib.Logic.Function.Basic
import Uncertainty.Proofs.Reaction.Effects

namespace Uncertainty

open Reaction

variable {ν : Type}

def Listing.Tells (l : Listing ν) (d : Attribute) : Prop :=
  ∀ r ∈ l.records, r.parameter? = some d.name → ∃ system e, r.location.referenced = [system] ∧
    r.expression? = some e ∧ RecordStore.find? l d.name system = some r

section Telling

variable {d : Attribute} {system : EntityId} {l : Listing ν}

lemma Listing.Tells.recorded (ht : l.Tells d) {r : Record ν} (hr : r ∈ l.records)
    (hdesc : r.describes d.name system = true) :
    ∃ e, r.expression? = some e ∧ recordedExpression? l d system = some e := by
  obtain ⟨hp, hmem⟩ := (r.describes_iff _ _).mp hdesc
  obtain ⟨only, e, hreferenced, he, hfound⟩ := ht r hr hp
  rw [hreferenced, List.mem_singleton] at hmem
  refine ⟨e, he, ?_⟩
  rw [recordedExpression?, hmem, hfound]
  exact he

lemma Listing.Tells.describes_iff (ht : l.Tells d) :
    (∃ r ∈ l.records, r.describes d.name system = true) ↔ ∃ e, recordedExpression? l d system = some e := by
  constructor
  · rintro ⟨r, hr, hdesc⟩
    obtain ⟨e, -, he⟩ := ht.recorded hr hdesc
    exact ⟨e, he⟩
  · rintro ⟨e, he⟩
    obtain ⟨r, hfind, -⟩ := Option.bind_eq_some_iff.mp he
    obtain ⟨hmem, hdesc⟩ := Listing.mem_of_find? hfind
    exact ⟨r, hmem, hdesc⟩

end Telling

section Agreeing

structure AgreeOn {σ τ : Type} [RecordStore σ ν] [RecordStore τ ν] (a : Attribute) (w : Workspace σ ν)
    (w' : Workspace τ ν) : Prop where
  recorded : ∀ id, recordedExpression? w'.store a id = recordedExpression? w.store a id
  holder : ∀ id, w'.model.findHolder id a = w.model.findHolder id a
  value : ∀ id, w'.model.get id a = w.model.get id a

namespace Reaction

variable {a : Attribute} {container : EntityId} {w w' : Workspace (Listing ν) ν} {formula : String} {inputs : List Input}
  {e e' : Expression ν}

lemma IsKnown.of_agreeOn {known : Value ν} (h : IsKnown w container a known) (ha : AgreeOn a w w') :
    IsKnown w' container a known := by
  obtain ⟨holder, hholder, hvalue⟩ := h
  refine ⟨holder, (ha.holder container).trans hholder, ?_⟩
  rw [ha.recorded]
  cases hrecorded : recordedExpression? w.store a holder with
  | some e =>
    rw [hrecorded] at hvalue
    exact hvalue
  | none =>
    rw [hrecorded] at hvalue
    obtain ⟨x, hx, rfl⟩ := hvalue
    exact ⟨x, (ha.value holder).trans hx, rfl⟩

variable [Number ν]

lemma Recomputed.unique (h : Recomputed w container formula inputs e) (h' : Recomputed w container formula inputs e') :
    e' = e := by
  have hstart := recomputed_eq_ok.mpr ⟨h, rfl⟩
  rw [recomputed_eq_ok.mpr ⟨h', rfl⟩] at hstart
  exact Except.ok.inj (congrArg Prod.fst hstart)

lemma Recomputed.of_agreeOn (h : Recomputed w container formula inputs e)
    (ha : ∀ input ∈ inputs, AgreeOn input.source w w') : Recomputed w' container formula inputs e := by
  obtain ⟨values, u, hvalues, hu, rfl⟩ := h
  refine ⟨values, u, ?_, hu, rfl⟩
  clear hu
  induction hvalues with
  | nil => exact .nil
  | cons hv _ ih =>
    obtain ⟨hinput, hinputs⟩ := List.forall_mem_cons.mp ha
    exact .cons (hv.of_agreeOn hinput) (ih hinputs)

end Reaction

end Agreeing

namespace Reaction.Saved

variable {a d : Attribute} {id system : EntityId} {template : Record ν} {e new : Expression ν} {l l' : Listing ν}
  (hs : Saved d system (RecordStore.find? l d.name system) template e l l') (hn : (l.records.map (·.id)).Nodup)
include hs hn

lemma nodup : (l'.records.map (·.id)).Nodup := by
  rcases hs.cases with ⟨old, -, -, hupdate⟩ | ⟨-, id, rfl, hnew⟩
  · rw [Listing.ids_update hupdate]
    exact hn
  · exact Listing.nodup_append hn hnew

lemma find?_cases (name : String) (id : EntityId) :
    (∃ old ∈ l.records, old.describes d.name system = true ∧
      RecordStore.find? l' name id =
        (RecordStore.find? l name id).map fun r => if r.id = old.id then old.withExpression e else r) ∨
      RecordStore.find? l d.name system = none ∧ ∃ new : RecordId, RecordStore.find? l' name id =
        (RecordStore.find? l name id).or (if (derivedRecord d system template new e).describes name id then
          some (derivedRecord d system template new e) else none) := by
  rcases hs.cases with ⟨old, hold, hdesc, hupdate⟩ | ⟨hnone, new, rfl, -⟩
  · exact .inl ⟨old, hold, hdesc, Listing.find?_withExpression hn hold hupdate name id⟩
  · refine .inr ⟨?_, new, Listing.find?_append name id⟩
    change l.records.find? _ = none
    exact List.find?_eq_none.mpr hnone

lemma find?_ne (hne : a ≠ d) (id : EntityId) : RecordStore.find? l' a.name id = RecordStore.find? l a.name id := by
  rcases hs.find?_cases hn a.name id with ⟨old, hold, hdesc, hfind⟩ | ⟨-, new, hfind⟩
  · rw [hfind]
    cases hr : RecordStore.find? l a.name id with
    | none => rfl
    | some r =>
      obtain ⟨hmem, hdesc'⟩ := Listing.mem_of_find? hr
      refine congrArg some (if_neg fun hid => hne ?_)
      obtain rfl := List.inj_on_of_nodup_map hn hmem hold hid
      have hname := ((r.describes_iff _ _).mp hdesc').1.symm.trans ((r.describes_iff _ _).mp hdesc).1
      exact Attribute.name_injective (Option.some.inj hname)
  · rw [hfind, if_neg fun hdesc => hne (describes_derivedRecord.mp hdesc).2, Option.or_none]

lemma exists_recordedExpression? {id : EntityId} (h : recordedExpression? l a id = some new) :
    ∃ new', recordedExpression? l' a id = some new' := by
  obtain ⟨r, hr, hnew⟩ := Option.bind_eq_some_iff.mp h
  rw [recordedExpression?]
  rcases hs.find?_cases hn a.name id with ⟨old, -, -, hfind⟩ | ⟨-, id', hfind⟩
  · rw [hfind, hr, Option.map_some]
    split
    · exact ⟨e, rfl⟩
    · exact ⟨new, hnew⟩
  · rw [hfind, hr]
    exact ⟨new, hnew⟩

lemma tells {d' : Attribute} (ht : l.Tells d') : l'.Tells d' := by
  intro r hr hp
  rcases hs.cases with ⟨old, hold, -, hupdate⟩ | ⟨hnone, new, rfl, -⟩
  · have hfind := Listing.find?_withExpression hn hold hupdate
    rcases Listing.mem_update hupdate hr with ⟨a, ha, ⟨hid, rfl⟩ | ⟨hid, rfl⟩⟩
    · obtain ⟨system, e', hreferenced, -, hfound⟩ := ht old hold hp
      refine ⟨system, e, hreferenced, rfl, ?_⟩
      rw [hfind, hfound]
      exact congrArg some (if_pos rfl)
    · obtain ⟨system, e', hreferenced, he, hfound⟩ := ht r ha hp
      refine ⟨system, e', hreferenced, he, ?_⟩
      rw [hfind, hfound]
      exact congrArg some (if_neg hid)
  · rcases List.mem_append.mp hr with hr | hr
    · obtain ⟨system, e', hreferenced, he, hfound⟩ := ht r hr hp
      refine ⟨system, e', hreferenced, he, ?_⟩
      rw [Listing.find?_append, hfound]
      rfl
    · obtain rfl := List.mem_singleton.mp hr
      obtain rfl : d' = d := (Attribute.name_injective (Option.some.inj hp)).symm
      refine ⟨system, e, rfl, rfl, ?_⟩
      have hfound : RecordStore.find? l d'.name system = none := List.find?_eq_none.mpr hnone
      rw [Listing.find?_append, hfound, if_pos (describes_derivedRecord.mpr ⟨rfl, rfl⟩)]
      rfl

lemma recordedExpression?_self (ht : l.Tells d) :
    recordedExpression? l' d = Function.update (recordedExpression? l d) system (some e) := by
  funext id
  rw [recordedExpression?]
  by_cases hid : id = system
  · subst hid
    rw [Function.update_self]
    rcases hs.find?_cases hn d.name id with ⟨old, hold, hdesc, hfind⟩ | ⟨hnone, new, hfind⟩
    · obtain ⟨hp, hmem⟩ := (old.describes_iff _ _).mp hdesc
      obtain ⟨only, e', hreferenced, -, hfound⟩ := ht old hold hp
      rw [hreferenced, List.mem_singleton] at hmem
      rw [hfind, hmem, hfound, Option.map_some, if_pos rfl]
      rfl
    · rw [hfind, hnone, if_pos (describes_derivedRecord.mpr ⟨rfl, rfl⟩)]
      rfl
  · rw [Function.update_of_ne hid, recordedExpression?]
    rcases hs.find?_cases hn d.name id with ⟨old, hold, hdesc, hfind⟩ | ⟨-, new, hfind⟩
    · rw [hfind]
      cases hr : RecordStore.find? l d.name id with
      | none => rfl
      | some r =>
        obtain ⟨hmem, hdesc'⟩ := Listing.mem_of_find? hr
        rw [Option.map_some, if_neg fun heq => hid ?_]
        obtain rfl := List.inj_on_of_nodup_map hn hmem hold heq
        obtain ⟨hp, hsystem⟩ := (r.describes_iff _ _).mp hdesc
        obtain ⟨only, -, hreferenced, -⟩ := ht r hold hp
        have hid' := ((r.describes_iff _ _).mp hdesc').2
        rw [hreferenced, List.mem_singleton] at hsystem hid'
        exact hid'.trans hsystem.symm
    · rw [hfind, if_neg fun hdesc => hid (describes_derivedRecord.mp hdesc).1, Option.or_none]

end Reaction.Saved

end Uncertainty
