import Uncertainty.Proofs.Engine.Integrity
import Uncertainty.Proofs.Engine.Reports
import Uncertainty.Proofs.Model.Sharing

/-! A write of an attribute stays in the system of its entity: it changes neither the values of other entities nor the
records that are found for them. -/

namespace Uncertainty

open Workspace Reaction

variable {ν : Type}

def Listing.KeepsApart (l : Listing ν) : Prop :=
  ∀ r ∈ l.records, ∀ d : Attribute, d.isDerived = true → r.parameter? = some d.name →
    ∀ i ∈ r.location.referenced, ∀ j ∈ r.location.referenced, i = j

lemma Listing.KeepsApart.eq_of_describes {l : Listing ν} (hk : l.KeepsApart) {r : Record ν} (hr : r ∈ l.records)
    {d : Attribute} (hd : d.isDerived = true) {system i : EntityId} (hdesc : r.describes d.name system = true)
    {name : String} (hi : r.describes name i = true) : i = system := by
  obtain ⟨hname, hsystem⟩ := (r.describes_iff _ _).mp hdesc
  exact hk r hr d hd hname i ((r.describes_iff _ _).mp hi).2 system hsystem

namespace Reaction.Saved

variable {d : Attribute} {system i : EntityId} {template : Record ν} {e : Expression ν} {l l' : Listing ν}
  (hs : Saved d system (RecordStore.find? l d.name system) template e l l') (hk : l.KeepsApart)
include hs hk

lemma keepsApart : l'.KeepsApart := by
  rcases hs.cases with ⟨old, hold, -, hupdate⟩ | ⟨-, id, rfl, -⟩
  · intro r hr
    obtain ⟨a, ha, ⟨-, rfl⟩ | ⟨-, rfl⟩⟩ := Listing.mem_update hupdate hr
    · exact hk old hold
    · exact hk r ha
  · intro r hr
    rcases List.mem_append.mp hr with hr | hr
    · exact hk r hr
    · obtain rfl := List.mem_singleton.mp hr
      intro _ _ _ i hi j hj
      exact (List.mem_singleton.mp hi).trans (List.mem_singleton.mp hj).symm

lemma find?_apart (hn : (l.records.map (·.id)).Nodup) (hd : d.isDerived = true) (hi : i ≠ system) (name : String) :
    RecordStore.find? l' name i = RecordStore.find? l name i := by
  rcases hs.find?_cases hn name i with ⟨old, hold, hdesc, hfind⟩ | ⟨-, new, hfind⟩
  · rw [hfind]
    cases hr : RecordStore.find? l name i with
    | none => rfl
    | some r =>
      obtain ⟨hmem, hdesc'⟩ := Listing.mem_of_find? hr
      refine congrArg some (if_neg fun hid => hi ?_)
      obtain rfl := List.inj_on_of_nodup_map hn hmem hold hid
      exact hk.eq_of_describes hmem hd hdesc hdesc'
  · have hne : ¬ (derivedRecord d system template new e).describes name i = true :=
      fun hdesc => hi (List.mem_singleton.mp ((Record.describes_iff _ _ _).mp hdesc).2)
    rw [hfind, if_neg hne, Option.or_none]

end Reaction.Saved

structure StaysIn (zone : EntityId → Prop) (w w' : Workspace (Listing ν) ν) : Prop where
  places : Registry.SameBut (fun _ _ => True) w.model w'.model
  model : w.model.DifferIn zone w'.model
  find? : ∀ {i}, ¬ zone i → ∀ name, RecordStore.find? w'.store name i = RecordStore.find? w.store name i

namespace StaysIn

variable {zone : EntityId → Prop} {w w' w'' : Workspace (Listing ν) ν}

lemma of_same (h : Same w w') : StaysIn zone w w' := by
  obtain ⟨hstore, hmodel⟩ := h
  exact ⟨.of_eq hmodel, .of_eq hmodel, fun _ _ => by rw [hstore]⟩

lemma of_set {id : EntityId} {a : Attribute} {v old : ν} (hset : w.model.set id a v = .ok (old, w'.model))
    (hz : zone id) (hfind : ∀ {i}, ¬ zone i → ∀ name, RecordStore.find? w'.store name i = RecordStore.find? w.store name i) :
    StaysIn zone w w' :=
  ⟨(Registry.SameBut.of_set hset).mono fun _ _ _ => trivial, .of_set hset hz, hfind⟩

lemma trans (h : StaysIn zone w w') (h' : StaysIn zone w' w'') : StaysIn zone w w'' :=
  ⟨h.places.trans h'.places, h.model.trans h'.model, fun hi name => (h'.find? hi name).trans (h.find? hi name)⟩

end StaysIn

section Writes

variable {zone : EntityId → Prop} {w w' : Workspace (Listing ν) ν} (hn : (w.store.records.map (·.id)).Nodup)
  (hk : w.store.KeepsApart)
include hn hk

lemma Renews.staysIn {d : Attribute} {system : EntityId} (h : Renews d system w w') (hd : d.isDerived = true)
    (hz : zone system) : StaysIn zone w w' ∧ (w'.store.records.map (·.id)).Nodup ∧ w'.store.KeepsApart := by
  refine ⟨?_, h.touches.nodup hn, ?_⟩
  · cases h with
    | same h => exact .of_same h
    | valued hstore hset => exact .of_set hset hz fun _ _ => by rw [hstore]
    | recorded hsaved hset => exact .of_set hset hz fun hi => hsaved.find?_apart hk hn hd fun he => hi (he ▸ hz)
  · cases h with
    | same h => rwa [h.1]
    | valued hstore _ => rwa [hstore]
    | recorded hsaved _ => exact hsaved.keepsApart hk

variable [Number ν]

lemma Wrote.staysIn {config : Config} {id : EntityId} {a : Attribute} {v : ν} (h : Wrote config id a v w w')
    (hz : zone id) (hroot : ∀ system, w.model.rootOf id = .ok system → zone system) :
    StaysIn zone w w' ∧ w'.store.KeepsApart := by
  obtain ⟨system, _, w₁, w₂, w₃, hsystem, hset, hstore, hmass, hweight, hdamping⟩ := h.renews
  have hzone := hroot system hsystem
  have h₁ : StaysIn zone w w₁ := .of_set hset hz fun _ _ => by rw [hstore]
  rw [← hstore] at hn hk
  obtain ⟨h₂, hn₂, hk₂⟩ := hmass.staysIn hn hk rfl hzone
  obtain ⟨h₃, hn₃, hk₃⟩ := hweight.staysIn hn₂ hk₂ rfl hzone
  obtain ⟨h₄, -, hk₄⟩ := hdamping.staysIn hn₃ hk₃ rfl hzone
  exact ⟨((h₁.trans h₂).trans h₃).trans h₄, hk₄⟩

end Writes

namespace Engine

def writtenBy : Except (Error ν) (Outcome ν) → List (Record ν)
  | .ok o => o.updated
  | .error _ => []

structure Confined (g : Engine ν) (system : EntityId) (rs : List (Record ν)) (g' : Engine ν) : Prop where
  coherent : g'.IsCoherent
  config : g'.config = g.config
  staysIn : StaysIn (fun i => g.model.rootOf i = .ok system) g.plainPass.work g'.plainPass.work
  keepsApart : g'.store.listing.KeepsApart
  store : g'.store.listing = rs.foldl (fun l r => l.put r) g.store.listing
  parameters : (rs.map (·.parameter?)).Nodup
  found : ∀ r ∈ rs, ∃ d : Attribute, d.isDerived = true ∧ RecordStore.find? g'.store.listing d.name system = some r

namespace Confined

variable {g g' : Engine ν} {system : EntityId} {rs : List (Record ν)} (h : g.Confined system rs g')
include h

lemma mem {r : Record ν} (hr : r ∈ rs) : r ∈ g'.store.records := by
  obtain ⟨d, -, hfound⟩ := h.found r hr
  exact (Listing.mem_of_find? hfound).1

lemma ids_nodup : (rs.map (·.id)).Nodup :=
  h.parameters.of_map.map_on fun _ hr _ hr' hid =>
    List.inj_on_of_nodup_map h.coherent.sound.ids_nodup (h.mem hr) (h.mem hr') hid

end Confined

lemma setAttribute_confined [Number ν] {g : Engine ν} (h : g.IsCoherent) (hk : g.store.listing.KeepsApart)
    {id system : EntityId} (hroot : g.model.rootOf id = .ok system) (a : Attribute) (v : ν) :
    g.Confined system (writtenBy (g.setAttribute id a v).1) (g.setAttribute id a v).2 := by
  have hcoherent : (g.setAttribute id a v).2.IsCoherent := respond_isCoherent h (.setAttribute id a v)
  rcases hp : (Pass.write g.config id a v).start g.plainPass with ⟨e | old, p⟩
  · obtain ⟨g', hset, hold, -⟩ := setAttribute_error h.sound hp
    rw [hset] at hcoherent ⊢
    have hlisting : g'.store.listing = g.store.listing := hold.store.listing
    exact ⟨hcoherent, hold.config, .of_same ⟨hlisting, hold.model⟩, hlisting ▸ hk, hlisting, List.nodup_nil,
      fun r hr => absurd hr List.not_mem_nil⟩
  · obtain ⟨g', hset, hold⟩ := setAttribute_ok h.sound hp
    rw [hset] at hcoherent ⊢
    have hwrites := Pass.write_ok g.config id a v g.plainPass old p (.refl _) hp
    obtain ⟨system', hroot', -, haccounts⟩ := hwrites.accounts h.sound.ids_nodup rfl
    obtain rfl := Except.ok.inj (hroot'.symm.trans hroot)
    have hzone : ∀ s, g.model.rootOf id = .ok s → g.model.rootOf s = .ok system' := by
      intro s hs
      obtain rfl := Except.ok.inj (hs.symm.trans hroot)
      exact h.tidy.rootOf_root hs
    have hstays : StaysIn (fun i => g.model.rootOf i = .ok system') g.plainPass.work p.work ∧ p.work.store.KeepsApart :=
      hwrites.wrote.staysIn h.sound.ids_nodup hk hroot hzone
    have hlisting : g'.store.listing = p.work.store := hold.store.listing
    refine ⟨hcoherent, hold.config, hstays.1.trans (.of_same ⟨hlisting, hold.model⟩), hlisting ▸ hstays.2,
      hlisting.trans haccounts.store, haccounts.parameters.nodup (by decide), ?_⟩
    intro r hr
    obtain ⟨d, hd, hfound⟩ := haccounts.found r hr
    refine ⟨d, ?_, hlisting ▸ hfound⟩
    revert hd
    cases d <;> decide

end Engine

end Uncertainty
