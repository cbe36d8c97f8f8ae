import Uncertainty.Engine.Session
import Uncertainty.Proofs.Engine.Rollback

namespace Uncertainty

open Attempt Workspace Reaction

variable {ν : Type}

lemma Reaction.derivedRecord_rename (f : RecordId → RecordId) (d : Attribute) (container : EntityId)
    (template : Record ν) (id : RecordId) (e : Expression ν) :
    derivedRecord d container (template.rename f) (f id) e = (derivedRecord d container template id e).rename f := rfl

namespace Engine

/-- The first `i` ids are drawn, and no other records are there than those of the engine and some under these ids. -/
structure Draws (g : Engine ν) (i : Nat) (w : Workspace (Listing ν) ν) : Prop where
  supply : w.supply = g.supply.skip i
  nodup : (w.store.records.map (·.id)).Nodup
  ids : ∀ r ∈ w.store.records, (∃ a ∈ g.store.records, a.id = r.id) ∨ ∃ j < i, g.supply.nth j = r.id

namespace Draws

variable {g : Engine ν} {i n : Nat} {w : Workspace (Listing ν) ν}

lemma start (h : g.store.Sound) : g.Draws 0 g.plainPass.work :=
  ⟨rfl, h.ids_nodup, fun r hr => .inl ⟨r, hr, rfl⟩⟩

lemma undone (h : g.Draws i w) (hs : g.store.Sound) : g.Draws i { g.plainPass.work with supply := w.supply } :=
  ⟨h.supply, hs.ids_nodup, fun r hr => .inl ⟨r, hr, rfl⟩⟩

lemma unheld (h : g.Draws i w) (hg : g.DrawsApart n) (hi : i < n) : ∀ r ∈ w.store.records, r.id ≠ w.supply.fresh := by
  intro r hr hid
  rw [h.supply] at hid
  rcases h.ids r hr with ⟨a, ha, hra⟩ | ⟨j, hj, hrj⟩
  · exact hg.unused a ha (List.mem_map.mpr ⟨i, List.mem_range.mpr hi, (hra.trans hid).symm⟩)
  · have hij : j = i := List.inj_on_of_nodup_map hg.nodup (List.mem_range.mpr (hj.trans hi)) (List.mem_range.mpr hi)
      (hrj.trans hid)
    omega

lemma update (h : g.Draws i w) {l : Listing ν} (hids : l.records.map (·.id) = w.store.records.map (·.id)) :
    g.Draws i { w with store := l } := by
  refine ⟨h.supply, hids ▸ h.nodup, fun r hr => ?_⟩
  have hmem : r.id ∈ w.store.records.map (·.id) := hids ▸ List.mem_map_of_mem hr
  obtain ⟨a, ha, hid⟩ := List.mem_map.mp hmem
  exact hid ▸ h.ids a ha

lemma insert (h : g.Draws i w) (hg : g.DrawsApart n) (hi : i < n) {r : Record ν} (hr : r.id = w.supply.fresh) :
    g.Draws (i + 1) { w with store := w.store.append r, supply := w.supply.next } := by
  refine ⟨?_, Listing.nodup_append h.nodup (hr ▸ h.unheld hg hi), ?_⟩
  · rw [h.supply]
    rfl
  · intro a ha
    rcases List.mem_append.mp ha with ha | ha
    · refine (h.ids a ha).imp_right ?_
      rintro ⟨j, hj, hid⟩
      exact ⟨j, by omega, hid⟩
    · obtain rfl := List.mem_singleton.mp ha
      refine .inr ⟨i, Nat.lt_succ_self i, ?_⟩
      rw [hr, h.supply]
      exact (g.supply.nth_skip i 0).symm

end Draws

/-- The workspaces of two engines after the same work: they have the zone in common, and ids of as many as may still be
drawn were left. -/
structure Kindred (ρ : Equiv.Perm RecordId) (zone : EntityId → Prop) (g g' : Engine ν) (k : Nat)
    (w w' : Workspace (Listing ν) ν) : Prop where
  shares : w.model.Shares zone w'.model
  find? : ∀ {id}, zone id → ∀ name,
    RecordStore.find? w'.store name id = (RecordStore.find? w.store name id).map (Record.rename ρ)
  draws : ∃ i, i + k ≤ 3 ∧ g.Draws i w ∧ g'.Draws i w'

namespace Kindred

variable {ρ : Equiv.Perm RecordId} {zone : EntityId → Prop} {g g' : Engine ν} {k : Nat} {w w' : Workspace (Listing ν) ν}

lemma set (h : Kindred ρ zone g g' k w w') {id : EntityId} (hz : zone id) (a : Attribute) (v : ν) :
    Alike Eq (fun x y => y.1 = x.1 ∧ Kindred ρ zone g g' k { w with model := x.2 } { w' with model := y.2 })
      (w.model.set id a v) (w'.model.set id a v) := by
  refine (h.shares.set hz a v).mono (fun _ _ he => he) ?_
  rintro x y ⟨hv, hshares⟩
  obtain ⟨i, hi, hw, hw'⟩ := h.draws
  exact ⟨hv, hshares, h.find?, i, hi, ⟨hw.supply, hw.nodup, hw.ids⟩, ⟨hw'.supply, hw'.nodup, hw'.ids⟩⟩

variable {d : Attribute} {container : EntityId}

lemma update (h : Kindred ρ zone g g' k w w') (hz : zone container) {old : Record ν}
    (hfind : RecordStore.find? w.store d.name container = some old) (e : Expression ν) :
    ∃ l l', w.store.update (old.withExpression e) = .ok l ∧
      w'.store.update ((old.rename ρ).withExpression e) = .ok l' ∧
      Kindred ρ zone g g' k { w with store := l } { w' with store := l' } := by
  have hfind' : RecordStore.find? w'.store d.name container = some (old.rename ρ) := by
    rw [h.find? hz, hfind]
    rfl
  obtain ⟨hold, -⟩ := Listing.mem_of_find? hfind
  obtain ⟨hold', -⟩ := Listing.mem_of_find? hfind'
  obtain ⟨l, hl⟩ := Listing.exists_update_of_mem (r := old.withExpression e) hold rfl
  obtain ⟨l', hl'⟩ := Listing.exists_update_of_mem (r := (old.rename ρ).withExpression e) hold' rfl
  obtain ⟨i, hi, hw, hw'⟩ := h.draws
  refine ⟨l, l', hl, hl', h.shares, ?_, i, hi, hw.update (Listing.ids_update hl), hw'.update (Listing.ids_update hl')⟩
  intro id hid name
  rw [Listing.find?_withExpression hw.nodup hold hl, Listing.find?_withExpression hw'.nodup hold' hl', h.find? hid,
    Option.map_map, Option.map_map]
  congr 1
  funext a
  simp only [Function.comp_apply, Record.rename_id, ρ.injective.eq_iff]
  split <;> rfl

variable (d container) in
lemma insert (h : Kindred ρ zone g g' (k + 1) w w') (hg : g.DrawsApart 3) (hg' : g'.DrawsApart 3)
    (hρ : ∀ i < 3, g'.supply.nth i = ρ (g.supply.nth i)) (template : Record ν) (e : Expression ν) :
    let r := derivedRecord d container template w.supply.fresh e
    w.store.insert r = .ok (w.store.append r) ∧ w'.store.insert (r.rename ρ) = .ok (w'.store.append (r.rename ρ)) ∧
      w'.supply.fresh = ρ w.supply.fresh ∧
      Kindred ρ zone g g' k { w with store := w.store.append r, supply := w.supply.next }
        { w' with store := w'.store.append (r.rename ρ), supply := w'.supply.next } := by
  intro r
  obtain ⟨i, hi, hw, hw'⟩ := h.draws
  have hlt : i < 3 := by omega
  have hfresh : w'.supply.fresh = ρ w.supply.fresh := by
    rw [hw.supply, hw'.supply]
    exact hρ i hlt
  have hr' : (r.rename ρ).id = w'.supply.fresh := hfresh.symm
  refine ⟨Listing.insert_of_unheld (hw.unheld hg hlt), Listing.insert_of_unheld (hr' ▸ hw'.unheld hg' hlt), hfresh,
    h.shares, ?_, i + 1, by omega, hw.insert hg hlt rfl, hw'.insert hg' hlt hr'⟩
  intro id hid name
  rw [Listing.find?_append, Listing.find?_append, h.find? hid, Option.map_or]
  congr 1
  by_cases hd : r.describes name id = true
  · rw [Record.rename_describes, if_pos hd, if_pos hd, Option.map_some]
  · rw [Record.rename_describes, if_neg hd, if_neg hd, Option.map_none]

variable (ρ zone) in
abbrev kin (hg : g.DrawsApart 3) (hg' : g'.DrawsApart 3) (hρ : ∀ i < 3, g'.supply.nth i = ρ (g.supply.nth i)) :
    Kin (Listing ν) (Listing ν) ν where
  rename := ρ
  zone := zone
  fails e e' := e' = e
  works := Kindred ρ zone g g'
  spare h := by
    obtain ⟨i, hi, hw, hw'⟩ := h.draws
    exact ⟨h.shares, h.find?, i, by omega, hw, hw'⟩
  fails_refl _ := rfl
  shares h := h.shares
  find? h hz := h.find? hz
  save {w w' container existing derived} hz hfind template e k h := by
    cases existing with
    | some old =>
      obtain ⟨l, l', hl, hl', hnext⟩ := h.update hz hfind e
      rw [saveExpression_update hl template, Option.map_some, saveExpression_update hl' (template.rename ρ)]
      exact ⟨.ok rfl, hnext⟩
    | none =>
      obtain ⟨hl, hl', hfresh, hnext⟩ := h.insert derived container hg hg' hρ template e
      rw [← derivedRecord_rename, ← hfresh] at hl'
      rw [Option.map_none, saveExpression_insert hl, saveExpression_insert hl', hfresh, derivedRecord_rename]
      exact ⟨.ok rfl, hnext⟩
  set {id} hz a v := by
    apply Sim.step
    intro k w w' h
    have hset := h.set hz a v
    dsimp only
    revert hset
    generalize w.model.set id a v = x
    generalize w'.model.set id a v = y
    rintro (⟨hv, hnext⟩ | ⟨he⟩)
    · exact .ok ⟨hv.symm, hnext⟩
    · exact .error (congrArg Error.model he.symm)

end Kindred

lemma Holds.work {g : Engine ν} {config : Config} {p : Pass (Listing ν) ν} (h : g.Holds config p) :
    g.plainPass.work = p.work := by
  rcases p with ⟨⟨s, m, supply⟩, history, updated⟩
  obtain ⟨-, ⟨-, rfl⟩, rfl, -, rfl⟩ := h
  rfl

variable [Number ν] {g g' : Engine ν} {ρ : Equiv.Perm RecordId} {zone : EntityId → Prop}

lemma setAttribute_kindred (hs : g.store.Sound) (hs' : g'.store.Sound) (hconfig : g'.config = g.config)
    (hg : g.DrawsApart 3) (hg' : g'.DrawsApart 3) (hρ : ∀ i < 3, g'.supply.nth i = ρ (g.supply.nth i))
    (h : Kindred ρ zone g g' 3 g.plainPass.work g'.plainPass.work) {id : EntityId} (hz : zone id) (a : Attribute)
    (v : ν) :
    (g'.setAttribute id a v).1 = (g.setAttribute id a v).1.map (Outcome.rename ρ) ∧
      Kindred ρ zone g g' 0 (g.setAttribute id a v).2.plainPass.work (g'.setAttribute id a v).2.plainPass.work := by
  have hp : (Kindred.kin ρ zone hg hg' hρ).Passes g.history g'.history 3 g.plainPass g'.plainPass :=
    ⟨h, rfl, [], (List.append_nil _).symm, (List.append_nil _).symm⟩
  have hw := Kin.Step.write g.config id hz a v 0 _ _ hp
  rcases hrun : (Pass.write g.config id a v).start g.plainPass with ⟨x, p⟩
  rcases hrun' : (Pass.write g'.config id a v).start g'.plainPass with ⟨y, p'⟩
  rw [hrun, ← hconfig, hrun'] at hw
  obtain ⟨hxy, hpass⟩ := hw
  cases hxy with
  | ok hv =>
    obtain ⟨_, hset, hold⟩ := setAttribute_ok hs hrun
    obtain ⟨_, hset', hold'⟩ := setAttribute_ok hs' hrun'
    rw [hset, hset', hold.work, hold'.work]
    exact ⟨congrArg Except.ok (congrArg₂ Outcome.mk hv.symm hpass.updated), hpass.work⟩
  | error he =>
    obtain ⟨_, hset, hold, -⟩ := setAttribute_error hs hrun
    obtain ⟨_, hset', hold', -⟩ := setAttribute_error hs' hrun'
    rw [hset, hset', hold.work, hold'.work]
    -- Records and values are those from before, but ids stay drawn.
    obtain ⟨i, hi, hdraws, hdraws'⟩ := hpass.work.draws
    exact ⟨congrArg Except.error he, h.shares, h.find?, i, hi, hdraws.undone hs, hdraws'.undone hs'⟩

end Engine

end Uncertainty
