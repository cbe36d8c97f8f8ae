import Uncertainty.Proofs.Engine.Rollback
import Uncertainty.Proofs.Store.Renaming

namespace Uncertainty

open Equiv

variable {ν : Type}

def Listing.twins (ρ : Perm RecordId) : Twins (Listing ν) (Listing ν) ν where
  rename := ρ
  stores l m := m = l.rename ρ
  supplies k a b := ∀ i < k, b.nth i = ρ (a.nth i)
  find? h name id := h ▸ Listing.find?_rename ρ _ name id
  insert h r := h ▸ Listing.insert_rename ρ _ r
  update h r := h ▸ Listing.update_rename ρ _ r
  draw h := by
    refine ⟨h 0 (by omega), ?_⟩
    intro i hi
    have hnext := h (i + 1) (by omega)
    rwa [Nat.add_comm, ← IdSupply.nth_skip, ← IdSupply.nth_skip] at hnext
  spare h i hi := h i (by omega)

namespace Engine

lemma checkRecord_error {g : Engine ν} {r : Record ν} {e : Error ν} (h : g.checkRecord r = .error e)
    (f : RecordId → RecordId) : e.rename f = e := by
  rw [checkRecord] at h
  cases hp : r.parameter? with
  | none => simp [hp, pure, Except.pure] at h
  | some name =>
    simp only [hp] at h
    cases ha : Attribute.ofName? name with
    | none =>
      simp only [ha] at h
      cases h
      rfl
    | some a =>
      simp only [ha] at h
      cases hs : g.checkSupport a r.location.referenced with
      | ok u => simp [hs, Except.mapError] at h
      | error m =>
        rw [hs] at h
        cases h
        rfl

/-- The engines differ in ids only, and will for the next `k` ids that they draw. -/
structure Tracks (ρ : Perm RecordId) (past : List (HistoryEntry ν)) (k : Nat) (g g' : Engine ν) : Prop where
  config : g'.config = g.config
  model : g'.model = g.model
  sound : g.store.Sound
  store : Stands g'.store (g.store.listing.rename ρ)
  history : ∃ news, g.history = past ++ news ∧ g'.history = past ++ news.map (HistoryEntry.rename ρ)
  supply : (Listing.twins (ν := ν) ρ).supplies k g.supply g'.supply

namespace Tracks

variable {ρ : Perm RecordId} {past : List (HistoryEntry ν)} {k : Nat} {g g' : Engine ν}

lemma sameUpTo (h : Tracks ρ past k g g') : SameUpTo ρ past g g' :=
  ⟨h.config, h.model, h.store.answers, h.history⟩

lemma spare (h : Tracks ρ past (k + 3) g g') : Tracks ρ past k g g' :=
  ⟨h.config, h.model, h.sound, h.store, h.history, fun i hi => h.supply i (by omega)⟩

lemma checkRecord (h : Tracks ρ past k g g') (r : Record ν) : g'.checkRecord (r.rename ρ) = g.checkRecord r := by
  have hs : ∀ a ids, g'.checkSupport a ids = g.checkSupport a ids := by
    intro a ids
    induction ids with
    | nil => rfl
    | cons id ids ih => rw [checkSupport, checkSupport, h.model, ih]
  have hp : (r.rename ρ).parameter? = r.parameter? := rfl
  have hl : (r.rename ρ).location = r.location := rfl
  simp only [Engine.checkRecord, hp, hl, hs]

lemma of_holds {c c' : Config} {p p' : Pass (Listing ν) ν} (hold : g.Holds c p) (hold' : g'.Holds c' p')
    (hc : c' = c) (h : (Listing.twins ρ).kin.Passes past past k p p') : Tracks ρ past k g g' := by
  obtain ⟨⟨hstore, hmodel, hsupply⟩, -, news, hnews, hnews'⟩ := h
  refine ⟨?_, ?_, hold.store.sound, ?_, ⟨news, ?_, ?_⟩, ?_⟩
  · rw [hold'.config, hold.config, hc]
  · rw [hold'.model, hold.model, hmodel]
  · rw [hold.store.listing, ← hstore]
    exact hold'.store
  · rw [hold.history, hnews]
  · rw [hold'.history, hnews']
    rfl
  · rw [hold.supply, hold'.supply]
    exact hsupply

variable [Number ν]

lemma addEntity (h : Tracks ρ past k g g') (kind : EntityKind) (container : Option EntityId) :
    (g'.respond (.addEntity kind container)).1 = (g.respond (.addEntity kind container)).1.rename ρ ∧
      Tracks ρ past k (g.respond (.addEntity kind container)).2 (g'.respond (.addEntity kind container)).2 := by
  rw [respond, respond, Engine.addEntity, Engine.addEntity, h.model]
  cases g.model.insert kind container with
  | error e => exact ⟨rfl, h⟩
  | ok m => exact ⟨rfl, h.config, rfl, h.sound, h.store, h.history, h.supply⟩

lemma annotate (h : Tracks ρ past k g g') (r : Record ν) :
    (g'.respond (.annotate (r.rename ρ))).1 = (g.respond (.annotate r)).1.rename ρ ∧
      Tracks ρ past k (g.respond (.annotate r)).2 (g'.respond (.annotate (r.rename ρ))).2 := by
  have hleft := (Stands.mk h.sound rfl).insertIfAbsent r
  have hright := h.store.insertIfAbsent (r.rename ρ)
  rw [Listing.insertIfAbsent_rename] at hright
  rw [respond, respond, Engine.annotate, Engine.annotate, h.checkRecord]
  cases hc : g.checkRecord r with
  | error e => exact ⟨congrArg (fun e => Reply.added (.error e)) (checkRecord_error hc ρ).symm, h⟩
  | ok u =>
    refine ⟨?_, h.config, h.model, hleft.2.sound, ?_, h.history, h.supply⟩
    · exact congrArg (fun b => Reply.added (.ok b)) (hright.1.trans hleft.1.symm)
    · have hl := hleft.2.listing
      exact hl ▸ hright.2

lemma setAttribute (h : Tracks ρ past (k + 3) g g') (entity : EntityId) (a : Attribute) (v : ν) :
    (g'.respond (.setAttribute entity a v)).1 = (g.respond (.setAttribute entity a v)).1.rename ρ ∧
      Tracks ρ past k (g.respond (.setAttribute entity a v)).2 (g'.respond (.setAttribute entity a v)).2 := by
  obtain ⟨news, hpast, hpast'⟩ := h.history
  have hp : (Listing.twins ρ).kin.Passes past past (k + 3) g.plainPass g'.plainPass :=
    ⟨⟨h.store.listing, h.model, h.supply⟩, rfl, news, hpast, hpast'⟩
  have hw := Kin.Step.write g.config entity trivial a v k _ _ hp
  rw [respond, respond]
  rcases hg : (Pass.write g.config entity a v).start g.plainPass with ⟨x, p⟩
  rcases hg' : (Pass.write g'.config entity a v).start g'.plainPass with ⟨y, p'⟩
  rw [hg, ← h.config, hg'] at hw
  obtain ⟨hxy, hpass⟩ := hw
  cases hxy with
  | ok hv =>
    obtain ⟨_, hset, hold⟩ := setAttribute_ok h.sound hg
    obtain ⟨_, hset', hold'⟩ := setAttribute_ok h.store.sound hg'
    rw [hset, hset']
    exact ⟨congrArg (fun o => Reply.outcome (.ok o)) (congrArg₂ Outcome.mk hv.symm hpass.updated),
      of_holds hold hold' h.config hpass⟩
  | error he =>
    obtain ⟨_, hset, hold, -⟩ := setAttribute_error h.sound hg
    obtain ⟨_, hset', hold', -⟩ := setAttribute_error h.store.sound hg'
    rw [hset, hset']
    exact ⟨congrArg (fun e => Reply.outcome (.error e)) he,
      of_holds hold hold' h.config ⟨⟨hp.work.store, hp.work.model, hpass.work.supply⟩, hp.updated, hp.history⟩⟩

lemma respond (h : Tracks ρ past (k + 3) g g') (q : Request ν) :
    (g'.respond (q.rename ρ)).1 = (g.respond q).1.rename ρ ∧
      Tracks ρ past k (g.respond q).2 (g'.respond (q.rename ρ)).2 := by
  cases q with
  | addEntity kind container => exact h.spare.addEntity kind container
  | annotate r => exact h.spare.annotate r
  | setAttribute entity a v => exact h.setAttribute entity a v

lemma serve (qs : List (Request ν)) (h : Tracks ρ past (3 * qs.length) g g') :
    (serve (qs.map (Request.rename ρ)) g').1 = (serve qs g).1.map (Reply.rename ρ) ∧
      SameUpTo ρ past (serve qs g).2 (serve (qs.map (Request.rename ρ)) g').2 := by
  induction qs generalizing g g' with
  | nil => exact ⟨rfl, h.sameUpTo⟩
  | cons q qs ih =>
    obtain ⟨hreply, hnext⟩ := respond (k := 3 * qs.length) h q
    obtain ⟨hreplies, hlast⟩ := ih hnext
    exact ⟨congrArg₂ List.cons hreply hreplies, hlast⟩

end Tracks

end Engine

end Uncertainty
