import Uncertainty.Proofs.Engine.Kin
import Uncertainty.Proofs.Reaction.Twins
import Uncertainty.Proofs.Store.Undo

/-! A write of an attribute is the same write run on the plain list of records, kept if it succeeds and taken back
if it fails. -/

namespace Uncertainty

variable {ν : Type}

lemma map_historyEntry_rename_id (entries : List (HistoryEntry ν)) :
    entries.map (HistoryEntry.rename id) = entries := by
  have he : ∀ entry : HistoryEntry ν, entry.rename id = entry := by
    rintro ⟨rule, parameter, source, derived, expression, mean⟩
    cases source <;> rfl
  exact (List.map_congr_left fun entry _ => he entry).trans (List.map_id entries)

def Journal.twins (base : Listing ν) : Twins (Journal (Store ν) ν) (Listing ν) ν where
  rename := id
  stores := Covers base
  supplies _ a b := a = b
  find? h name entity := (h.stands.answers.find? name entity).symm.trans (Option.map_id_apply).symm
  insert h r := (h.insert r).mono (fun e f he => by rw [StoreError.rename_id, he]) fun _ _ h => h
  update h r := (h.update r).mono (fun e f he => by rw [StoreError.rename_id, he]) fun _ _ h => h
  draw h := ⟨h ▸ rfl, h ▸ rfl⟩
  spare h := h

namespace Engine

def plainPass (g : Engine ν) : Pass (Listing ν) ν := ⟨⟨g.store.listing, g.model, g.supply⟩, g.history, []⟩

structure Holds (g : Engine ν) (config : Config) (p : Pass (Listing ν) ν) : Prop where
  config : g.config = config
  store : Stands g.store p.work.store
  model : g.model = p.work.model
  history : g.history = p.history
  supply : g.supply = p.work.supply

lemma new_ok [IdSource] {config : Config} {g : Engine ν} (h : Engine.new config = .ok g) :
    g = ⟨config, Registry.empty, Store.empty, [], ⟨0⟩⟩ := by
  rw [Engine.new, ofParts, Config.check, Sampling.check] at h
  by_cases hc : config.sampling.isValid = true
  · rw [if_pos hc] at h
    cases h
    rfl
  · rw [if_neg hc] at h
    cases h

variable [Number ν] {g : Engine ν} {entity : EntityId} {a : Attribute} {v old : ν} {e : Error ν}
  {p : Pass (Listing ν) ν}

lemma write_beginPass (h : g.store.Sound) (entity : EntityId) (a : Attribute) (v : ν) :
    Alike (fun e e' => e' = e.rename id) Eq ((Pass.write g.config entity a v).start g.beginPass).1
        ((Pass.write g.config entity a v).start g.plainPass).1 ∧
      (Journal.twins g.store.listing).kin.Passes g.history g.history 0
        ((Pass.write g.config entity a v).start g.beginPass).2
        ((Pass.write g.config entity a v).start g.plainPass).2 := by
  have hw : (Journal.twins g.store.listing).kin.Passes g.history g.history 3 g.beginPass g.plainPass :=
    ⟨⟨Covers.ofStore h, rfl, rfl⟩, rfl, [], (List.append_nil _).symm, (List.append_nil _).symm⟩
  exact Kin.Step.write g.config entity trivial a v 0 _ _ hw

lemma setAttribute_ok (h : g.store.Sound) (hp : (Pass.write g.config entity a v).start g.plainPass = (.ok old, p)) :
    ∃ g', g.setAttribute entity a v = (.ok ⟨old, p.updated⟩, g') ∧ g'.Holds g.config p := by
  have hw := write_beginPass h entity a v
  rw [hp] at hw
  rcases hj : (Pass.write g.config entity a v).start g.beginPass with ⟨x, q⟩
  rw [hj] at hw
  obtain ⟨hx, ⟨hstore, hmodel, hsupply⟩, hupdated, news, hq, hnews⟩ := hw
  cases hx with
  | ok ho =>
    have hupdated := hupdated.trans (map_rename_id q.updated)
    have hhistory := hnews.trans (congrArg (g.history ++ ·) (map_historyEntry_rename_id news))
    refine ⟨g.commit q, ?_, rfl, hstore.stands, hmodel.symm, hq.trans hhistory.symm, hsupply⟩
    rw [setAttribute, hj]
    exact congrArg (fun o => (Except.ok o, _)) (congrArg₂ Outcome.mk ho hupdated.symm)

lemma setAttribute_error (h : g.store.Sound) (hp : (Pass.write g.config entity a v).start g.plainPass = (.error e, p)) :
    ∃ g', g.setAttribute entity a v = (.error e, g') ∧
      g'.Holds g.config { g.plainPass with work := { g.plainPass.work with supply := p.work.supply } } ∧
      (g.rollback ((Pass.write g.config entity a v).start g.beginPass).2).1 = .ok () := by
  have hw := write_beginPass h entity a v
  rw [hp] at hw
  rcases hj : (Pass.write g.config entity a v).start g.beginPass with ⟨x, q⟩
  rw [hj] at hw
  obtain ⟨hx, ⟨hstore, hmodel, hsupply⟩, hupdated, news, hq, hnews⟩ := hw
  cases hx with
  | error he =>
    obtain ⟨hundone, hbase⟩ := hstore.rollback
    refine ⟨(g.rollback q).2, ?_, ⟨rfl, hbase, rfl, ?_, hsupply⟩, hundone⟩
    · rw [setAttribute, hj, he]
      dsimp only
      change (g.rollback q).1 = _ at hundone
      revert hundone
      rcases g.rollback q with ⟨undone, g'⟩
      rintro rfl
      exact congrArg (fun e => (Except.error e, g')) (Error.rename_id _).symm
    · change q.history.take g.history.length = g.history
      rw [hq, List.take_left]

end Engine

end Uncertainty
