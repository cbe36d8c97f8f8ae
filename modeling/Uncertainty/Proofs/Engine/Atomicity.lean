import Uncertainty.Number.Binary64
import Uncertainty.Proofs.Engine.Effects
import Uncertainty.Proofs.Engine.Renaming

namespace Uncertainty

variable {ν : Type}

namespace Engine

lemma new_sound [IdSource] {config : Config} {g : Engine ν} (h : Engine.new config = .ok g) : g.store.Sound := by
  obtain rfl := new_ok h
  exact Store.sound_empty

section Soundness

variable [Number ν] {g : Engine ν}

lemma serve_sound (qs : List (Request ν)) (h : g.store.Sound) : (serve qs g).2.store.Sound :=
  serve_keeps (I := fun g => g.store.Sound) (P := fun _ => True) (fun h _ => (respond_does h _).1) qs h fun _ _ => trivial

lemma Reachable.sound (h : g.Reachable) : g.store.Sound := by
  obtain ⟨_, config, g₀, qs, hnew, rfl⟩ := h
  exact serve_sound qs (new_sound hnew)

end Soundness

lemma upcoming_injective {s : IdSupply} {n : Nat} (h : (s.upcoming n).Nodup) :
    ∀ i < n, ∀ j < n, s.nth i = s.nth j → i = j := by
  intro i hi j hj he
  exact List.inj_on_of_nodup_map h (List.mem_range.mpr hi) (List.mem_range.mpr hj) he

lemma mem_upcoming {s : IdSupply} {n i : Nat} (hi : i < n) : s.nth i ∈ s.upcoming n :=
  List.mem_map.mpr ⟨i, List.mem_range.mpr hi, rfl⟩

lemma DrawsApart.exists_renaming {g g' : Engine ν} {n : Nat} (h : g.DrawsApart n) (h' : g'.DrawsApart n) :
    ∃ ρ : Equiv.Perm RecordId,
      (∀ i < n, g'.supply.nth i = ρ (g.supply.nth i)) ∧
      ∀ id, id ∉ g.supply.upcoming n → id ∉ g'.supply.upcoming n → ρ id = id := by
  obtain ⟨ρ, hρ, hfix⟩ := exists_perm _ _ n (upcoming_injective h.nodup) (upcoming_injective h'.nodup)
  refine ⟨ρ, fun i hi => (hρ i hi).symm, ?_⟩
  intro id hid hid'
  exact hfix id fun i hi => ⟨fun he => hid (he ▸ mem_upcoming hi), fun he => hid' (he ▸ mem_upcoming hi)⟩

variable [Number ν]

/-- The engine after a write that failed is the one before, but for the ids drawn. It answers all later requests as
that one would, with other ids for new records. -/
theorem failed_write_leaves_no_trace {g : Engine ν} (hg : g.Reachable) {entity : EntityId} {a : Attribute} {v : ν}
    {e : Error ν} (he : (g.setAttribute entity a v).1 = .error e) :
    let g' := (g.setAttribute entity a v).2
    (g.rollback ((Pass.write g.config entity a v).start g.beginPass).2).1 = .ok () ∧
      g'.config = g.config ∧ g'.model = g.model ∧ g'.history = g.history ∧ SameAnswers g'.store g.store ∧
      ∀ later : List (Request ν), g.DrawsApart (3 * later.length) → g'.DrawsApart (3 * later.length) →
        ∃ ρ : Equiv.Perm RecordId,
          (∀ id, id ∉ g.supply.upcoming (3 * later.length) → id ∉ g'.supply.upcoming (3 * later.length) → ρ id = id) ∧
          (serve (later.map (Request.rename ρ)) g').1 = (serve later g).1.map (Reply.rename ρ) ∧
          SameUpTo ρ g.history (serve later g).2 (serve (later.map (Request.rename ρ)) g').2 := by
  have hs := hg.sound
  rcases hp : (Pass.write g.config entity a v).start g.plainPass with ⟨f | old, p⟩
  · obtain ⟨g', hset, hold, hundone⟩ := setAttribute_error hs hp
    rw [hset]
    have hanswers : SameAnswers g'.store g.store := hold.store.answers.trans (Stands.mk hs rfl).answers.symm
    refine ⟨hundone, hold.config, hold.model, hold.history, hanswers, ?_⟩
    intro later hd hd'
    obtain ⟨ρ, hdraw, hfix⟩ := hd.exists_renaming hd'
    -- The renaming moves no id of a record that is there.
    have hkept : g.store.listing.rename ρ = g.store.listing := by
      have hrecords : g.store.records = g'.store.records := hanswers.records.symm
      exact Listing.rename_eq_self fun r hr => hfix r.id (hd.unused r hr) (hd'.unused r (hrecords ▸ hr))
    have hhistory : g'.history = g.history ++ [] := hold.history.trans (List.append_nil _).symm
    have htracks : Tracks ρ g.history (3 * later.length) g g' :=
      ⟨hold.config, hold.model, hs, hkept.symm ▸ hold.store, ⟨[], (List.append_nil _).symm, hhistory⟩, hdraw⟩
    exact ⟨ρ, hfix, htracks.serve later⟩
  · obtain ⟨g', hset, -⟩ := setAttribute_ok hs hp
    rw [hset] at he
    cases he

def overweight : List (Request Float) :=
  let record (n : UInt64) (a : Attribute) (entity : EntityId) (v : Float) : Record Float :=
    { id := ⟨0, n⟩
      kind := default
      nature := default
      reducibility := default
      onDelete := default
      setManually := true
      location := Location.ofAttribute a [entity]
      effect := some { expression := some (.literal v) }
      pattern := none
      perspective := none
      source := none }
  [.addEntity .damperSystem none, .addEntity .springDamper (some ⟨0⟩),
    .annotate (record 1 .springSupportMass ⟨1⟩ 1e308), .annotate (record 2 .totalWeight ⟨0⟩ 1.7e308)]

theorem failed_weight_leaves_no_trace :
    let g := (serve overweight ⟨{}, Registry.empty, Store.empty, [], ⟨0⟩⟩).2
    let failed := g.setAttribute ⟨1⟩ .springSupportMass 1e308
    let later := [.setAttribute ⟨1⟩ .stiffness 2, .setAttribute ⟨1⟩ .springSupportMass (1 : Float)]
    failed.1.isOk = false ∧ failed.2.supply.drawn = 1 ∧ failed.2.model = g.model ∧ failed.2.history = g.history ∧
      SameAnswers failed.2.store g.store ∧
      ∃ ρ : Equiv.Perm RecordId,
        (serve (later.map (Request.rename ρ)) failed.2).1 = (serve later g).1.map (Reply.rename ρ) := by
  intro g failed later
  have hnew : Engine.new {} = .ok (⟨{}, Registry.empty, Store.empty, [], ⟨0⟩⟩ : Engine Float) := rfl
  have hg : g.Reachable := ⟨_, {}, _, overweight, hnew, rfl⟩
  have hfailed : failed.1.isOk = false := by decide +kernel
  cases he : failed.1 with
  | ok o =>
    rw [he] at hfailed
    cases hfailed
  | error e =>
    obtain ⟨-, -, hmodel, hhistory, hanswers, hlater⟩ := failed_write_leaves_no_trace hg he
    have hapart : g.DrawsApart (3 * later.length) := ⟨by decide +kernel, by decide +kernel⟩
    have hapart' : failed.2.DrawsApart (3 * later.length) := ⟨by decide +kernel, by decide +kernel⟩
    obtain ⟨ρ, -, hreplies, -⟩ := hlater later hapart hapart'
    exact ⟨rfl, by decide +kernel, hmodel, hhistory, hanswers, ρ, hreplies⟩

end Engine

end Uncertainty
