import Uncertainty.Number.Binary64
import Uncertainty.Proofs.Engine.Effects

namespace Uncertainty

open Workspace Reaction

variable {ν : Type}

def Record.AppliesTo (r : Record ν) (m : Registry ν) : Prop :=
  ∀ name, r.parameter? = some name → ∃ a, Attribute.ofName? name = some a ∧
    ∀ id ∈ r.location.referenced, ∃ k, m.kind id = .ok k ∧ k.supports a = true

def Listing.AppliesTo (l : Listing ν) (m : Registry ν) : Prop := ∀ r ∈ l.records, r.AppliesTo m

namespace Listing.AppliesTo

variable {l l' : Listing ν} {m m' : Registry ν} {r : Record ν} {d : Attribute} {system : EntityId}

lemma mono (h : l.AppliesTo m) (hk : ∀ i k, m.kind i = .ok k → m'.kind i = .ok k) : l.AppliesTo m' := by
  intro r hr name hname
  obtain ⟨a, ha, hsupports⟩ := h r hr name hname
  refine ⟨a, ha, fun i hi => ?_⟩
  obtain ⟨k, hkind, hka⟩ := hsupports i hi
  exact ⟨k, hk i k hkind, hka⟩

lemma append (h : l.AppliesTo m) (hr : r.AppliesTo m) : (l.append r).AppliesTo m :=
  fun _ hr' => (List.mem_append.mp hr').elim (h _) fun hr' => List.mem_singleton.mp hr' ▸ hr

lemma insert [Number ν] {kind : EntityKind} {container : Option EntityId} {id : EntityId} (h : l.AppliesTo m)
    (hm : m.insert kind container = .ok (id, m')) : l.AppliesTo m' := by
  refine h.mono fun i k hk => ?_
  obtain ⟨e, he, -⟩ := Registry.kind_ok_iff.mp hk
  rw [Registry.kind_insert hm, if_neg (Registry.entity_ne_fresh hm he), hk]

lemma saved {template : Record ν} {e : Expression ν} (h : l.AppliesTo m)
    (hs : Saved d system (RecordStore.find? l d.name system) template e l l')
    (hd : ∃ k, m.kind system = .ok k ∧ k.supports d = true) : l'.AppliesTo m := by
  rcases hs.cases with ⟨old, hold, -, hupdate⟩ | ⟨-, id, rfl, -⟩
  · intro r hr
    obtain ⟨a, ha, ⟨-, rfl⟩ | ⟨-, rfl⟩⟩ := Listing.mem_update hupdate hr
    · exact h old hold
    · exact h r ha
  · refine h.append ?_
    rintro _ ⟨⟩
    refine ⟨d, Attribute.ofName?_name d, fun i hi => ?_⟩
    obtain rfl := List.mem_singleton.mp hi
    exact hd

end Listing.AppliesTo

lemma Renews.appliesTo {d : Attribute} {system : EntityId} {w w' : Workspace (Listing ν) ν} (h : Renews d system w w')
    (ht : w.model.Tidy) (ha : w.store.AppliesTo w.model) :
    w'.store.AppliesTo w'.model := by
  have hstore : w'.store.AppliesTo w.model := by
    cases h with
    | same h => rwa [h.1]
    | valued hstore _ => rwa [hstore]
    | recorded hsaved hset => exact ha.saved hsaved (ht.supports_of_get (Registry.get_of_set hset))
  exact hstore.mono fun i k hk => (h.sameBut.kind i).trans hk

lemma Wrote.appliesTo [Number ν] {config : Config} {id : EntityId} {a : Attribute} {v : ν}
    {w w' : Workspace (Listing ν) ν} (h : Wrote config id a v w w') (ht : w.model.Tidy)
    (ha : w.store.AppliesTo w.model) : w'.model.Tidy ∧ w'.store.AppliesTo w'.model := by
  obtain ⟨_, _, w₁, w₂, w₃, -, hset, hstore, hmass, hweight, hdamping⟩ := h.renews
  have ht₁ := ht.set hset
  have ha₁ : w₁.store.AppliesTo w₁.model := by
    rw [hstore]
    exact ha.mono fun i k hk => (Registry.kind_set hset i).trans hk
  have ht₂ := hmass.touches.tidy ht₁
  have ht₃ := hweight.touches.tidy ht₂
  have ha₃ := hweight.appliesTo ht₂ (hmass.appliesTo ht₁ ha₁)
  exact ⟨hdamping.touches.tidy ht₃, hdamping.appliesTo ht₃ ha₃⟩

namespace Engine

variable {g : Engine ν}

lemma checkSupport_ok {a : Attribute} {ids : List EntityId} (h : g.checkSupport a ids = .ok ()) :
    ∀ id ∈ ids, ∃ k, g.model.kind id = .ok k ∧ k.supports a = true := by
  induction ids with
  | nil => exact fun _ hid => absurd hid List.not_mem_nil
  | cons id ids ih =>
    rw [checkSupport] at h
    obtain ⟨k, hk, hrest⟩ := exists_of_bind_ok h
    split at hrest
    · exact List.forall_mem_cons.mpr ⟨⟨k, hk, ‹_›⟩, ih hrest⟩
    · cases hrest

lemma checkRecord_ok {r : Record ν} (h : g.checkRecord r = .ok ()) : r.AppliesTo g.model := by
  intro name hname
  rw [checkRecord, hname] at h
  dsimp only at h
  cases ha : Attribute.ofName? name with
  | none =>
    rw [ha] at h
    cases h
  | some a =>
    rw [ha] at h
    exact ⟨a, rfl, checkSupport_ok (ok_of_mapError_ok h)⟩

variable [Number ν]

structure IsCoherent (g : Engine ν) : Prop where
  sound : g.store.Sound
  tidy : g.model.Tidy
  applies : g.store.listing.AppliesTo g.model

lemma Does.coherent (ht : g.model.Tidy) (ha : g.store.listing.AppliesTo g.model) {q : Request ν} {l : Listing ν}
    {m : Registry ν} (h : g.Does q l m) : m.Tidy ∧ l.AppliesTo m := by
  cases h with
  | entered hm => exact ⟨ht.insert hm, ha.insert hm⟩
  | noted hcheck _ => exact ⟨ht, ha.append (checkRecord_ok hcheck)⟩
  | wrote _ hwrote => exact hwrote.appliesTo ht ha
  | unentered | unnoted | unwritten => exact ⟨ht, ha⟩

lemma respond_isCoherent (h : g.IsCoherent) (q : Request ν) : (g.respond q).2.IsCoherent := by
  obtain ⟨hsound, -, hdoes⟩ := respond_does h.sound q
  obtain ⟨htidy, happlies⟩ := hdoes.coherent h.tidy h.applies
  exact ⟨hsound, htidy, happlies⟩

lemma Reachable.isCoherent (h : g.Reachable) : g.IsCoherent := by
  obtain ⟨_, config, g₀, qs, hnew, rfl⟩ := h
  have hstart : g₀.IsCoherent := by
    obtain rfl := new_ok hnew
    exact ⟨Store.sound_empty, .empty, fun _ hr => absurd hr List.not_mem_nil⟩
  exact serve_keeps (I := IsCoherent) (P := fun _ => True) (fun h _ => respond_isCoherent h _) qs hstart
    fun _ _ => trivial

/-- After any requests, failed ones included, each record that names a parameter names a known attribute, and refers to
entities that exist and have it. An annotation that is refused, or is of a record there already, changes nothing. -/
theorem records_apply_to_model [IdSource] {config : Config} {g₀ : Engine ν} (hnew : Engine.new config = .ok g₀)
    (qs : List (Request ν)) :
    let g := (serve qs g₀).2
    (∀ r ∈ g.store.records, r.AppliesTo g.model) ∧
      ∀ r : Record ν, (g.respond (.annotate r)).1 ≠ .added (.ok true) → (g.respond (.annotate r)).2 = g := by
  intro g
  refine ⟨(Reachable.isCoherent ⟨_, config, g₀, qs, hnew, rfl⟩).applies, fun r hr => ?_⟩
  revert hr
  rw [respond, Engine.annotate]
  cases g.checkRecord r with
  | error e => exact fun _ => rfl
  | ok u =>
    change Reply.added (.ok (g.store.insertIfAbsent r).1) ≠ _ → { g with store := (g.store.insertIfAbsent r).2 } = g
    rw [Store.insertIfAbsent]
    intro hr
    split
    · rfl
    · rw [if_neg ‹_›] at hr
      exact absurd rfl hr

def linkRecord : Record Float where
  id := ⟨0, 1⟩
  kind := default
  nature := default
  reducibility := default
  onDelete := default
  setManually := true
  location := Location.ofAttribute .crossLinkMass [⟨1⟩]
  effect := some { expression := some (.distribution (.normal 5 1)) }
  pattern := none
  perspective := none
  source := none

def linkNoted : List (Request Float) :=
  [.addEntity .damperSystem none, .addEntity .upperTruss (some ⟨0⟩), .annotate linkRecord,
    .setAttribute ⟨1⟩ .crossLinkMass 5, .setAttribute ⟨0⟩ .crossLinkMass 5]

theorem linkNoted_records_apply :
    let g := (serve linkNoted (⟨{}, Registry.empty, Store.empty, [], ⟨0⟩⟩ : Engine Float)).2
    let r := { linkRecord with id := ⟨0, 2⟩, location := Location.ofAttribute .crossLinkMass [⟨1⟩, ⟨0⟩] }
    g.store.records.map (·.parameter?) = [some "crossLinkMassInKg", some "totalMassInKg", some "totalWeightInKg"] ∧
      (∀ r ∈ g.store.records, r.AppliesTo g.model) ∧ (g.respond (.annotate r)).2 = g ∧
      (g.respond (.annotate linkRecord)).2 = g := by
  intro g r
  have hnew : Engine.new {} = .ok (⟨{}, Registry.empty, Store.empty, [], ⟨0⟩⟩ : Engine Float) := rfl
  obtain ⟨happlies, hrefused⟩ := records_apply_to_model hnew linkNoted
  have hreply (r : Record Float) (hr : (match (g.respond (.annotate r)).1 with
      | .added (.ok added) => added
      | _ => false) = false) : (g.respond (.annotate r)).1 ≠ .added (.ok true) := by
    intro h
    rw [h] at hr
    cases hr
  exact ⟨by decide +kernel, happlies, hrefused r (hreply r (by decide +kernel)),
    hrefused linkRecord (hreply linkRecord (by decide +kernel))⟩

end Engine

end Uncertainty
