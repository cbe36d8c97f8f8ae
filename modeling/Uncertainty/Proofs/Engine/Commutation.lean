import Uncertainty.Number.Binary64
import Uncertainty.Proofs.Engine.Atomicity
import Uncertainty.Proofs.Engine.Confinement
import Uncertainty.Proofs.Engine.Kindred
import Uncertainty.Proofs.Store.Order

namespace Uncertainty

open Workspace

variable {ν : Type}

section Outcomes

variable {result : Except (Error ν) (Outcome ν)} {f f' : RecordId → RecordId}

lemma map_rename_congr (h : ∀ r ∈ Engine.writtenBy result, f r.id = f' r.id) :
    result.map (Outcome.rename f) = result.map (Outcome.rename f') := by
  cases result with
  | error e => rfl
  | ok o =>
    have hr : o.updated.map (Record.rename f) = o.updated.map (Record.rename f') :=
      List.map_congr_left fun r hr => congrArg (fun id => { r with id := id }) (h r hr)
    exact congrArg (fun rs => Except.ok (Outcome.mk o.old rs)) hr

lemma map_rename_eq_self (h : ∀ r ∈ Engine.writtenBy result, f r.id = r.id) : result.map (Outcome.rename f) = result := by
  have hid : ∀ r ∈ Engine.writtenBy result, f r.id = id r.id := h
  rw [map_rename_congr hid]
  cases result with
  | error e => rfl
  | ok o => exact congrArg (fun rs => Except.ok (Outcome.mk o.old rs)) (map_rename_id o.updated)

lemma map_rename_rename :
    (result.map (Outcome.rename f)).map (Outcome.rename f') = result.map (Outcome.rename (f' ∘ f)) := by
  cases result with
  | error e => rfl
  | ok o => exact congrArg (fun rs => Except.ok (Outcome.mk o.old rs)) List.map_map

lemma writtenBy_rename :
    Engine.writtenBy (result.map (Outcome.rename f)) = (Engine.writtenBy result).map (Record.rename f) := by
  cases result <;> rfl

end Outcomes

namespace Engine

variable {g g₁ : Engine ν}

def KeepsSystemsApart (g : Engine ν) : Prop :=
  ∀ r ∈ g.store.records, ∀ d : Attribute, d.isDerived = true → r.parameter? = some d.name →
    ∀ i ∈ r.location.referenced, ∀ j ∈ r.location.referenced,
      g.model.kind i = .ok .damperSystem → g.model.kind j = .ok .damperSystem → i = j

def created (g : Engine ν) (result : Except (Error ν) (Outcome ν)) : List (Record ν) :=
  g.store.listing.news (writtenBy result)

section Drawing

variable {k n : Nat}

lemma DrawsApart.mono (h : g.DrawsApart n) (hk : k ≤ n) : g.DrawsApart k := by
  have hsub : (g.supply.upcoming k).Sublist (g.supply.upcoming n) :=
    ((List.range_sublist).mpr hk).map _
  exact ⟨h.nodup.sublist hsub, fun r hr hid => h.unused r hr (hsub.subset hid)⟩

lemma Draws.nth (h : g.Draws k g₁.plainPass.work) (i : Nat) : g₁.supply.nth i = g.supply.nth (k + i) := by
  have hsupply : g₁.supply = g.supply.skip k := h.supply
  rw [hsupply, IdSupply.nth_skip]

lemma Draws.drawsApart (h : g.Draws k g₁.plainPass.work) (hg : g.DrawsApart (k + n)) : g₁.DrawsApart n := by
  have hupcoming : g₁.supply.upcoming n = (List.range n).map fun i => g.supply.nth (k + i) :=
    List.map_congr_left fun i _ => h.nth i
  have hinj := upcoming_injective hg.nodup
  refine ⟨?_, fun r hr hid => ?_⟩
  · rw [hupcoming]
    refine List.Nodup.map_on (fun i hi j hj hij => ?_) List.nodup_range
    have := hinj (k + i) (by simpa using hi) (k + j) (by simpa using hj) hij
    omega
  · rw [hupcoming] at hid
    obtain ⟨i, hi, hid⟩ := List.mem_map.mp hid
    rcases h.ids r hr with ⟨a, ha, har⟩ | ⟨j, hj, hjr⟩
    · exact hg.unused a ha (har ▸ hid ▸ mem_upcoming (by simpa using hi))
    · have := hinj j (by omega) (k + i) (by simpa using hi) (hjr.trans hid.symm)
      omega

end Drawing

lemma KeepsSystemsApart.listing (hk : g.KeepsSystemsApart) (h : g.IsCoherent) : g.store.listing.KeepsApart := by
  have hsystem {k : EntityKind} {d : Attribute} (hd : d.isDerived = true) (hs : k.supports d = true) :
      k = .damperSystem := by
    revert hd hs
    cases k <;> cases d <;> decide
  intro r hr d hd hname i hi j hj
  obtain ⟨a, ha, hsupports⟩ := h.applies r hr d.name hname
  obtain rfl := Option.some.inj ((Attribute.ofName?_name d).symm.trans ha)
  obtain ⟨k, hki, hi'⟩ := hsupports i hi
  obtain ⟨k', hkj, hj'⟩ := hsupports j hj
  exact hk r hr d hd hname i hi j hj (hsystem hd hi' ▸ hki) (hsystem hd hj' ▸ hkj)

lemma Confined.kindred {system system' : EntityId} {rs : List (Record ν)} (h : g.IsCoherent)
    (hc : g.Confined system rs g₁) (hne : system ≠ system') {ρ : Equiv.Perm RecordId}
    (hρ : ∀ r ∈ g.store.records, ρ r.id = r.id) :
    Kindred ρ (fun i => g.model.rootOf i = .ok system') g g₁ 3 g.plainPass.work g₁.plainPass.work := by
  have hout {i : EntityId} (hi : g.model.rootOf i = .ok system') : ¬ g.model.rootOf i = .ok system :=
    fun he => hne (Except.ok.inj (he.symm.trans hi))
  refine ⟨h.tidy.shares hc.staysIn.places fun hi => hc.staysIn.model.entity (hout hi), fun {i} hi name => ?_, 0,
    le_rfl, .start h.sound, .start hc.coherent.sound⟩
  rw [hc.staysIn.find? (hout hi)]
  cases hr : RecordStore.find? g.plainPass.work.store name i with
  | none => rfl
  | some r => exact congrArg some (Record.rename_eq_self (hρ r (Listing.mem_of_find? hr).1)).symm

lemma Confined.differIn_after {system system' : EntityId} {us vs : List (Record ν)} {g₂ : Engine ν}
    (hc : g.Confined system us g₁) (hc' : g₁.Confined system' vs g₂) :
    g₁.model.DifferIn (fun i => g.model.rootOf i = .ok system') g₂.model := by
  have hzone (i : EntityId) : g₁.model.rootOf i = g.model.rootOf i := hc.staysIn.places.rootOf i
  have hstays := hc'.staysIn.model
  simp only [hzone] at hstays
  exact hstays

lemma Confined.ids_nodup_append {system system' : EntityId} {us vs : List (Record ν)} {g₂ : Engine ν}
    (hc : g.Confined system us g₁) (hc' : g₁.Confined system' vs g₂) (hne : system ≠ system')
    (hroot : g₁.model.rootOf system = .ok system) : ((us ++ vs).map (·.id)).Nodup := by
  have hout : ¬ g₁.model.rootOf system = .ok system' := fun he => hne (Except.ok.inj (hroot.symm.trans he))
  rw [List.map_append, List.nodup_append]
  refine ⟨hc.ids_nodup, hc'.ids_nodup, ?_⟩
  intro _ hu _ hv hid
  obtain ⟨r, hr, rfl⟩ := List.mem_map.mp hu
  obtain ⟨r', hr', rfl⟩ := List.mem_map.mp hv
  obtain ⟨d, hd, hfound⟩ := hc.found r hr
  obtain ⟨d', hd', hfound'⟩ := hc'.found r' hr'
  have hstays : RecordStore.find? g₂.store.listing d.name system = RecordStore.find? g₁.store.listing d.name system :=
    hc'.staysIn.find? hout d.name
  rw [← hstays] at hfound
  obtain ⟨hmem, hdesc⟩ := Listing.mem_of_find? hfound
  obtain ⟨hmem', hdesc'⟩ := Listing.mem_of_find? hfound'
  obtain rfl := List.inj_on_of_nodup_map hc'.coherent.sound.ids_nodup hmem hmem' hid
  exact hne (hc'.keepsApart.eq_of_describes hmem hd' hdesc' hdesc)

lemma DrawsApart.exists_swap {k k' n : Nat} (hd : g.DrawsApart n) (hk : k + k' ≤ n) :
    ∃ ρ : Equiv.Perm RecordId, (∀ i < k, ρ (g.supply.nth i) = g.supply.nth (k' + i)) ∧
      (∀ i < k', ρ (g.supply.nth (k + i)) = g.supply.nth i) ∧ ∀ id, id ∉ g.supply.upcoming n → ρ id = id := by
  have hinj := upcoming_injective hd.nodup
  obtain ⟨ρ, hρ, hfix⟩ := exists_perm g.supply.nth (fun i => g.supply.nth (if i < k then k' + i else i - k)) (k + k')
    (fun i hi j hj => hinj i (by omega) j (by omega)) fun i hi j hj hij => by
      have := hinj (if i < k then k' + i else i - k) (by split <;> omega) (if j < k then k' + j else j - k)
        (by split <;> omega) hij
      split at this <;> split at this <;> omega
  refine ⟨ρ, fun i hi => ?_, fun i hi => ?_, fun id hid => hfix id fun i hi => ⟨?_, ?_⟩⟩
  · rw [hρ i (by omega), if_pos hi]
  · rw [hρ (k + i) (by omega), if_neg (by omega), Nat.add_sub_cancel_left]
  · rintro rfl
    exact hid (mem_upcoming (by omega))
  · rintro rfl
    exact hid (mem_upcoming (by split <;> omega))

variable [Number ν]

lemma setAttribute_draws {id system : EntityId} (h : g.IsCoherent) (hd : g.DrawsApart 3)
    (hroot : g.model.rootOf id = .ok system) (a : Attribute) (v : ν) :
    ∃ k ≤ 3, g.Draws k (g.setAttribute id a v).2.plainPass.work := by
  have hsame : Kindred (Equiv.refl _) (fun i => g.model.rootOf i = .ok system) g g 3 g.plainPass.work
      g.plainPass.work :=
    ⟨h.tidy.shares (.of_eq rfl) fun _ => rfl, fun _ _ => Option.map_id'.symm, 0, le_rfl,
      .start h.sound, .start h.sound⟩
  obtain ⟨-, hkin⟩ := setAttribute_kindred h.sound h.sound rfl hd hd (fun _ _ => rfl) hsame hroot a v
  obtain ⟨k, hk, hdraws, -⟩ := hkin.draws
  exact ⟨k, hk, hdraws⟩

lemma setAttribute_delayed {system system' : EntityId} {rs : List (Record ν)} (h : g.IsCoherent)
    (hc : g.Confined system rs g₁) (hne : system ≠ system') (hd : g.DrawsApart 6) {k : Nat} (hk : k ≤ 3)
    (hdraws : g.Draws k g₁.plainPass.work) {id : EntityId} (hroot : g.model.rootOf id = .ok system') (a : Attribute)
    (v : ν) :
    ∃ ρ : Equiv.Perm RecordId, (∀ i < 3, ρ (g.supply.nth i) = g.supply.nth (k + i)) ∧
      (∀ r ∈ g.store.records, ρ r.id = r.id) ∧
      (g₁.setAttribute id a v).1 = (g.setAttribute id a v).1.map (Outcome.rename ρ) ∧
      ∀ i, g.model.rootOf i = .ok system' →
        (g₁.setAttribute id a v).2.model.entity i = (g.setAttribute id a v).2.model.entity i := by
  have hd₃ : g.DrawsApart 3 := hd.mono (by omega)
  have hd₁ : g₁.DrawsApart 3 := hdraws.drawsApart (hd.mono (by omega))
  obtain ⟨ρ, hρ, hfix⟩ := hd₃.exists_renaming hd₁
  have hkept : ∀ r ∈ g.store.records, ρ r.id = r.id := by
    refine fun r hr => hfix r.id (hd₃.unused r hr) fun hid => ?_
    obtain ⟨i, hi, hid⟩ := List.mem_map.mp hid
    have hlater : g.supply.nth (k + i) = r.id := (hdraws.nth i).symm.trans hid
    exact hd.unused r hr (hlater ▸ mem_upcoming (by have := List.mem_range.mp hi; omega))
  obtain ⟨houtcome, hkin⟩ := setAttribute_kindred h.sound hc.coherent.sound hc.config hd₃ hd₁ hρ
    (hc.kindred h hne hkept) hroot a v
  exact ⟨ρ, fun i hi => (hρ i hi).symm.trans (hdraws.nth i), hkept, houtcome, fun i hi => hkin.shares.entity hi⟩

/-- Two writes to entities of different systems have the same outcomes in either order, but for the ids of new records,
and lead to the same model. They leave the records that were there in their places, with the same contents, and new ones
behind them in the order of the writes. -/
theorem writes_in_different_systems_commute {g : Engine ν} (hg : g.Reachable) (hk : g.KeepsSystemsApart)
    (hd : g.DrawsApart 6) {id id' system system' : EntityId} (hroot : g.model.rootOf id = .ok system)
    (hroot' : g.model.rootOf id' = .ok system') (hne : system ≠ system') (a a' : Attribute) (v v' : ν) :
    let first := g.setAttribute id a v
    let second := first.2.setAttribute id' a' v'
    let early := g.setAttribute id' a' v'
    let late := early.2.setAttribute id a v
    ∃ ρ : Equiv.Perm RecordId, (∀ r, r ∉ g.supply.upcoming 6 → ρ r = r) ∧
      late.1 = first.1.map (Outcome.rename ρ) ∧ early.1 = second.1.map (Outcome.rename ρ) ∧
      late.2.model = second.2.model ∧
      ∃ kept, kept.map (·.id) = g.store.records.map (·.id) ∧
        second.2.store.records = kept ++ (g.created first.1 ++ g.created second.1) ∧
        late.2.store.records = kept ++ (g.created second.1 ++ g.created first.1).map (Record.rename ρ) := by
  intro first second early late
  have h := hg.isCoherent
  have hapart := hk.listing h
  have hfirst : g.Confined system (writtenBy first.1) first.2 := setAttribute_confined h hapart hroot a v
  have hearly : g.Confined system' (writtenBy early.1) early.2 := setAttribute_confined h hapart hroot' a' v'
  have hzone (i : EntityId) : first.2.model.rootOf i = g.model.rootOf i := hfirst.staysIn.places.rootOf i
  have hzone' (i : EntityId) : early.2.model.rootOf i = g.model.rootOf i := hearly.staysIn.places.rootOf i
  have hsecond : first.2.Confined system' (writtenBy second.1) second.2 :=
    setAttribute_confined hfirst.coherent hfirst.keepsApart ((hzone id').trans hroot') a' v'
  have hlate : early.2.Confined system (writtenBy late.1) late.2 :=
    setAttribute_confined hearly.coherent hearly.keepsApart ((hzone' id).trans hroot) a v
  -- The ids that a write draws depend on what was drawn before, so each write has a renaming of its own first.
  obtain ⟨k, hk₁, hdraws⟩ := setAttribute_draws h (hd.mono (by omega)) hroot a v
  obtain ⟨k', hk₂, hdraws'⟩ := setAttribute_draws h (hd.mono (by omega)) hroot' a' v'
  obtain ⟨ρ₂, hρ₂, hkept₂, houtcome₂, hentity₂⟩ := setAttribute_delayed h hfirst hne hd hk₁ hdraws hroot' a' v'
  obtain ⟨ρ₁, hρ₁, hkept₁, houtcome₁, hentity₁⟩ := setAttribute_delayed h hearly hne.symm hd hk₂ hdraws' hroot a v
  -- This one does for both: on ids that the first write can name it is `ρ₁`, and on those of the second it undoes `ρ₂`.
  obtain ⟨ρ, hforth, hback, hfix⟩ := hd.exists_swap (show k + k' ≤ 6 by omega)
  have hkept : ∀ r ∈ g.store.records, ρ r.id = r.id := fun r hr => hfix r.id (hd.unused r hr)
  have hlateOutcome : late.1 = first.1.map (Outcome.rename ρ) := by
    refine houtcome₁.trans (map_rename_congr fun r hr => ?_)
    rcases hdraws.ids r (hfirst.mem hr) with ⟨b, hb, hid⟩ | ⟨i, hi, hid⟩
    · rw [← hid, hkept₁ b hb, hkept b hb]
    · rw [← hid, hρ₁ i (by omega), hforth i hi]
  have hearlyOutcome : early.1 = second.1.map (Outcome.rename ρ) := by
    rw [houtcome₂, map_rename_rename]
    refine (map_rename_eq_self fun r hr => ?_).symm
    rcases hdraws'.ids r (hearly.mem hr) with ⟨b, hb, hid⟩ | ⟨i, hi, hid⟩
    · rw [Function.comp_apply, ← hid, hkept₂ b hb, hkept b hb]
    · rw [Function.comp_apply, ← hid, hρ₂ i (by omega), hback i hi]
  refine ⟨ρ, hfix, hlateOutcome, hearlyOutcome, ?_, ?_⟩
  · have happart : ∀ i, g.model.rootOf i = .ok system → ¬ g.model.rootOf i = .ok system' :=
      fun i hi hi' => hne (Except.ok.inj (hi.symm.trans hi'))
    exact Registry.eq_of_differIn happart hfirst.staysIn.model hearly.staysIn.model (hfirst.differIn_after hsecond)
      (hearly.differIn_after hlate) hentity₂ hentity₁
  · have hnodup := hfirst.ids_nodup_append hsecond hne ((hzone system).trans (h.tidy.rootOf_root hroot))
    obtain ⟨kept, hids, hswap, hswap'⟩ := Listing.foldl_put_swap (l := g.store.listing) hnodup ρ hkept
    refine ⟨kept, hids, ?_, ?_⟩
    · rw [List.foldl_append, ← hfirst.store, ← hsecond.store] at hswap
      exact hswap
    · rw [List.map_append, ← writtenBy_rename, ← writtenBy_rename, ← hlateOutcome, ← hearlyOutcome, List.foldl_append,
        ← hearly.store, ← hlate.store] at hswap'
      exact hswap'

def trusses : List (Request Float) :=
  let record (n : UInt64) (entity : EntityId) (v : Float) : Record Float :=
    { id := ⟨0, n⟩
      kind := default
      nature := default
      reducibility := default
      onDelete := default
      setManually := true
      location := Location.ofAttribute .crossLinkMass [entity]
      effect := some { expression := some (.literal v) }
      pattern := none
      perspective := none
      source := none }
  [.addEntity .damperSystem none, .addEntity .upperTruss (some ⟨0⟩), .addEntity .damperSystem none,
    .addEntity .upperTruss (some ⟨2⟩), .annotate (record 1 ⟨1⟩ 4), .annotate (record 2 ⟨3⟩ 5)]

theorem trusses_commute :
    let g := (serve trusses ⟨{}, Registry.empty, Store.empty, [], ⟨0⟩⟩).2
    let first := g.setAttribute ⟨1⟩ .crossLinkMass 4
    let second := first.2.setAttribute ⟨3⟩ .crossLinkMass 5
    let early := g.setAttribute ⟨3⟩ .crossLinkMass (5 : Float)
    let late := early.2.setAttribute ⟨1⟩ .crossLinkMass 4
    (g.created first.1).length = 2 ∧ (g.created second.1).length = 2 ∧
      ∃ ρ : Equiv.Perm RecordId, late.1 = first.1.map (Outcome.rename ρ) ∧ early.1 = second.1.map (Outcome.rename ρ) ∧
        late.2.model = second.2.model ∧ ∃ kept,
          second.2.store.records = kept ++ (g.created first.1 ++ g.created second.1) ∧
          late.2.store.records = kept ++ (g.created second.1 ++ g.created first.1).map (Record.rename ρ) := by
  intro g
  dsimp only
  have hnew : Engine.new {} = .ok (⟨{}, Registry.empty, Store.empty, [], ⟨0⟩⟩ : Engine Float) := rfl
  have hg : g.Reachable := ⟨_, {}, _, trusses, hnew, rfl⟩
  have hnames : ∀ r ∈ g.store.records, r.parameter? = some Attribute.crossLinkMass.name := by decide +kernel
  have hk : g.KeepsSystemsApart := by
    intro r hr d hd hname
    obtain rfl := Attribute.name_injective (Option.some.inj ((hnames r hr).symm.trans hname))
    cases hd
  have hd : g.DrawsApart 6 := ⟨by decide +kernel, by decide +kernel⟩
  have hroot : g.model.rootOf ⟨1⟩ = .ok ⟨0⟩ := by decide +kernel
  have hroot' : g.model.rootOf ⟨3⟩ = .ok ⟨2⟩ := by decide +kernel
  obtain ⟨ρ, -, hlate, hearly, hmodel, kept, -, hrecords, hrecords'⟩ :=
    writes_in_different_systems_commute hg hk hd hroot hroot' (by decide) .crossLinkMass .crossLinkMass (4 : Float) 5
  exact ⟨by decide +kernel, by decide +kernel, ρ, hlate, hearly, hmodel, kept, hrecords, hrecords'⟩

end Engine

end Uncertainty
