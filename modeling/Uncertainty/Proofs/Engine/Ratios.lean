import Uncertainty.Proofs.Engine.Reports
import Uncertainty.Proofs.Model.Ratio
import Uncertainty.Proofs.Number.Exact
import Uncertainty.Proofs.Number.FloatProduct

/-! The damping ratio of a system is the one to compute from its first spring damper and its total mass: its value is
always, its record after every step that changes the total mass. -/

namespace Uncertainty

open Workspace Reaction

variable {ν : Type} [Number ν] {config : Config} {change : Change ν} {id : EntityId} {a : Attribute} {v old delta : ν}

section Unrecorded

lemma not_carried_of_empty {config : Sampling} {reaction : Reaction} {n : Nat} {w w' : Workspace (Listing ν) ν}
    (hw : w.store = Listing.empty) : ¬ Carried config reaction change n w w' := by
  intro h
  have hsome := h.isSome_source
  rw [hw] at hsome
  cases hsome

lemma Moved.of_empty {reaction : Reaction} (hp : reaction.policy = .incremental) {config : Sampling}
    {w w' : Workspace (Listing ν) ν} (h : Moved config reaction change delta w w') (hw : w.store = Listing.empty) :
    w'.store = Listing.empty ∧ ∃ current old, w.model.get change.container reaction.derived = .ok current ∧
      w.model.set change.container reaction.derived (current + delta) = .ok (old, w'.model) := by
  cases h with
  | carried _ _ h => exact absurd h (not_carried_of_empty hw)
  | shifted _ h =>
    obtain ⟨e, habsorbs, -⟩ := h
    rw [Reaction.Absorbs, hp] at habsorbs
    obtain ⟨current, hcurrent, -⟩ := habsorbs
    rw [hw] at hcurrent
    cases hcurrent
  | plain _ _ hstore hget hset => exact ⟨hstore.trans hw, _, _, hget, hset⟩

lemma Weighed.store_empty {w w' : Workspace (Listing ν) ν} (h : Weighed config change delta w w')
    (hw : w.store = Listing.empty) : w'.store = Listing.empty := by
  rcases h with ⟨-, h⟩ | ⟨-, h⟩
  · exact (h.of_empty rfl hw).1
  · exact h.1.trans hw

namespace Pass

variable {p p₁ p₂ p' : Pass (Listing ν) ν}

lemma Idle.settled (h : Idle p p') (hs : ∀ system, p.work.model.Settled system) (system : EntityId) :
    p'.work.model.Settled system := by
  rw [h.1.2]
  exact hs system

lemma Damps.of_empty (h : Damps config change p p') (hp : p.work.store = Listing.empty) :
    p.work.model.dampingRatio? change.container = .ok none ∧ Idle p p' ∨
      ∃ ratio old, p.work.model.dampingRatio? change.container = .ok (some ratio) ∧
        Sets change.container .dampingRatio ratio old p p' := by
  cases h with
  | undefined hnone h => exact .inl ⟨hnone, h⟩
  | recorded _ h =>
    rcases h with h | ⟨-, hexisting⟩
    · exact absurd h (not_carried_of_empty hp)
    · rw [hp] at hexisting
      cases hexisting
  | plain hratio _ _ hset => exact .inr ⟨_, _, hratio, hset⟩

lemma Damps.store_empty (h : Damps config change p p') (hp : p.work.store = Listing.empty) :
    p'.work.store = Listing.empty := by
  rcases h.of_empty hp with ⟨-, hidle⟩ | ⟨_, _, -, hset⟩
  · exact hidle.1.1.trans hp
  · exact hset.store.trans hp

lemma Damps.settled (h : Damps config change p p') (hp : p.work.store = Listing.empty)
    (hs : ∀ system, system ≠ change.container → p.work.model.Settled system) (system : EntityId) :
    p'.work.model.Settled system := by
  by_cases hsystem : system = change.container
  · subst hsystem
    rcases h.of_empty hp with ⟨hnone, hidle⟩ | ⟨_, _, hratio, hset⟩
    · intro ratio hr
      rw [hidle.1.2] at hr
      cases hnone.symm.trans hr
    · have hsame := Registry.SameBut.of_set hset.set
      intro ratio hr
      rw [hsame.dampingRatio? (fun _ _ => ⟨nofun, nofun⟩) nofun, hratio] at hr
      cases hr
      exact Registry.get_set_self hset.set
  · have hsame := h.damped.sameBut
    refine hsame.settled ?_ (fun hb => hsystem hb.1) (hs system hsystem)
    exact hsame.dampingRatio? (fun _ _ => ⟨nofun, nofun⟩) nofun

lemma Writes.store_empty (h : Writes config id a v old p p') (hp : p.work.store = Listing.empty) :
    p'.work.store = Listing.empty := by
  cases h with
  | summed _ _ _ hset _ h =>
    have hp₂ := h.weight.store_empty (h.mass.of_empty rfl (hset.store.trans hp)).1
    have hdamping := h.damping
    split at hdamping
    · exact hdamping.1.1.trans hp₂
    · exact hdamping.store_empty hp₂
  | other _ _ hset hdamping =>
    have hp₁ := hset.store.trans hp
    split at hdamping
    · exact hdamping.store_empty hp₁
    · exact hdamping.1.1.trans hp₁

lemma Sets.settled (hset : Sets id a v old p p') (ha : a ≠ .dampingRatio) (hinput : a.isDampingInput = false)
    (hs : ∀ system, p.work.model.Settled system) (system : EntityId) : p'.work.model.Settled system := by
  have hsame := Registry.SameBut.of_set hset.set
  have hne {b : Attribute} (hb : b.isDampingInput = true) : b ≠ a := by
    rintro rfl
    exact Bool.false_ne_true (hinput.symm.trans hb)
  refine hsame.settled (hsame.dampingRatio? (fun _ _ => ⟨?_, ?_⟩) ?_) (fun hb => ha hb.2.symm) (hs system)
  exacts [fun hb => hne rfl hb.2, fun hb => hne rfl hb.2, fun hb => hne rfl hb.2]

lemma Sets.settled_elsewhere (hset : Sets id a v old p p') (ha : a ≠ .dampingRatio) (ht : p.work.model.Tidy)
    {root : EntityId} (hroot : p.work.model.rootOf id = .ok root) (hs : ∀ system, p.work.model.Settled system)
    (system : EntityId) (hsystem : system ≠ root) : p'.work.model.Settled system := by
  have hsame := Registry.SameBut.of_set hset.set
  intro ratio hr
  have hk := (ht.set hset.set).system_of_dampingRatio? hr
  rw [hsame.kind] at hk
  have hid : system ≠ id := by
    rintro rfl
    rcases ht.container_of_rootOf hroot with hc | ⟨-, heq⟩
    · cases hc.symm.trans ((ht.root _ _ hk).mpr rfl)
    · exact hsystem heq.symm
  refine hsame.settled (hsame.dampingRatio? ?_ fun hb => hid hb.1) (fun hb => ha hb.2.symm) (hs system) ratio hr
  intro spring hspring
  obtain ⟨-, hc⟩ := ht.spring_of_findHolder hk hspring
  have hne : spring ≠ id := by
    rintro rfl
    rcases ht.container_of_rootOf hroot with hc' | ⟨hc', -⟩
    · exact hsystem (Option.some.inj (Except.ok.inj (hc.symm.trans hc')))
    · cases hc.symm.trans hc'
  exact ⟨fun hb => hne hb.1, fun hb => hne hb.1⟩

variable [LawfulProduct ν]

lemma Totals.settled {before after : ν} (h : Totals config change delta before after p p₁ p₂ p')
    (hp : p.work.store = Listing.empty) (hs : ∀ system, p.work.model.Settled system) (system : EntityId) :
    p'.work.model.Settled system := by
  let totals (i : EntityId) (b : Attribute) : Prop := i = change.container ∧ (b = .totalMass ∨ b = .totalWeight)
  have hsame : Registry.SameBut totals p.work.model p₂.work.model :=
    (h.mass.sameBut.mono fun _ _ => And.imp_right .inl).trans (h.weight.sameBut.mono fun _ _ => And.imp_right .inr)
  have hout {i : EntityId} {b : Attribute} (hb : ¬ (b = .totalMass ∨ b = .totalWeight)) : ¬ totals i b :=
    fun htotal => hb htotal.2
  have hspring (spring : EntityId) : ¬ totals spring .dampingConstant ∧ ¬ totals spring .stiffness :=
    ⟨hout (by decide), hout (by decide)⟩
  have hothers (system : EntityId) (hsystem : system ≠ change.container) : p₂.work.model.Settled system :=
    hsame.settled (hsame.dampingRatio? (fun spring _ => hspring spring) fun hb => hsystem hb.1) (hout (by decide))
      (hs system)
  have hdamping := h.damping
  split at hdamping
  · -- A total mass that compares equal makes the same ratio, so the one that is there stays right.
    refine hdamping.settled (fun system => ?_) system
    by_cases hsystem : system = change.container
    · subst hsystem
      exact hsame.settled (hsame.dampingRatio?_of_beq hspring h.earlier h.later ‹_›) (hout (by decide)) (hs _)
    · exact hothers system hsystem
  · exact hdamping.settled (h.weight.store_empty (h.mass.of_empty rfl hp).1) hothers system

lemma Writes.settled (h : Writes config id a v old p p') (ha : a ≠ .dampingRatio)
    (hp : p.work.store = Listing.empty) (ht : p.work.model.Tidy) (hs : ∀ system, p.work.model.Settled system)
    (system : EntityId) : p'.work.model.Settled system := by
  cases h with
  | summed hsum _ _ hset _ h =>
    have hinput : a.isDampingInput = false := by
      revert hsum
      cases a <;> decide
    exact h.settled (hset.store.trans hp) (hset.settled ha hinput hs) system
  | other _ hroot hset hdamping =>
    split at hdamping
    · exact hdamping.settled (hset.store.trans hp) (hset.settled_elsewhere ha ht hroot hs) system
    · exact hdamping.settled (hset.settled ha (eq_false_of_ne_true ‹_›) hs) system

end Pass

end Unrecorded

def Request.LeavesRatio {ν : Type} : Request ν → Prop
  | addEntity _ _ => True
  | annotate _ => False
  | setAttribute _ a _ => a ≠ .dampingRatio

namespace Engine

variable {g : Engine ν}

structure KeepsRatios (g : Engine ν) : Prop where
  sound : g.store.Sound
  unrecorded : g.store.listing = Listing.empty
  tidy : g.model.Tidy
  settled : ∀ system, g.model.Settled system

variable [LawfulProduct ν]

lemma respond_keepsRatios (h : g.KeepsRatios) {q : Request ν} (hq : q.LeavesRatio) :
    (g.respond q).2.KeepsRatios := by
  cases q with
  | addEntity kind container =>
    rw [respond, Engine.addEntity]
    cases hm : g.model.insert kind container with
    | error e => exact h
    | ok x => exact ⟨h.sound, h.unrecorded, h.tidy.insert hm, h.tidy.settled_insert hm h.settled⟩
  | annotate r => exact hq.elim
  | setAttribute id a v =>
    rw [respond]
    rcases setAttribute_cases h.sound id a v with ⟨e, g', hset, hsound, -, hlisting, hmodel⟩ | ⟨o, g', -, hset, -⟩
    · rw [hset]
      exact ⟨hsound, hlisting.trans h.unrecorded, hmodel ▸ h.tidy, hmodel ▸ h.settled⟩
    · obtain ⟨p, hwrites, -, hholds⟩ := writes_of_ok h.sound hset
      rw [hset]
      exact ⟨hholds.store.sound, hholds.store.listing.trans (hwrites.store_empty h.unrecorded),
        hholds.model ▸ hwrites.tidy h.tidy, hholds.model ▸ hwrites.settled hq h.unrecorded h.tidy h.settled⟩

theorem ratio_is_never_stale [IdSource] {config : Config} {g₀ : Engine ν} (hnew : Engine.new config = .ok g₀)
    (qs : List (Request ν)) (hqs : ∀ q ∈ qs, q.LeavesRatio) {system : EntityId} {ratio : ν} :
    let m := (serve qs g₀).2.model
    m.dampingRatio? system = .ok (some ratio) → m.get system .dampingRatio = .ok ratio := by
  have hstart : g₀.KeepsRatios := by
    obtain rfl := new_ok hnew
    refine ⟨Store.sound_empty, rfl, .empty, fun system ratio hr => ?_⟩
    obtain ⟨-, -, -, mass, -, -, -, hmass, -⟩ := Registry.dampingRatio?_eq_some.mp hr
    cases hmass
  exact (serve_keeps (I := KeepsRatios) (fun h hq => respond_keepsRatios h hq) qs hstart hqs).settled system ratio

def sprung : List (Request Float) :=
  [.addEntity .damperSystem none, .addEntity .upperTruss (some ⟨0⟩), .addEntity .springDamper (some ⟨0⟩),
    .setAttribute ⟨1⟩ .crossLinkMass 5, .setAttribute ⟨2⟩ .stiffness 20, .setAttribute ⟨2⟩ .dampingConstant 40,
    .addEntity .springDamper (some ⟨0⟩), .setAttribute ⟨3⟩ .stiffness 7, .setAttribute ⟨1⟩ .sphereMass 0]

theorem sprung_ratio_is_current :
    let m := (serve sprung (⟨{}, Registry.empty, Store.empty, [], ⟨0⟩⟩ : Engine Float)).2.model
    m.dampingRatio? ⟨0⟩ = .ok (some 2) ∧ m.get ⟨0⟩ .dampingRatio = .ok 2 := by
  intro m
  have hnew : Engine.new {} = .ok (⟨{}, Registry.empty, Store.empty, [], ⟨0⟩⟩ : Engine Float) := rfl
  have hqs : ∀ q ∈ sprung, q.LeavesRatio := by
    simp only [sprung, List.forall_mem_cons]
    exact ⟨trivial, trivial, trivial, nofun, nofun, nofun, trivial, nofun, nofun, fun _ hq => absurd hq List.not_mem_nil⟩
  have hratio : m.dampingRatio? ⟨0⟩ = .ok (some 2) := by decide +kernel
  exact ⟨hratio, ratio_is_never_stale hnew sprung hqs hratio⟩

end Engine

section Recorded

namespace Pass

variable {p p₁ p₂ p' : Pass (Listing ν) ν}

lemma Damps.recomputed {ratio : ν} (h : Damps config change p p') (hn : (p.work.store.records.map (·.id)).Nodup)
    (hsource : recordedExpression? p.work.store change.parameter change.affected ≠ none)
    (hratio : p'.work.model.dampingRatio? change.container = .ok (some ratio)) :
    ∃ r c k m u, RecordStore.find? p'.work.store Attribute.dampingRatio.name change.container = some r ∧
      IsKnown p'.work change.container .dampingConstant c ∧ IsKnown p'.work change.container .stiffness k ∧
      IsKnown p'.work change.container .totalMass m ∧
      (((Environment.empty.bind "c" c).bind "k" k).bind "m" m).evaluateText "c / (2 * (k * m) ^ 0.5)" = .ok u ∧
      r.expression? = some u.toExpression := by
  have ht := h.damped.touches
  have hm := h.damped.sameBut
  obtain ⟨e, ⟨values, u, hvalues, hu, rfl⟩, hw⟩ : ∃ e, Recomputed p.work change.container dampingFormula
      [⟨"c", .dampingConstant⟩, ⟨"k", .stiffness⟩, ⟨"m", .totalMass⟩] e ∧
        Written config.sampling .dampingRatio change.container e p.work p'.work := by
    cases h with
    | undefined hnone h =>
      rw [h.1.2] at hratio
      cases hnone.symm.trans hratio
    | recorded _ h =>
      rcases h with ⟨_, e, -, -, he, hw⟩ | ⟨⟨e, he, hw⟩, -⟩
      · exact ⟨e, he, hw⟩
      · exact ⟨e, he, hw⟩
    | plain _ hnone => exact absurd hnone hsource
  obtain ⟨template, hsaved⟩ := hw.saved
  obtain ⟨r, hfound, he⟩ := hsaved.found
  rcases hvalues with _ | ⟨hc, _ | ⟨hk, _ | ⟨hmass, _ | _⟩⟩⟩
  exact ⟨r, _, _, _, u, hfound, hc.touches hn ht hm (by decide), hk.touches hn ht hm (by decide),
    hmass.touches hn ht hm (by decide), hu, he⟩

lemma Totals.recorded_of_updated {before after : ν} {r : Record ν} {system : EntityId}
    (h : Totals config change delta before after p p₁ p₂ p') (hn : (p.work.store.records.map (·.id)).Nodup)
    (hp : p.updated = []) (hr : r ∈ p'.updated) (hdesc : r.describes Attribute.totalMass.name system = true) :
    recordedExpression? p₂.work.store .totalMass change.container ≠ none := by
  have hr : r ∈ p₁.updated :=
    h.weightReported.mem_of_describes (by decide) hdesc (h.dampingReported.mem_of_describes (by decide) hdesc hr)
  rcases h.massReported.updated_cases with hupdated | ⟨r', hupdated, hfiled⟩
  · rw [hupdated, hp] at hr
    cases hr
  · rw [h.weight.touches.recordedExpression?_ne (h.mass.touches.nodup hn) (by decide), recordedExpression?, hfiled.found]
    exact Option.isSome_iff_ne_none.mp hfiled.expression

lemma Writes.sums_of_updated {r : Record ν} {system : EntityId} (h : Writes config id a v old p p')
    (hp : p.updated = []) (hr : r ∈ p'.updated) (hdesc : r.describes Attribute.totalMass.name system = true) :
    (a.isMass || a.isCount) = true := by
  cases h with
  | summed ha => exact ha
  | other _ _ hset _ hreported =>
    have hr := hreported.mem_of_describes (by decide) hdesc hr
    rw [hset.unsaid.updated, hp] at hr
    cases hr

section Summed

variable {before after : ν} {system : EntityId} (h : Writes config id a v old p p')
  (ha : (a.isMass || a.isCount) = true) (hbefore : p.work.model.get system .totalMass = .ok before)
  (hafter : p'.work.model.get system .totalMass = .ok after)

include h ha hbefore hafter

/-- No other system than the one that is written to has a total mass that compares different, but for one that is no
number and makes no ratio. -/
lemma Writes.rootOf_of_changed [LawfulProduct ν] {ratio : ν} (hchanged : (after == before) = false)
    (hratio : p'.work.model.dampingRatio? system = .ok (some ratio)) : p.work.model.rootOf id = .ok system := by
  cases h with
  | @summed root _ _ _ _ p₁ _ _ _ hroot _ hset _ h =>
    by_contra hother
    have hne : root ≠ system := fun he => hother (he ▸ hroot)
    have hkept : p'.work.model.get system .totalMass = p.work.model.get system .totalMass := by
      rw [h.damped.touches.get_ne (by decide), h.weight.touches.get_ne (by decide),
        h.mass.sameBut.get system _ fun hb => hne hb.1.symm, hset.get_derived (Attribute.isDerived_of_sums ha) rfl]
    obtain rfl := Except.ok.inj (hbefore.symm.trans (hkept.symm.trans hafter))
    obtain ⟨_, _, _, mass, -, -, -, hmass, hdefined⟩ := Registry.dampingRatio?_eq_some.mp hratio
    obtain rfl := Except.ok.inj (hafter.symm.trans hmass)
    exact Bool.false_ne_true (hchanged.symm.trans (beq_self_of_dampingRatio? hdefined))
  | other hother => exact absurd (hother.symm.trans ha) Bool.false_ne_true

lemma Writes.exists_totals (hroot : p.work.model.rootOf id = .ok system) :
    ∃ delta p₁ p₂ p₃, Sets id a v old p p₁ ∧ Totals config ⟨a, old, v, id, system⟩ delta before after p₁ p₂ p₃ p' := by
  cases h with
  | @summed root _ _ before' after' p₁ p₂ p₃ _ hroot' _ hset _ h =>
    obtain rfl := Except.ok.inj (hroot.symm.trans hroot')
    have hearlier : p₁.work.model.get system .totalMass = .ok before :=
      (hset.get_derived (Attribute.isDerived_of_sums ha) rfl system).trans hbefore
    have hlater : p₃.work.model.get system .totalMass = .ok after :=
      (h.damped.touches.get_ne (by decide) system).symm.trans hafter
    obtain rfl := Except.ok.inj (hearlier.symm.trans h.earlier)
    obtain rfl := Except.ok.inj (hlater.symm.trans h.later)
    exact ⟨_, p₁, p₂, p₃, hset, h⟩
  | other hother => exact absurd (hother.symm.trans ha) Bool.false_ne_true

end Summed

lemma Writes.recomputed [LawfulProduct ν] {before after ratio : ν} {r : Record ν} {system : EntityId}
    (h : Writes config id a v old p p') (hn : (p.work.store.records.map (·.id)).Nodup) (hp : p.updated = [])
    (hr : r ∈ p'.updated) (hdesc : r.describes Attribute.totalMass.name system = true)
    (hbefore : p.work.model.get system .totalMass = .ok before)
    (hafter : p'.work.model.get system .totalMass = .ok after) (hchanged : (after == before) = false)
    (hratio : p'.work.model.dampingRatio? system = .ok (some ratio)) :
    ∃ r c k m u, RecordStore.find? p'.work.store Attribute.dampingRatio.name system = some r ∧
      IsKnown p'.work system .dampingConstant c ∧ IsKnown p'.work system .stiffness k ∧
      IsKnown p'.work system .totalMass m ∧
      (((Environment.empty.bind "c" c).bind "k" k).bind "m" m).evaluateText "c / (2 * (k * m) ^ 0.5)" = .ok u ∧
      r.expression? = some u.toExpression := by
  have ha := h.sums_of_updated hp hr hdesc
  have hroot := h.rootOf_of_changed ha hbefore hafter hchanged hratio
  obtain ⟨delta, p₁, p₂, p₃, hset, h⟩ := h.exists_totals ha hbefore hafter hroot
  have hn₁ : (p₁.work.store.records.map (·.id)).Nodup := by
    rw [hset.store]
    exact hn
  have hsource := h.recorded_of_updated hn₁ (hset.unsaid.updated.trans hp) hr hdesc
  have hdamping := h.damping
  rw [if_neg (by rw [hchanged]; exact Bool.false_ne_true)] at hdamping
  exact hdamping.recomputed (h.weight.touches.nodup (h.mass.touches.nodup hn₁)) hsource hratio

lemma Totals.ratio_kept {before after : ν} {i : EntityId} (h : Totals config change delta before after p p₁ p₂ p')
    (hn : (p.work.store.records.map (·.id)).Nodup) (hp : p.updated = []) (hsame : (after == before) = true) :
    RecordStore.find? p'.work.store Attribute.dampingRatio.name i =
        RecordStore.find? p.work.store Attribute.dampingRatio.name i ∧
      p'.work.model.get i .dampingRatio = p.work.model.get i .dampingRatio ∧
      ∀ r ∈ p'.updated, r.describes Attribute.dampingRatio.name i = false := by
  have hdamping := h.damping
  rw [if_pos hsame] at hdamping
  obtain ⟨⟨hstore, hmodel⟩, hupdated, -⟩ := hdamping
  have hmass := h.mass.touches
  have hweight := h.weight.touches
  refine ⟨?_, ?_, fun r hr => eq_false_of_ne_true fun hdesc => ?_⟩
  · rw [hstore, hweight.find?_ne (hmass.nodup hn) (by decide), hmass.find?_ne hn (by decide)]
  · rw [hmodel, hweight.get_ne (by decide), hmass.get_ne (by decide)]
  · rw [hupdated] at hr
    have hr := h.massReported.mem_of_describes (by decide) hdesc
      (h.weightReported.mem_of_describes (by decide) hdesc hr)
    rw [hp] at hr
    cases hr

lemma Writes.ratio_kept {before after : ν} {system : EntityId} (h : Writes config id a v old p p')
    (hn : (p.work.store.records.map (·.id)).Nodup) (hp : p.updated = []) (ha : (a.isMass || a.isCount) = true)
    (hroot : p.work.model.rootOf id = .ok system) (hbefore : p.work.model.get system .totalMass = .ok before)
    (hafter : p'.work.model.get system .totalMass = .ok after) (hsame : (after == before) = true) (i : EntityId) :
    RecordStore.find? p'.work.store Attribute.dampingRatio.name i =
        RecordStore.find? p.work.store Attribute.dampingRatio.name i ∧
      p'.work.model.get i .dampingRatio = p.work.model.get i .dampingRatio ∧
      ∀ r ∈ p'.updated, r.describes Attribute.dampingRatio.name i = false := by
  obtain ⟨delta, p₁, p₂, p₃, hset, h⟩ := h.exists_totals ha hbefore hafter hroot
  obtain ⟨hfind, hget, hupdated⟩ := h.ratio_kept (i := i) (by rwa [hset.store]) (hset.unsaid.updated.trans hp) hsame
  refine ⟨?_, ?_, hupdated⟩
  · rw [hfind, hset.store]
  · rw [hget, hset.get_derived (Attribute.isDerived_of_sums ha) rfl]

end Pass

end Recorded

namespace Engine

variable {g g' : Engine ν} {o : Outcome ν} {r : Record ν} {system : EntityId} {before after : ν}

/-- After a write that records the total mass of a system, the record of its damping ratio says what the formula makes
of what is known by then, if the total mass compares different. If it compares equal, nothing of the ratio is written. -/
theorem ratio_record_follows_total_mass [LawfulProduct ν] (hg : g.Reachable)
    (hok : g.setAttribute id a v = (.ok o, g')) (hr : r ∈ o.updated)
    (hdesc : r.describes Attribute.totalMass.name system = true)
    (hbefore : g.model.get system .totalMass = .ok before) (hafter : g'.model.get system .totalMass = .ok after) :
    let w := g'.plainPass.work
    ((after == before) = false → ∀ ratio, g'.model.dampingRatio? system = .ok (some ratio) →
      ∃ r' c k m u, RecordStore.find? g'.store Attribute.dampingRatio.name system = some r' ∧
        IsKnown w system .dampingConstant c ∧ IsKnown w system .stiffness k ∧ IsKnown w system .totalMass m ∧
        (((Environment.empty.bind "c" c).bind "k" k).bind "m" m).evaluateText "c / (2 * (k * m) ^ 0.5)" = .ok u ∧
        r'.expression? = some u.toExpression) ∧
    ((after == before) = true → g.model.rootOf id = .ok system →
      RecordStore.find? g'.store Attribute.dampingRatio.name system =
          RecordStore.find? g.store Attribute.dampingRatio.name system ∧
        g'.model.get system .dampingRatio = g.model.get system .dampingRatio ∧
        ∀ r' ∈ o.updated, r'.describes Attribute.dampingRatio.name system = false) := by
  intro w
  obtain ⟨p, hwrites, hupdated, hholds⟩ := writes_of_ok hg.sound hok
  have hn := hg.sound.ids_nodup
  have hr : r ∈ p.updated := hupdated ▸ hr
  rw [hholds.model] at hafter
  refine ⟨fun hchanged ratio hratio => ?_, fun hsame hroot => ?_⟩
  · have hw : p.work = w := by
      change p.work = ⟨g'.store.listing, g'.model, g'.supply⟩
      rw [hholds.store.listing, hholds.model, hholds.supply]
    rw [hholds.model] at hratio
    obtain ⟨r', c, k, m, u, hfound, hknown⟩ := hwrites.recomputed hn rfl hr hdesc hbefore hafter hchanged hratio
    refine ⟨r', c, k, m, u, ?_, hw ▸ hknown⟩
    rw [hholds.store.answers.find?]
    exact hfound
  · have ha := hwrites.sums_of_updated rfl hr hdesc
    obtain ⟨hfind, hget, hspared⟩ := hwrites.ratio_kept hn rfl ha hroot hbefore hafter hsame system
    refine ⟨?_, hholds.model ▸ hget, hupdated ▸ hspared⟩
    rw [hholds.store.answers.find?, hfind, (Stands.mk hg.sound rfl).answers.find?]
    rfl

theorem link_mass_reaches_ratio_record :
    let g := (serve linkAnnotated (⟨{}, Registry.empty, Store.empty, [], ⟨0⟩⟩ : Engine (Exact roots))).2
    let g' := (g.setAttribute ⟨1⟩ .crossLinkMass (.rational 4)).2
    let w := g'.plainPass.work
    g'.model.dampingRatio? ⟨0⟩ = .ok (some (.rational 2)) ∧
      ∃ r c k m u, RecordStore.find? g'.store Attribute.dampingRatio.name ⟨0⟩ = some r ∧
        IsKnown w ⟨0⟩ .dampingConstant c ∧ IsKnown w ⟨0⟩ .stiffness k ∧ IsKnown w ⟨0⟩ .totalMass m ∧
        (((Environment.empty.bind "c" c).bind "k" k).bind "m" m).evaluateText "c / (2 * (k * m) ^ 0.5)" = .ok u ∧
        r.expression? = some u.toExpression := by
  intro g g' w
  have hnew : Engine.new {} = .ok (⟨{}, Registry.empty, Store.empty, [], ⟨0⟩⟩ : Engine (Exact roots)) := rfl
  have hg : g.Reachable := ⟨_, {}, _, linkAnnotated, hnew, rfl⟩
  have hrecorded : (g.setAttribute ⟨1⟩ .crossLinkMass (.rational 4)).1.toOption.map
      (·.updated.any (·.describes Attribute.totalMass.name ⟨0⟩)) = some true := by decide +kernel
  have hratio : g'.model.dampingRatio? ⟨0⟩ = .ok (some (.rational 2)) := by decide +kernel
  have hbefore : g.model.get ⟨0⟩ .totalMass = .ok (.rational 0) := by decide +kernel
  have hafter : g'.model.get ⟨0⟩ .totalMass = .ok (.rational 4) := by decide +kernel
  rcases hset : (g.setAttribute ⟨1⟩ .crossLinkMass (.rational 4)).1 with _ | o
  · rw [hset] at hrecorded
    cases hrecorded
  · rw [hset] at hrecorded
    obtain ⟨r, hr, hdesc⟩ := List.any_eq_true.mp (Option.some.inj hrecorded)
    have hok : g.setAttribute ⟨1⟩ .crossLinkMass (.rational 4) = (.ok o, g') := Prod.ext hset rfl
    obtain ⟨hfollows, -⟩ := ratio_record_follows_total_mass hg hok hr hdesc hbefore hafter
    exact ⟨hratio, hfollows (by decide +kernel) (.rational 2) hratio⟩

def linkWeighed : List (Request Float) :=
  let record : Record Float :=
    { id := ⟨0, 1⟩
      kind := default
      nature := default
      reducibility := default
      onDelete := default
      setManually := true
      location := Location.ofAttribute .crossLinkMass [⟨1⟩]
      effect := some { expression := some (.distribution (.normal 5 0.01)) }
      pattern := none
      perspective := none
      source := none }
  [.addEntity .damperSystem none, .addEntity .upperTruss (some ⟨0⟩), .addEntity .springDamper (some ⟨0⟩),
    .annotate record, .setAttribute ⟨1⟩ .crossLinkMass 5, .setAttribute ⟨2⟩ .stiffness 20,
    .setAttribute ⟨2⟩ .dampingConstant 40]

/-- The second write of the same value adds to the spread of the recorded total mass only. -/
theorem spread_alone_leaves_ratio_unrecorded :
    let g := (serve linkWeighed (⟨{}, Registry.empty, Store.empty, [], ⟨0⟩⟩ : Engine Float)).2
    g.Reachable ∧ ∃ o g', g.setAttribute ⟨1⟩ .crossLinkMass 5 = (.ok o, g') ∧
      (∃ r ∈ o.updated, r.describes Attribute.totalMass.name ⟨0⟩ = true) ∧
      g'.model.dampingRatio? ⟨0⟩ = .ok (some 2) ∧
      ∀ r ∈ g'.store.records, r.describes Attribute.dampingRatio.name ⟨0⟩ = false := by
  intro g
  have hnew : Engine.new {} = .ok (⟨{}, Registry.empty, Store.empty, [], ⟨0⟩⟩ : Engine Float) := rfl
  have hg : g.Reachable := ⟨_, {}, _, linkWeighed, hnew, rfl⟩
  have hrecorded : (g.setAttribute ⟨1⟩ .crossLinkMass 5).1.toOption.map
      (·.updated.any (·.describes Attribute.totalMass.name ⟨0⟩)) = some true := by decide +kernel
  have hratio : (g.setAttribute ⟨1⟩ .crossLinkMass 5).2.model.dampingRatio? ⟨0⟩ = .ok (some 2) := by decide +kernel
  have hunrecorded : ∀ r ∈ (g.setAttribute ⟨1⟩ .crossLinkMass 5).2.store.records,
      r.describes Attribute.dampingRatio.name ⟨0⟩ = false := by decide +kernel
  rcases hset : (g.setAttribute ⟨1⟩ .crossLinkMass 5).1 with _ | o
  · rw [hset] at hrecorded
    cases hrecorded
  · rw [hset] at hrecorded
    exact ⟨hg, o, _, Prod.ext hset rfl, List.any_eq_true.mp (Option.some.inj hrecorded), hratio, hunrecorded⟩

end Engine

end Uncertainty
