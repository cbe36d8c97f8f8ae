import Uncertainty.Proofs.Engine.Ratios
import Uncertainty.Proofs.Model.Masses
import Uncertainty.Proofs.Number.FloatOverflow

/-! Without annotations the totals of a system are shifted by differences of sums, so that a sum that was not finite is
never made up for. -/

namespace Uncertainty

open Workspace

variable {ν : Type} [Number ν] {config : Config} {id system : EntityId} {a d : Attribute} {v old delta : ν}

def Request.IsPlain {ν : Type} : Request ν → Prop
  | addEntity _ _ => True
  | annotate _ => False
  | setAttribute _ a _ => a.isDerived = false

namespace Registry

def Shifts (d : Attribute) (system : EntityId) (delta : ν) (m m' : Registry ν) : Prop :=
  ∃ total, m.get system d = .ok total ∧ ∀ i, m'.get i d = if i = system then .ok (total + delta) else m.get i d

def Weighs (follows : Bool) (m : Registry ν) : Prop :=
  ∀ system total, m.get system .totalMass = .ok total →
    m.get system .totalWeight = .ok (if follows then total else Number.zero)

def Spoils (m m' : Registry ν) : Prop :=
  ∀ system total, m.get system .totalMass = .ok total → ∃ total', m'.get system .totalMass = .ok total' ∧
    (Number.isFinite total' = true → Number.isFinite total = true)

variable {m m' m'' : Registry ν}

lemma Shifts.of_set {total : ν} (hget : m.get system d = .ok total)
    (h : m.set system d (total + delta) = .ok (old, m')) : Shifts d system delta m m' := by
  refine ⟨total, hget, fun i => ?_⟩
  rw [get_set h]
  by_cases hi : i = system
  · rw [if_pos ⟨hi, rfl⟩, if_pos hi]
  · rw [if_neg fun hb => hi hb.1, if_neg hi]

lemma Shifts.congr {m₁ m₁' : Registry ν} (h : Shifts d system delta m m') (hm : ∀ i, m₁.get i d = m.get i d)
    (hm' : ∀ i, m₁'.get i d = m'.get i d) : Shifts d system delta m₁ m₁' := by
  obtain ⟨total, htotal, hget⟩ := h
  exact ⟨total, (hm system).trans htotal, fun i => by rw [hm', hm, hget]⟩

lemma Spoils.of_get (h : ∀ i, m'.get i .totalMass = m.get i .totalMass) : Spoils m m' :=
  fun system total htotal => ⟨total, (h system).trans htotal, id⟩

lemma Spoils.trans (h : Spoils m m') (h' : Spoils m' m'') : Spoils m m'' := by
  intro system total htotal
  obtain ⟨total', htotal', hfinite⟩ := h system total htotal
  obtain ⟨total'', htotal'', hfinite'⟩ := h' system total' htotal'
  exact ⟨total'', htotal'', fun hf => hfinite (hfinite' hf)⟩

lemma Shifts.spoils [LawfulOverflow ν] (h : Shifts .totalMass system delta m m') : Spoils m m' := by
  obtain ⟨total, htotal, hget⟩ := h
  intro i x hx
  by_cases hi : i = system
  · subst hi
    obtain rfl := Except.ok.inj (htotal.symm.trans hx)
    exact ⟨total + delta, (hget i).trans (if_pos rfl), fun hf => (LawfulOverflow.of_add hf).1⟩
  · exact ⟨x, ((hget i).trans (if_neg hi)).trans hx, id⟩

end Registry

/-- What a write does to the totals where nothing is on record: it shifts them in the system of the entity, by what it
adds to the sum of the masses there, or leaves them. -/
inductive Registry.Adds (follows : Bool) (id : EntityId) (a : Attribute) (m m' : Registry ν) : Prop
  | shifted {system : EntityId} {before after : ν} : (a.isMass || a.isCount) = true → m.rootOf id = .ok system →
    m.totalMass system = .ok before → m'.totalMass system = .ok after →
    m.Shifts .totalMass system (after - before) m' →
    (if follows then m.Shifts .totalWeight system (after - before) m' else
      ∀ i, m'.get i .totalWeight = m.get i .totalWeight) → Adds follows id a m m'
  | kept : (a.isMass || a.isCount) = false → (∀ i, m'.get i .totalMass = m.get i .totalMass) →
    (∀ i, m'.get i .totalWeight = m.get i .totalWeight) → Adds follows id a m m'

namespace Registry

variable {follows : Bool} {m m' : Registry ν}

lemma Weighs.adds (h : m.Weighs follows) (hadds : m.Adds follows id a m') : m'.Weighs follows := by
  intro i total' htotal'
  cases hadds with
  | @shifted system before after _ _ _ _ hmass hweight =>
    obtain ⟨total, htotal, hmass⟩ := hmass
    rw [hmass] at htotal'
    cases follows with
    | false =>
      rw [if_neg Bool.false_ne_true] at hweight ⊢
      rw [hweight]
      split at htotal'
      · obtain rfl : i = system := ‹_›
        exact h i total htotal
      · exact h i total' htotal'
    | true =>
      rw [if_pos rfl] at hweight ⊢
      obtain ⟨weight, hget, hweight⟩ := hweight
      obtain rfl : total = weight := Except.ok.inj ((h system total htotal).symm.trans hget)
      rw [hweight]
      split at htotal'
      · rwa [if_pos ‹_›]
      · rw [if_neg ‹_›]
        exact h i total' htotal'
  | kept _ hmass hweight =>
    rw [hmass] at htotal'
    rw [hweight]
    exact h i total' htotal'

lemma Weighs.insert (h : m.Weighs follows) {kind : EntityKind} {container : Option EntityId}
    (hm : m.insert kind container = .ok (id, m')) : m'.Weighs follows := by
  intro i total htotal
  rw [get_insert_eq hm] at htotal ⊢
  split at htotal
  · rw [if_pos ‹_›]
    cases kind <;> cases htotal
    cases follows <;> rfl
  · rw [if_neg ‹_›]
    exact h i total htotal

lemma Adds.spoils [LawfulOverflow ν] (h : m.Adds follows id a m') : m.Spoils m' := by
  cases h with
  | shifted _ _ _ _ hmass _ => exact hmass.spoils
  | kept _ hmass _ => exact .of_get hmass

lemma spoils_insert {kind : EntityKind} {container : Option EntityId} (hm : m.insert kind container = .ok (id, m')) :
    m.Spoils m' :=
  fun _ total htotal => ⟨total, get_insert hm htotal, fun hf => hf⟩

end Registry

namespace Pass

variable {p p' : Pass (Listing ν) ν}

lemma Writes.adds (h : Writes config id a v old p p') (ha : a.isDerived = false) (hp : p.work.store = Listing.empty) :
    p.work.model.Adds config.propagateWeight id a p'.work.model := by
  cases h with
  | @summed system before after _ _ p₁ p₂ p₃ hsum hroot hbefore hset hafter h =>
    obtain ⟨hp₂, _, _, htotal, hshift⟩ := h.mass.of_empty rfl (hset.store.trans hp)
    have hmass := Registry.Shifts.of_set htotal hshift
    have hsame : Registry.SameBut (fun _ b => b.isDerived = true) p₁.work.model p'.work.model := by
      refine ((h.mass.sameBut.mono ?_).trans (h.weight.sameBut.mono ?_)).trans (h.damped.sameBut.mono ?_)
      all_goals
        rintro _ _ ⟨-, rfl⟩
        rfl
    refine .shifted hsum hroot hbefore ((hsame.totalMass fun _ _ _ _ b hb => ?_).trans hafter)
      (hmass.congr (fun i => (hset.get_derived ha rfl i).symm) fun i => ?_) ?_
    · rw [hb]
      exact Bool.false_ne_true
    · rw [h.damped.touches.get_ne (by decide), h.weight.touches.get_ne (by decide)]
    · have hdamped (i : EntityId) := h.damped.touches.get_ne (a := .totalWeight) (by decide) i
      have hmoved (i : EntityId) : p₂.work.model.get i .totalWeight = p₁.work.model.get i .totalWeight :=
        h.mass.touches.get_ne (by decide) i
      rcases h.weight with ⟨hfollows, hw⟩ | ⟨hfollows, hw⟩ <;> rw [hfollows]
      · obtain ⟨-, _, _, hweight, hshift'⟩ := hw.of_empty rfl hp₂
        have hearlier (i : EntityId) := (hmoved i).trans (hset.get_derived ha rfl i)
        exact (Registry.Shifts.of_set hweight hshift').congr (fun i => (hearlier i).symm) hdamped
      · intro i
        rw [hdamped, hw.2, hmoved, hset.get_derived ha rfl]
  | @other system p₁ hsum hroot hset hdamping =>
    have hkeeps (d : Attribute) (hd : d.isDerived = true) (hratio : d ≠ .dampingRatio) (i : EntityId) :
        p'.work.model.get i d = p.work.model.get i d := by
      rw [← hset.get_derived ha hd]
      split at hdamping
      · exact hdamping.damped.touches.get_ne hratio i
      · rw [hdamping.1.2]
    exact .kept hsum (hkeeps _ rfl (by decide)) (hkeeps _ rfl (by decide))

end Pass

namespace Engine

variable {g g' : Engine ν} {o : Outcome ν}

structure IsPlain (follows : Bool) (g : Engine ν) : Prop where
  told : g.config.propagateWeight = follows
  sound : g.store.Sound
  unrecorded : g.store.listing = Listing.empty
  weighs : g.model.Weighs follows

variable {follows : Bool}

lemma IsPlain.setAttribute (h : g.IsPlain follows) (ha : a.isDerived = false)
    (hok : g.setAttribute id a v = (.ok o, g')) : g'.IsPlain follows ∧ g.model.Adds follows id a g'.model := by
  obtain ⟨p, hwrites, -, hholds⟩ := writes_of_ok h.sound hok
  have hadds := hwrites.adds ha h.unrecorded
  rw [← hholds.model, h.told] at hadds
  refine ⟨⟨?_, hholds.store.sound, ?_, h.weighs.adds hadds⟩, hadds⟩
  · rw [hholds.config, h.told]
  · exact hholds.store.listing.trans (hwrites.store_empty h.unrecorded)

lemma respond_isPlain [LawfulOverflow ν] (h : g.IsPlain follows) {q : Request ν} (hq : q.IsPlain) :
    (g.respond q).2.IsPlain follows ∧ g.model.Spoils (g.respond q).2.model := by
  cases q with
  | addEntity kind container =>
    rw [respond, Engine.addEntity]
    cases hm : g.model.insert kind container with
    | error e => exact ⟨h, .of_get fun _ => rfl⟩
    | ok x => exact ⟨⟨h.told, h.sound, h.unrecorded, h.weighs.insert hm⟩, Registry.spoils_insert hm⟩
  | annotate r => exact hq.elim
  | setAttribute id a v =>
    rw [respond]
    rcases setAttribute_cases h.sound id a v with ⟨e, g', hset, hsound, hconfig, hlisting, hmodel⟩ | ⟨o, g', -, hset, -⟩
    · rw [hset]
      exact ⟨⟨hconfig ▸ h.told, hsound, hlisting.trans h.unrecorded, hmodel ▸ h.weighs⟩,
        .of_get fun i => by rw [hmodel]⟩
    · rw [hset]
      obtain ⟨hplain, hadds⟩ := h.setAttribute hq hset
      exact ⟨hplain, hadds.spoils⟩

lemma serve_isPlain [LawfulOverflow ν] (h : g.IsPlain follows) (qs : List (Request ν)) (hqs : ∀ q ∈ qs, q.IsPlain) :
    (serve qs g).2.IsPlain follows ∧ g.model.Spoils (serve qs g).2.model := by
  refine serve_keeps (I := fun g' => g'.IsPlain follows ∧ g.model.Spoils g'.model) (fun hI hq => ?_) qs
    ⟨h, .of_get fun _ => rfl⟩ hqs
  obtain ⟨hplain, hspoils⟩ := respond_isPlain hI.1 hq
  exact ⟨hplain, hI.2.trans hspoils⟩

theorem finite_total_has_seen_finite_sums [IdSource] [LawfulOverflow ν] {config : Config} {g₀ : Engine ν}
    (hnew : Engine.new config = .ok g₀) (qs later : List (Request ν)) (hqs : ∀ q ∈ qs, q.IsPlain)
    (hlater : ∀ q ∈ later, q.IsPlain) (ha : (a.isMass || a.isCount) = true)
    (hok : (serve qs g₀).2.setAttribute id a v = (.ok o, g')) :
    let g := (serve qs g₀).2
    let last := (serve later g').2
    ∃ system before after total final, g.model.rootOf id = .ok system ∧ g.model.totalMass system = .ok before ∧
      g'.model.totalMass system = .ok after ∧ g.model.get system .totalMass = .ok total ∧
      g'.model.get system .totalMass = .ok (total + (after - before)) ∧
      last.model.get system .totalMass = .ok final ∧
      last.model.get system .totalWeight = .ok (if config.propagateWeight then final else Number.zero) ∧
      (Number.isFinite final = true → Number.isFinite before = true ∧ Number.isFinite after = true) := by
  intro g last
  have hstart : g₀.IsPlain config.propagateWeight := by
    obtain rfl := new_ok hnew
    refine ⟨rfl, Store.sound_empty, rfl, fun system total htotal => ?_⟩
    cases htotal
  obtain ⟨hplain', hadds⟩ := (serve_isPlain hstart qs hqs).1.setAttribute (Attribute.isDerived_of_sums ha) hok
  obtain ⟨hlast, hspoils⟩ := serve_isPlain hplain' later hlater
  cases hadds with
  | @shifted system before after _ hroot hbefore hafter hmass _ =>
    obtain ⟨total, htotal, hget⟩ := hmass
    have htotal' : g'.model.get system .totalMass = .ok (total + (after - before)) := (hget system).trans (if_pos rfl)
    obtain ⟨final, hfinal, hfinite⟩ := hspoils system _ htotal'
    refine ⟨system, before, after, total, final, hroot, hbefore, hafter, htotal, htotal', hfinal,
      hlast.weighs system final hfinal, fun hf => ?_⟩
    have hdifference := LawfulOverflow.of_sub (LawfulOverflow.of_add (hfinite hf)).2
    exact ⟨hdifference.2, hdifference.1⟩
  | kept hsum _ _ => exact absurd (hsum.symm.trans ha) Bool.false_ne_true

def largeMass : Float := 1.5e308

def laden : List (Request Float) :=
  [.addEntity .damperSystem none, .addEntity .upperTruss (some ⟨0⟩), .addEntity .lowerTruss (some ⟨0⟩),
    .setAttribute ⟨1⟩ .crossLinkMass largeMass]

theorem laden_total_stays_spoilt :
    let g := (serve laden (⟨{}, Registry.empty, Store.empty, [], ⟨0⟩⟩ : Engine Float)).2
    let g' := (g.setAttribute ⟨2⟩ .sphereMass largeMass).2
    let later := [.setAttribute ⟨2⟩ .sphereMass 1, .setAttribute ⟨1⟩ .crossLinkMass 1]
    let last := (serve later g').2
    ∃ final, last.model.get ⟨0⟩ .totalMass = .ok final ∧ last.model.get ⟨0⟩ .totalWeight = .ok final ∧
      Number.isFinite final = false := by
  intro g g' later last
  have hnew : Engine.new {} = .ok (⟨{}, Registry.empty, Store.empty, [], ⟨0⟩⟩ : Engine Float) := rfl
  have hplain : ∀ q ∈ laden, q.IsPlain := by
    simp only [laden, List.forall_mem_cons]
    exact ⟨trivial, trivial, trivial, rfl, fun _ hq => absurd hq List.not_mem_nil⟩
  have hlater : ∀ q ∈ later, q.IsPlain := by
    simp only [later, List.forall_mem_cons]
    exact ⟨rfl, rfl, fun _ hq => absurd hq List.not_mem_nil⟩
  have hsum : (Attribute.sphereMass.isMass || Attribute.sphereMass.isCount) = true := rfl
  have hsucceeds : (g.setAttribute ⟨2⟩ .sphereMass largeMass).1.isOk = true := by decide +kernel
  have hroot : g.model.rootOf ⟨2⟩ = .ok ⟨0⟩ := by decide +kernel
  have hoverflow : (g'.model.totalMass ⟨0⟩).toOption.map Number.isFinite = some false := by decide +kernel
  rcases hset : (g.setAttribute ⟨2⟩ .sphereMass largeMass).1 with e | o
  · rw [hset] at hsucceeds
    cases hsucceeds
  · have hok : g.setAttribute ⟨2⟩ .sphereMass largeMass = (.ok o, g') := by rw [← hset]
    obtain ⟨system, before, after, total, final, hsystem, -, hafter, -, -, hfinal, hweight, hfinite⟩ :=
      finite_total_has_seen_finite_sums hnew laden later hplain hlater hsum hok
    obtain rfl := Except.ok.inj (hroot.symm.trans hsystem)
    rw [hafter] at hoverflow
    refine ⟨final, hfinal, hweight, eq_false_of_ne_true fun hf => ?_⟩
    cases (hfinite hf).2.symm.trans (Option.some.inj hoverflow)

theorem corrected_mass_leaves_totals_undefined :
    let qs : List (Request Float) := laden ++ [.setAttribute ⟨2⟩ .sphereMass largeMass, .setAttribute ⟨2⟩ .sphereMass 1]
    let g := (serve qs ⟨{}, Registry.empty, Store.empty, [], ⟨0⟩⟩).2
    g.Reachable ∧ (∀ q ∈ qs, q.IsPlain) ∧
      (∀ part ∈ [(⟨1⟩ : EntityId), ⟨2⟩], ∀ a ∈ Attribute.all, (g.model.get part a).toOption.all Number.isFinite) ∧
      g.model.children ⟨0⟩ = .ok [⟨1⟩, ⟨2⟩] ∧ g.model.totalMass ⟨0⟩ = .ok largeMass ∧
      (g.model.get ⟨0⟩ .totalMass).toOption.map Number.isNaN = some true ∧
      (g.model.get ⟨0⟩ .totalWeight).toOption.map Number.isNaN = some true := by
  intro qs g
  have hnew : Engine.new {} = .ok (⟨{}, Registry.empty, Store.empty, [], ⟨0⟩⟩ : Engine Float) := rfl
  refine ⟨⟨_, {}, _, qs, hnew, rfl⟩, ?_, by decide +kernel, by decide +kernel, by decide +kernel, by decide +kernel,
    by decide +kernel⟩
  simp only [qs, laden, List.cons_append, List.nil_append, List.forall_mem_cons]
  exact ⟨trivial, trivial, trivial, rfl, rfl, rfl, fun _ hq => absurd hq List.not_mem_nil⟩

end Engine

end Uncertainty
