import Uncertainty.Proofs.Engine.Rollback
import Uncertainty.Proofs.Engine.Steps

namespace Uncertainty

open Attempt Workspace Reaction

variable {ν : Type}

namespace Pass

variable {q : Pass (Listing ν) ν}

section Basics

variable {α : Type} {P : Workspace (Listing ν) ν → Prop} {config : Config} {change : Change ν} {d : Attribute}
  {r : Record ν}

lemma onWorkspace_leads {work : Workspace.Work (Listing ν) ν α} {Q : α → Workspace (Listing ν) ν → Prop}
    (h : Leads P work Q) :
    Leads (fun p => P p.work ∧ Unsaid q p) (onWorkspace work) fun a p => Q a p.work ∧ Unsaid q p := by
  intro p a p' hp h'
  unfold onWorkspace at h'
  rw [start_zoom] at h'
  obtain ⟨ha, rfl⟩ := Prod.ext_iff.mp h'
  exact ⟨h p.work a _ hp.1 (Prod.ext ha rfl), hp.2.updated, hp.2.history⟩

lemma readModel_leads {P : Pass (Listing ν) ν → Prop} (f : Registry ν → Except ModelError α) :
    Leads P (readModel f : Work (Listing ν) ν α) fun a p => P p ∧ f p.work.model = .ok a := by
  intro p a p' hp h'
  unfold readModel onWorkspace at h'
  rw [start_zoom] at h'
  obtain ⟨ha, rfl⟩ := Prod.ext_iff.mp h'
  obtain ⟨-, hf⟩ := Workspace.readModel_leads (P := fun _ => True) f p.work a p.work trivial (Prod.ext ha rfl)
  exact ⟨hp, hf⟩

lemma setValue_leads (id : EntityId) (a : Attribute) (v : ν) :
    Leads (Idle q) (setValue id a v) fun old p => Sets id a v old q p := by
  refine (onWorkspace_leads (P := Workspace.Same q.work) (Workspace.writeModel_leads _)).mono (fun _ h => h) ?_
  rintro old p ⟨⟨m, ⟨hstore, hm⟩, hset⟩, hunsaid⟩
  change m = q.work.model at hm
  exact ⟨hstore, hm ▸ hset, hunsaid⟩

lemma log_leads (rule : Rule) (source : Option RecordId) :
    Leads (fun p => P p.work ∧ Unsaid q p) (log config rule change source d r : Work (Listing ν) ν Unit)
      fun _ p => P p.work ∧ Said config rule change source d r q p := by
  have hremember : Leads (fun p => P p.work ∧ Unsaid q p)
      (remember config rule change source d r : Work (Listing ν) ν Unit) fun _ p =>
        P p.work ∧ Said config rule change source d r q { p with updated := p.updated ++ [r] } := by
    rw [remember]
    by_cases hh : config.recordHistory = true
    · rw [if_pos hh]
      refine (readModel_leads _).bind fun mean => Leads.modifies ?_
      rintro p ⟨⟨hp, hunsaid⟩, hmean⟩
      refine ⟨hp, ?_, ?_⟩
      · exact congrArg (· ++ [r]) hunsaid.updated
      · refine ⟨_, congrArg (· ++ _) hunsaid.history, ?_⟩
        rw [Config.Remembers, if_pos hh]
        exact .cons ⟨mean, hmean, rfl⟩ .nil
    · rw [if_neg hh]
      refine .done ?_
      rintro p ⟨hp, hunsaid⟩
      refine ⟨hp, congrArg (· ++ [r]) hunsaid.updated, [], ?_, ?_⟩
      · rw [List.append_nil]
        exact hunsaid.history
      · rw [Config.Remembers, if_neg hh]
  rw [log]
  refine hremember.bind fun _ => ?_
  exact Leads.modifies fun _ h => h

lemma sourceRecord_leads (change : Change ν) :
    Leads (fun p => P p.work ∧ Unsaid q p) (sourceRecord change : Work (Listing ν) ν (Option RecordId)) fun source p =>
      (P p.work ∧ source = change.source? p.work.store) ∧ Unsaid q p := by
  rw [sourceRecord]
  refine (onWorkspace_leads (Workspace.find?_leads _ _)).bind fun found => ?_
  exact .done fun _ h => ⟨⟨h.1.1, congrArg (Option.map _) h.1.2.symm⟩, h.2⟩

lemma logCarried_ok {rule : Rule} (hrule : rule ≠ .crispAdjustment)
    (hrecorded : (recordedExpression? q.work.store change.parameter change.affected).isSome = true) :
    Leads (fun p => (P p.work ∧ Filed d change.container r q.work.store p.work.store) ∧ Unsaid q p)
      (do
        let source ← sourceRecord change
        log config rule change source d r) fun _ p => P p.work ∧ Reported config change d q p := by
  let Done (w : Workspace (Listing ν) ν) := P w ∧ Filed d change.container r q.work.store w.store
  refine (sourceRecord_leads (P := Done) change).bind fun source => ?_
  refine (log_leads (P := fun w => Done w ∧ source = change.source? w.store) rule source).mono (fun _ h => h) fun _ p h => ?_
  obtain ⟨⟨⟨hp, hfiled⟩, rfl⟩, hsaid⟩ := h
  exact ⟨hp, .carried hrule hrecorded hfiled hsaid⟩

lemma logAdjusted_ok :
    Leads (fun p => (P p.work ∧ Filed d change.container r q.work.store p.work.store) ∧ Unsaid q p)
      (log config .crispAdjustment change none d r) fun _ p => P p.work ∧ Reported config change d q p := by
  refine (log_leads (P := fun w => P w ∧ Filed d change.container r q.work.store w.store) _ _).mono (fun _ h => h)
    fun _ p h => ?_
  obtain ⟨⟨hp, hfiled⟩, hsaid⟩ := h
  exact ⟨hp, .adjusted hfiled hsaid⟩

end Basics

variable [Number ν]

lemma itemsOf_ok (change : Change ν) :
    Leads (Idle q) (itemsOf change) fun n p => Idle q p ∧ change.items q.work.model = .ok n := by
  rw [itemsOf]
  by_cases hc : change.parameter.isCount = true
  · rw [if_pos hc]
    exact .done fun p h => ⟨h, if_pos hc⟩
  · rw [if_neg hc]
    refine (readModel_leads _).mono (fun _ h => h) fun n p h => ⟨h.1, ?_⟩
    rw [Change.items, if_neg hc, ← h.1.1.2]
    exact h.2

lemma carryOver_ok (config : Config) (reaction : Reaction) (change : Change ν) (count : Nat) :
    Leads (Idle q) (carryOver config reaction change count) fun r p => (match r with
      | none => Workspace.Same q.work p.work ∧
          (count = 0 ∨ recordedExpression? q.work.store change.parameter change.affected = none)
      | some r => (count ≠ 0 ∧ Carried config.sampling reaction change count q.work p.work) ∧
          Filed reaction.derived change.container r q.work.store p.work.store) ∧ Unsaid q p := by
  match count with
  | 0 => exact .done fun p h => ⟨⟨h.1, .inl rfl⟩, h.2⟩
  | 1 =>
    refine (onWorkspace_leads (propagate_ok change (by decide))).mono (fun _ h => h) ?_
    rintro (_ | r) p ⟨h, hunsaid⟩
    · exact ⟨⟨h.1, .inr h.2⟩, hunsaid⟩
    · exact ⟨⟨⟨Nat.one_ne_zero, h.1⟩, h.2⟩, hunsaid⟩
  | n + 2 =>
    refine (onWorkspace_leads (handleMultiple_ok change (n + 2))).mono (fun _ h => h) ?_
    rintro (_ | r) p ⟨h, hunsaid⟩
    · exact ⟨⟨h.1, .inr h.2⟩, hunsaid⟩
    · exact ⟨⟨⟨Nat.succ_ne_zero _, h.1⟩, h.2⟩, hunsaid⟩

lemma propagateMass_ok (config : Config) (reaction : Reaction) (change : Change ν) (delta : ν) :
    Leads (Idle q) (propagateMass config reaction change delta) fun _ p =>
      Moved config.sampling reaction change delta q.work p.work ∧ Reported config change reaction.derived q p := by
  rw [propagateMass]
  refine (itemsOf_ok change).bind fun count => ?_
  refine Leads.known (fun _ h => h.2) fun hitems => ?_
  refine ((carryOver_ok config reaction change count).mono (fun _ h => h.1) fun _ _ h => h).bind ?_
  rintro (_ | r)
  · refine Leads.known (fun _ h => h.1.2) fun hnone => ?_
    have huncarried : change.Uncarried q.work := ⟨count, hitems, hnone⟩
    refine ((onWorkspace_leads (absorb_ok change.container delta)).mono (fun _ h => ⟨h.1.1, h.2⟩)
      fun _ _ h => h).bind ?_
    rintro (_ | r)
    · refine Leads.known (fun _ h => h.1.2) fun hplain => ?_
      refine (readModel_leads _).bind fun current => ?_
      refine Leads.known (fun p h => (h.1.1.1.2 ▸ h.2 : q.work.model.get _ _ = .ok current)) fun hget => ?_
      refine ((setValue_leads _ _ _).mono (fun p h => ⟨h.1.1.1, h.1.2⟩) fun _ _ h => h).bind fun old => ?_
      refine .done fun p h => ⟨?_, .quiet h.store h.unsaid⟩
      exact .plain huncarried (hplain.imp_right And.right) h.store hget h.set
    · exact (logAdjusted_ok (P := Shifted config.sampling reaction change.container delta q.work)).mono
        (fun _ h => ⟨⟨h.1.1.1, h.1.2⟩, h.2⟩) fun _ p h => ⟨.shifted huncarried h.1, h.2⟩
  · refine Leads.known (fun _ h => h.1.1.2.isSome_source) fun hrecorded => ?_
    refine (logCarried_ok (P := fun w' => count ≠ 0 ∧ Carried config.sampling reaction change count q.work w') ?_
      hrecorded).mono (fun _ h => h) fun _ p h => ⟨.carried hitems h.1.1 h.1.2, h.2⟩
    split <;> rintro ⟨⟩

lemma propagateDamping_ok (config : Config) (change : Change ν) :
    Leads (Idle q) (propagateDamping config change) fun _ p =>
      Damps config change q p ∧ Reported config change .dampingRatio q p := by
  rw [propagateDamping]
  refine (readModel_leads _).bind ?_
  rintro (_ | ratio)
  · exact .done fun p h => ⟨.undefined (h.1.1.2 ▸ h.2) h.1, .quiet h.1.1.1 h.1.2⟩
  · refine Leads.known (fun p h => (h.1.1.2 ▸ h.2 : q.work.model.dampingRatio? _ = .ok (some ratio))) fun hratio => ?_
    refine ((onWorkspace_leads (propagate_ok change (by decide))).mono (fun _ h => h.1) fun _ _ h => h).bind ?_
    rintro (_ | r)
    · refine Leads.known (fun _ h => h.1.2) fun hnone => ?_
      refine ((onWorkspace_leads (absorb_ok change.container Number.zero)).mono (fun _ h => ⟨h.1.1, h.2⟩)
        fun _ _ h => h).bind ?_
      rintro (_ | r)
      · refine Leads.known (fun _ h => h.1.2) fun hplain => ?_
        refine ((setValue_leads _ _ _).mono (fun p h => ⟨h.1.1, h.2⟩) fun _ _ h => h).bind fun old => ?_
        refine .done fun p h => ⟨?_, .quiet h.store h.unsaid⟩
        rcases hplain with hratioNone | ⟨hpolicy, -⟩
        · exact .plain hratio hnone hratioNone h
        · cases hpolicy
      · refine Leads.known (fun _ h => h.1.1.2) fun hexisting => ?_
        exact (logAdjusted_ok (P := Shifted config.sampling .dampingRatio change.container Number.zero q.work)).mono
          (fun _ h => ⟨⟨h.1.1.1, h.1.2⟩, h.2⟩) fun _ p h => ⟨.recorded hratio (.inr ⟨h.1, hexisting⟩), h.2⟩
    · refine Leads.known (fun _ h => h.1.1.isSome_source) fun hrecorded => ?_
      have hrule : Rule.recompute ≠ .crispAdjustment := by rintro ⟨⟩
      exact (logCarried_ok (P := Carried config.sampling .dampingRatio change 1 q.work) hrule hrecorded).mono
        (fun _ h => h) fun _ p h => ⟨.recorded hratio (.inl h.1), h.2⟩

lemma propagateWeight_ok (config : Config) (change : Change ν) (delta : ν) :
    Leads (Idle q) (propagateWeight config change delta) fun _ p =>
      Weighed config change delta q.work p.work ∧ Reported config change .totalWeight q p := by
  rw [propagateWeight]
  by_cases hw : config.propagateWeight = true
  · rw [if_pos hw]
    exact (propagateMass_ok config .totalWeight change delta).mono (fun _ h => h) fun _ _ h => ⟨.inl ⟨hw, h.1⟩, h.2⟩
  · rw [if_neg hw]
    exact .done fun _ h => ⟨.inr ⟨eq_false_of_ne_true hw, h.1⟩, .quiet h.1.1 h.2⟩

lemma propagateTotals_ok (config : Config) (change : Change ν) (delta : ν) :
    Leads (Idle q) (propagateTotals config change delta) fun _ p =>
      ∃ before after p₁ p₂, Totals config change delta before after q p₁ p₂ p := by
  rw [propagateTotals]
  -- What a step has done is said of the pass that it found, so each of those is fixed before the next step.
  refine (readModel_leads _).bind fun before => ?_
  refine Leads.known (fun p h => (h.1.1.2 ▸ h.2 : q.work.model.get _ _ = .ok before)) fun hbefore => ?_
  refine ((propagateMass_ok config .totalMass change delta).mono (fun _ h => h.1) fun _ _ h => h).bind fun _ =>
    Leads.pointwise fun p₁ h₁ => ?_
  refine ((propagateWeight_ok (q := p₁) config change delta).mono (fun _ => Idle.of_eq) fun _ _ h => h).bind fun _ =>
    Leads.pointwise fun p₂ h₂ => ?_
  refine (readModel_leads _).bind fun after => ?_
  refine Leads.known (fun p h => (h.1 ▸ h.2 : p₂.work.model.get _ _ = .ok after)) fun hafter => ?_
  have htotals {p : Pass (Listing ν) ν} (hdamping : if after == before then Idle p₂ p
      else Damps config ⟨.totalMass, before, after, change.container, change.container⟩ p₂ p)
      (hreported : Reported config ⟨.totalMass, before, after, change.container, change.container⟩ .dampingRatio p₂ p) :
      ∃ before after p₁ p₂, Totals config change delta before after q p₁ p₂ p :=
    ⟨before, after, p₁, p₂, h₁.1, h₁.2, h₂.1, h₂.2, hbefore, hafter, hdamping, hreported⟩
  by_cases h : (after == before) = true
  · rw [if_pos h]
    refine .done fun p hp => htotals ?_ ?_
    · rw [if_pos h]
      exact .of_eq hp.1
    · exact hp.1 ▸ .quiet rfl ⟨rfl, rfl⟩
  · rw [if_neg h]
    refine (propagateDamping_ok (q := p₂) config _).mono (fun p hp => .of_eq hp.1) fun _ p hp => htotals ?_ hp.2
    rw [if_neg h]
    exact hp.1

lemma write_ok (config : Config) (id : EntityId) (a : Attribute) (v : ν) :
    Leads (Idle q) (write config id a v) fun old p => Writes config id a v old q p := by
  rw [write]
  refine (readModel_leads _).bind fun system => ?_
  refine Leads.known (fun p h => (h.1.1.2 ▸ h.2 : q.work.model.rootOf id = .ok system)) fun hroot => ?_
  by_cases hs : (a.isMass || a.isCount) = true
  · rw [if_pos hs, writeMass]
    refine (readModel_leads _).bind fun sum => ?_
    refine Leads.known (fun p h => (h.1.1.1.2 ▸ h.2 : q.work.model.totalMass system = .ok sum)) fun hsum => ?_
    refine ((setValue_leads id a v).mono (fun _ h => h.1.1) fun _ _ h => h).bind fun old =>
      Leads.pointwise fun p₁ hset => ?_
    refine (readModel_leads _).bind fun sum' => ?_
    refine Leads.known (fun p h => (h.1 ▸ h.2 : p₁.work.model.totalMass system = .ok sum')) fun hsum' => ?_
    refine ((propagateTotals_ok (q := p₁) config _ _).mono (fun _ h => .of_eq h.1) fun _ _ h => h).bind fun _ => ?_
    refine .done ?_
    rintro p ⟨before, after, p₂, p₃, htotals⟩
    exact .summed hs hroot hsum hset hsum' htotals
  · rw [if_neg hs]
    refine ((setValue_leads id a v).mono (fun _ h => h.1) fun _ _ h => h).bind fun old =>
      Leads.pointwise fun p₁ hset => ?_
    let change : Change ν := ⟨a, old, v, id, system⟩
    have hinput : Leads (Idle p₁) (propagateInput config change) fun _ p =>
        (if change.parameter.isDampingInput then Damps config change p₁ p else Idle p₁ p) ∧
          Reported config change .dampingRatio p₁ p := by
      rw [propagateInput]
      by_cases hinput : change.parameter.isDampingInput = true
      · simp only [if_pos hinput]
        exact propagateDamping_ok config change
      · simp only [if_neg hinput]
        exact .done fun p h => ⟨h, .quiet h.1.1 h.2⟩
    refine (hinput.mono (fun _ => Idle.of_eq) fun _ _ h => h).bind fun _ => ?_
    exact .done fun p h => .other (eq_false_of_ne_true hs) hroot hset h.1 h.2

end Pass

namespace Engine

variable [Number ν] {g : Engine ν}

lemma writes_of_ok (h : g.store.Sound) {id : EntityId} {a : Attribute} {v : ν} {o : Outcome ν} {g' : Engine ν}
    (hok : g.setAttribute id a v = (.ok o, g')) :
    ∃ p, Pass.Writes g.config id a v o.old g.plainPass p ∧ p.updated = o.updated ∧ g'.Holds g.config p := by
  rcases hp : (Pass.write g.config id a v).start g.plainPass with ⟨_ | old, p⟩
  · obtain ⟨_, hset, -⟩ := setAttribute_error h hp
    cases hset.symm.trans hok
  · obtain ⟨_, hset, hold⟩ := setAttribute_ok h hp
    cases hset.symm.trans hok
    exact ⟨p, Pass.write_ok g.config id a v g.plainPass old p (.refl _) hp, rfl, hold⟩

lemma setAttribute_cases (h : g.store.Sound) (id : EntityId) (a : Attribute) (v : ν) :
    (∃ e g', g.setAttribute id a v = (.error e, g') ∧ g'.store.Sound ∧ g'.config = g.config ∧
        g'.store.listing = g.store.listing ∧ g'.model = g.model) ∨
      ∃ o g' w', g.setAttribute id a v = (.ok o, g') ∧ Wrote g.config id a v g.plainPass.work w' ∧ g'.store.Sound ∧
        g'.config = g.config ∧ g'.store.listing = w'.store ∧ g'.model = w'.model := by
  rcases hp : (Pass.write g.config id a v).start g.plainPass with ⟨_ | old, p⟩
  · obtain ⟨g', hset, hold, -⟩ := setAttribute_error h hp
    exact .inl ⟨_, g', hset, hold.store.sound, hold.config, hold.store.listing, hold.model⟩
  · obtain ⟨g', hset, hold⟩ := setAttribute_ok h hp
    have hwrote := (Pass.write_ok g.config id a v g.plainPass old p (.refl _) hp).wrote
    exact .inr ⟨_, g', p.work, hset, hwrote, hold.store.sound, hold.config, hold.store.listing, hold.model⟩

inductive Does (g : Engine ν) : Request ν → Listing ν → Registry ν → Prop
  | entered {kind : EntityKind} {container : Option EntityId} {id : EntityId} {m : Registry ν} :
    g.model.insert kind container = .ok (id, m) → Does g (.addEntity kind container) g.store.listing m
  | unentered {kind : EntityKind} {container : Option EntityId} {e : ModelError} :
    g.model.insert kind container = .error e → Does g (.addEntity kind container) g.store.listing g.model
  | noted {r : Record ν} : g.checkRecord r = .ok () → g.store.listing.holds r.id = false →
    Does g (.annotate r) (g.store.listing.append r) g.model
  | unnoted {r : Record ν} : (g.checkRecord r = .ok () → g.store.listing.holds r.id = true) →
    Does g (.annotate r) g.store.listing g.model
  | wrote {id : EntityId} {a : Attribute} {v : ν} {o : Outcome ν} {w' : Workspace (Listing ν) ν} :
    (g.setAttribute id a v).1 = .ok o → Wrote g.config id a v g.plainPass.work w' →
    Does g (.setAttribute id a v) w'.store w'.model
  | unwritten {id : EntityId} {a : Attribute} {v : ν} {e : Error ν} : (g.setAttribute id a v).1 = .error e →
    Does g (.setAttribute id a v) g.store.listing g.model

lemma respond_does (h : g.store.Sound) (q : Request ν) :
    (g.respond q).2.store.Sound ∧ (g.respond q).2.config = g.config ∧
      g.Does q (g.respond q).2.store.listing (g.respond q).2.model := by
  cases q with
  | addEntity kind container =>
    rw [respond, Engine.addEntity]
    cases hm : g.model.insert kind container with
    | error e => exact ⟨h, rfl, .unentered hm⟩
    | ok x => exact ⟨h, rfl, .entered hm⟩
  | annotate r =>
    rw [respond, Engine.annotate]
    cases hcheck : g.checkRecord r with
    | error e => exact ⟨h, rfl, .unnoted fun hok => nomatch hcheck.symm.trans hok⟩
    | ok u =>
      have hs := ((Stands.mk h rfl).insertIfAbsent r).2
      refine ⟨hs.sound, rfl, ?_⟩
      change g.Does (.annotate r) (g.store.insertIfAbsent r).2.listing g.model
      rw [hs.listing, Listing.insertIfAbsent]
      cases hr : g.store.listing.holds r.id with
      | true => exact .unnoted fun _ => hr
      | false => exact .noted hcheck hr
  | setAttribute id a v =>
    rw [respond]
    rcases setAttribute_cases h id a v with ⟨e, g', hset, hsound, hconfig, hlisting, hmodel⟩ |
      ⟨o, g', w', hset, hwrote, hsound, hconfig, hlisting, hmodel⟩
    · have hfailed : (g.setAttribute id a v).1 = .error e := congrArg Prod.fst hset
      rw [hset]
      exact ⟨hsound, hconfig, hlisting ▸ hmodel ▸ .unwritten hfailed⟩
    · have hok : (g.setAttribute id a v).1 = .ok o := congrArg Prod.fst hset
      rw [hset]
      exact ⟨hsound, hconfig, hlisting ▸ hmodel ▸ .wrote hok hwrote⟩

lemma serve_keeps {I : Engine ν → Prop} {P : Request ν → Prop}
    (hstep : ∀ {g : Engine ν} {q : Request ν}, I g → P q → I (g.respond q).2) (qs : List (Request ν)) (h : I g)
    (hqs : ∀ q ∈ qs, P q) : I (serve qs g).2 := by
  induction qs generalizing g with
  | nil => exact h
  | cons q qs ih =>
    rw [List.forall_mem_cons] at hqs
    exact ih (hstep h hqs.1) hqs.2

end Engine

end Uncertainty
