import Uncertainty.Proofs.Engine.Totals
import Uncertainty.Proofs.Model.Masses

/-! The variance of a recorded total mass is the sum of what went into it, where each item counts once. -/

namespace Uncertainty

open Attempt Workspace

lemma Change.items_set {ν : Type} [Number ν] {m m' : Registry ν} {id system : EntityId} {a : Attribute} {v old : ν}
    {n : Nat} (hset : m.set id a v = .ok (old, m')) (hs : (a.isMass || a.isCount) = true)
    (hn : Change.items ⟨a, old, v, id, system⟩ m' = .ok n) (h : n ≠ 0 ∨ a.isMass = true) :
    a.isMass = true ∧ m.multiplicity id a = .ok n := by
  rw [items] at hn
  by_cases hcount : a.isCount = true
  · rw [if_pos hcount] at hn
    have hmass : a.isMass = true := h.resolve_left fun hpos => hpos (Except.ok.inj hn).symm
    cases a <;> first | exact absurd hmass (by decide) | exact absurd hcount (by decide)
  · rw [if_neg hcount] at hn
    have hmass : a.isMass = true := by simpa [hcount] using hs
    exact ⟨hmass, (Registry.multiplicity_set hset hmass).symm.trans hn⟩

def Request.IsLinear {ν : Type} [Number ν] : Request ν → Prop
  | annotate r => ∀ e, r.expression? = some e → e.IsLinear
  | _ => True

namespace Engine

section Ledger

variable {ν : Type} [Number ν]

def posting? (g : Engine ν) (system : EntityId) : Request ν → Option (Nat × Expression ν)
  | .setAttribute id a v =>
    match (g.setAttribute id a v).1, g.model.rootOf id, g.model.multiplicity id a, recordedExpression? g.store a id with
    | .ok _, .ok root, .ok n, some e => if a.isMass && root = system && n ≠ 0 then some (n, e) else none
    | _, _, _, _ => none
  | _ => none

def ledger (system : EntityId) : List (Request ν) → Engine ν → List (Nat × Expression ν)
  | [], _ => []
  | q :: qs, g => (g.posting? system q).toList ++ ledger system qs (g.respond q).2

def ledgerVariance (config : Sampling) (entries : List (Nat × Expression ν)) : ν :=
  (entries.map fun entry => Number.ofNat entry.1 * (entry.2.moments config).variance).foldr (· + ·) Number.zero

end Ledger

variable {F : Transcendentals} {g : Engine (Exact F)} {base : Listing (Exact F)} {V : EntityId → Exact F}
  {id system : EntityId} {a : Attribute} {v : Exact F} {config : Sampling}

lemma ledgerVariance_append (xs ys : List (Nat × Expression (Exact F))) :
    ledgerVariance config (xs ++ ys) = ledgerVariance config xs + ledgerVariance config ys := by
  induction xs with
  | nil => exact (Exact.zero_add _).symm
  | cons x xs ih =>
    change _ + ledgerVariance config (xs ++ ys) = _ + ledgerVariance config xs + _
    rw [ih, Exact.add_assoc]

lemma recordedExpression?_listing (h : g.store.Sound) (a : Attribute) (id : EntityId) :
    recordedExpression? g.store a id = recordedExpression? g.store.listing a id := by
  rw [recordedExpression?, recordedExpression?, (Stands.mk h rfl).answers.find?]

lemma posting?_carried {n : Nat} {new : Expression (Exact F)} {o : Outcome (Exact F)} (ha : a.isMass = true)
    (hok : (g.setAttribute id a v).1 = .ok o) (hroot : g.model.rootOf id = .ok system)
    (hn : g.model.multiplicity id a = .ok n) (hpos : n ≠ 0) (hnew : recordedExpression? g.store a id = some new)
    (other : EntityId) :
    g.posting? other (.setAttribute id a v) = if system = other then some (n, new) else none := by
  rw [posting?, hok, hroot, hn, hnew]
  simp [ha, hpos]

lemma posting?_uncarried {n : Nat} (hn : a.isMass = true → g.model.multiplicity id a = .ok n)
    (hnone : a.isMass = true → n = 0 ∨ recordedExpression? g.store a id = none) (other : EntityId) :
    g.posting? other (.setAttribute id a v) = none := by
  rw [posting?]
  split
  · rename_i _ root n' e _ _ hn' he
    by_cases ha : a.isMass = true
    · obtain rfl := Except.ok.inj ((hn ha).symm.trans hn')
      rcases hnone ha with rfl | hnone
      · simp
      · cases hnone.symm.trans he
    · simp [ha]
  · rfl

lemma recorded_of_wrote {w' : Workspace (Listing (Exact F)) (Exact F)} {o : Outcome (Exact F)}
    (h : g.Mirrors base) (hr : Recorded V g.store.listing) (ha : a.isDerived = false)
    (hok : (g.setAttribute id a v).1 = .ok o) (hwrote : Wrote g.config id a v g.plainPass.work w') :
    Recorded (fun other => V other +
      ledgerVariance g.config.sampling (g.posting? other (.setAttribute id a v)).toList) w'.store := by
  have hnothing (hnone : ∀ other, g.posting? other (.setAttribute id a v) = none) : (fun other => V other +
      ledgerVariance g.config.sampling (g.posting? other (.setAttribute id a v)).toList) = V := by
    funext other
    rw [hnone other]
    exact Exact.add_zero _
  cases hwrote with
  | other hs hroot hset hstore hm hdamped =>
    have hmass : ¬ a.isMass = true := by
      intro hmass
      rw [hmass] at hs
      cases hs
    rw [hnothing (posting?_uncarried (n := 0) (absurd · hmass) (absurd · hmass))]
    refine Recorded.touches ?_ (h.mirrored.set_underived ha hset hstore hm) rfl (by decide) hdamped.touches
    rw [hstore]
    exact hr
  | @summed root before after old m w₁ w₂ w₃ hs hroot hbefore hset hafter hstore hm htotaled =>
    have hkept : Kept g.config.sampling base w₁ := h.mirrored.set_underived ha hset hstore hm
    have hkept₂ := htotaled.mass.kept rfl hkept
    obtain ⟨_, _, hdamped⟩ := htotaled.damping
    have hlater {V' : EntityId → Exact F} (h : Recorded V' w₂.store) : Recorded V' w'.store :=
      (h.touches hkept₂ rfl (by decide) htotaled.weight.touches).touches (htotaled.weight.kept hkept₂) rfl (by decide)
        hdamped.touches
    have hr₁ : Recorded V w₁.store := by
      rw [hstore]
      exact hr
    have hexpression : recordedExpression? g.store a id = recordedExpression? w₁.store a id := by
      rw [recordedExpression?_listing h.sound, hstore]
      rfl
    have hitems {n : Nat} (hn : Change.items ⟨a, old, v, id, root⟩ w₁.model = .ok n) (h : n ≠ 0 ∨ a.isMass = true) :
        a.isMass = true ∧ g.model.multiplicity id a = .ok n :=
      Change.items_set hset hs (hm ▸ hn) h
    obtain ⟨x, -, hposted⟩ := htotaled.mass.posted hr₁ hkept ha
    cases hposted with
    | @carried n new mo _ hn hpos hnew hmo hrecorded =>
      obtain ⟨hmass, hn⟩ := hitems hn (.inl hpos)
      have hposted : (fun other => V other +
          ledgerVariance g.config.sampling (g.posting? other (.setAttribute id a v)).toList) =
            Function.update V root (V root + Number.ofNat n * mo.variance) := by
        funext other
        rw [posting?_carried hmass hok hroot hn hpos (hexpression.trans hnew)]
        by_cases ho : root = other
        · rw [← ho, Function.update_self, if_pos rfl, ← hmo.moments_eq g.config.sampling]
          exact congrArg (V root + ·) (Exact.add_zero _)
        · rw [Function.update_of_ne (Ne.symm ho), if_neg ho]
          exact Exact.add_zero _
      rw [hposted]
      exact hlater hrecorded
    | shifted huncarried hrecorded =>
      obtain ⟨n, hn, hnone⟩ := huncarried
      rw [hnothing (posting?_uncarried (n := n) (fun hmass => (hitems hn (.inr hmass)).2) fun _ => hexpression ▸ hnone)]
      exact hlater hrecorded

lemma Does.recorded (h : g.Mirrors base) (hr : Recorded V g.store.listing) {q : Request (Exact F)}
    (hq : q.LeavesDerived) (hlinear : q.IsLinear) {l : Listing (Exact F)} {m : Registry (Exact F)}
    (hdoes : g.Does q l m) :
    Recorded (fun other => V other + ledgerVariance g.config.sampling (g.posting? other q).toList) l := by
  have hnothing (hnone : ∀ other, g.posting? other q = none) :
      (fun other => V other + ledgerVariance g.config.sampling (g.posting? other q).toList) = V := by
    funext other
    rw [hnone other]
    exact Exact.add_zero _
  cases hdoes with
  | entered | unentered | unnoted =>
    rw [hnothing fun _ => rfl]
    exact hr
  | noted =>
    rw [hnothing fun _ => rfl]
    exact hr.append hq hlinear
  | wrote hok hwrote => exact recorded_of_wrote h hr hq hok hwrote
  | unwritten hfailed =>
    rw [hnothing fun other => by rw [posting?, hfailed]]
    exact hr

lemma respond_recorded (h : g.Mirrors base) (hr : Recorded V g.store.listing) {q : Request (Exact F)}
    (hq : q.LeavesDerived) (hlinear : q.IsLinear) :
    Recorded (fun other => V other + ledgerVariance g.config.sampling (g.posting? other q).toList)
      (g.respond q).2.store.listing :=
  (respond_does h.sound q).2.2.recorded h hr hq hlinear

lemma serve_recorded (qs : List (Request (Exact F))) (h : g.Mirrors base) (hr : Recorded V g.store.listing)
    (hqs : ∀ q ∈ qs, q.LeavesDerived) (hlinear : ∀ q ∈ qs, q.IsLinear) :
    Recorded (fun other => V other + ledgerVariance g.config.sampling (ledger other qs g))
      (serve qs g).2.store.listing := by
  induction qs generalizing g V with
  | nil =>
    have hnothing : (fun other => V other + ledgerVariance g.config.sampling (ledger other [] g)) = V :=
      funext fun other => Exact.add_zero _
    rw [hnothing]
    exact hr
  | cons q qs ih =>
    obtain ⟨hnext, hconfig⟩ := respond_mirrors h (hqs q List.mem_cons_self)
    have hfirst := respond_recorded h hr (hqs q List.mem_cons_self) (hlinear q List.mem_cons_self)
    have hrest := ih hnext hfirst (fun q hq => hqs q (List.mem_cons_of_mem _ hq))
      fun q hq => hlinear q (List.mem_cons_of_mem _ hq)
    have hledger : (fun other => V other + ledgerVariance g.config.sampling (ledger other (q :: qs) g)) =
        fun other => V other + ledgerVariance g.config.sampling (g.posting? other q).toList +
          ledgerVariance (g.respond q).2.config.sampling (ledger other qs (g.respond q).2) := by
      funext other
      rw [ledger, ledgerVariance_append, hconfig, Exact.add_assoc]
    rw [hledger]
    exact hrest

theorem total_variance_is_ledger [IdSource] {config : Config} {g₀ : Engine (Exact F)}
    (hnew : Engine.new config = .ok g₀)
    (qs : List (Request (Exact F))) (hqs : ∀ q ∈ qs, q.LeavesDerived) (hlinear : ∀ q ∈ qs, q.IsLinear)
    (system : EntityId) : ∀ r ∈ (serve qs g₀).2.store.records, r.describes Attribute.totalMass.name system = true →
      ∃ e, r.expression? = some e ∧
        (e.moments config.sampling).variance = ledgerVariance config.sampling (ledger system qs g₀) := by
  intro r hr hdesc
  have hconfig : g₀.config = config := congrArg Engine.config (new_ok hnew)
  have hempty : Recorded (fun _ => Number.zero) g₀.store.listing := by
    obtain rfl := new_ok hnew
    exact .empty
  obtain ⟨e, m, he, hm, hvariance⟩ := (serve_recorded qs (new_mirrors hnew) hempty hqs hlinear).total r hr system hdesc
  refine ⟨e, he, ?_⟩
  rw [hm.moments_eq, hvariance, hconfig, Exact.zero_add]

def weighedArms : List (Request (Exact F)) :=
  let record : Record (Exact F) :=
    { id := ⟨0, 1⟩
      kind := default
      nature := default
      reducibility := default
      onDelete := default
      setManually := true
      location := Location.ofAttribute .armMass [⟨1⟩]
      effect := some { expression := some (.distribution (.normal (.rational 5) (.rational 2))) }
      pattern := none
      perspective := none
      source := none }
  [.addEntity .damperSystem none, .addEntity .guidanceElement (some ⟨0⟩), .annotate record,
    .setAttribute ⟨1⟩ .armCount (.rational 3), .setAttribute ⟨1⟩ .armMass (.rational 5),
    .setAttribute ⟨1⟩ .jointMiddlePartMass (.rational 4), .setAttribute ⟨1⟩ .armCount (.rational 2),
    .setAttribute ⟨1⟩ .armMass (.rational 5)]

def bare : Transcendentals := ⟨fun _ _ => none, fun _ => none, fun _ => none, fun _ => none, 0⟩

lemma weighedArms_leave_derived : ∀ q ∈ (weighedArms : List (Request (Exact F))), q.LeavesDerived := by
  have hrecord : ∀ d : Attribute, d.isDerived = true → some Attribute.armMass.name ≠ some d.name := by
    intro d hd hname
    obtain rfl := Attribute.name_injective (Option.some.inj hname)
    cases hd
  simp only [weighedArms, List.forall_mem_cons]
  exact ⟨trivial, trivial, hrecord, rfl, rfl, rfl, rfl, rfl, fun _ hq => absurd hq List.not_mem_nil⟩

lemma weighedArms_linear : ∀ q ∈ (weighedArms : List (Request (Exact F))), q.IsLinear := by
  have hrecord : ∀ e, some (Expression.distribution (.normal (.rational 5) (.rational 2) : Distribution (Exact F))) =
      some e → e.IsLinear := by
    rintro e ⟨⟩
    exact ⟨rfl, rfl⟩
  simp only [weighedArms, List.forall_mem_cons]
  exact ⟨trivial, trivial, hrecord, trivial, trivial, trivial, trivial, trivial,
    fun _ hq => absurd hq List.not_mem_nil⟩

theorem arms_count_once_each :
    let g := (serve weighedArms (⟨{}, Registry.empty, Store.empty, [], ⟨0⟩⟩ : Engine (Exact bare))).2
    ∃ r ∈ g.store.records, r.describes Attribute.totalMass.name ⟨0⟩ = true ∧
      ∃ e, r.expression? = some e ∧ (e.moments Sampling.standard).variance = .rational 20 := by
  intro g
  have hnew : Engine.new {} = .ok (⟨{}, Registry.empty, Store.empty, [], ⟨0⟩⟩ : Engine (Exact bare)) := rfl
  have hcount : 0 < g.store.records.countP (·.describes Attribute.totalMass.name ⟨0⟩) := by decide +kernel
  have hledger : ledgerVariance Sampling.standard
      (ledger ⟨0⟩ weighedArms (⟨{}, Registry.empty, Store.empty, [], ⟨0⟩⟩ : Engine (Exact bare))) = .rational 20 := by
    decide +kernel
  obtain ⟨r, hr, hdesc⟩ := List.countP_pos_iff.mp hcount
  obtain ⟨e, he, hvariance⟩ :=
    total_variance_is_ledger hnew weighedArms weighedArms_leave_derived weighedArms_linear ⟨0⟩ r hr hdesc
  exact ⟨r, hr, hdesc, e, he, hvariance.trans hledger⟩

end Engine

end Uncertainty
