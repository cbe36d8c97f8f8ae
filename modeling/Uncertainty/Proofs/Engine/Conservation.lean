import Uncertainty.Proofs.Engine.Ledger

/-! The total mass of a system is the sum of the masses of its parts, though it is never summed anew. -/

namespace Uncertainty

open Attempt Workspace

def Request.IsDefined {ν : Type} [Number ν] : Request ν → Prop
  | setAttribute _ _ v => Number.isFinite v = true
  | _ => True

namespace Engine

section Faithful

variable {ν : Type} [Number ν]

/-- A write of a part mass that succeeds writes the mean of the expression that the earliest record of that mass says,
if one does. -/
def WritesMean (g : Engine ν) : Request ν → Prop
  | .setAttribute id a v => a.isMass = true → (g.setAttribute id a v).1.isOk = true →
      ∀ e ∈ recordedExpression? g.store a id, v = e.mean g.config.sampling
  | _ => True

def WritesMeans : List (Request ν) → Engine ν → Prop
  | [], _ => True
  | q :: qs, g => g.WritesMean q ∧ WritesMeans qs (g.respond q).2

instance [DecidableEq ν] (g : Engine ν) : DecidablePred g.WritesMean
  | .addEntity _ _ | .annotate _ => isTrue trivial
  | .setAttribute _ _ _ => inferInstanceAs (Decidable (_ → _ → ∀ e ∈ _, _))

instance decidableWritesMeans [DecidableEq ν] : ∀ (qs : List (Request ν)) (g : Engine ν), Decidable (WritesMeans qs g)
  | [], _ => isTrue trivial
  | q :: qs, g =>
    have := decidableWritesMeans qs (g.respond q).2
    inferInstanceAs (Decidable (_ ∧ _))

end Faithful

variable {F : Transcendentals} {g : Engine (Exact F)} {base : Listing (Exact F)} {V : EntityId → Exact F}
  {id system : EntityId} {a : Attribute} {v : Exact F}

lemma books_touches {d : Attribute} {gap : EntityId → ℚ} {w w' : Workspace (Listing (Exact F)) (Exact F)}
    (h : w.model.Books gap) (hd : d.isDerived = true) (hne : d ≠ .totalMass) (ht : Touches d w w') :
    w'.model.Books gap := by
  have hplain : d.isMass = false ∧ d.isCount = false := by
    revert hd
    cases d <;> decide
  rcases ht.model with hm | ⟨system, v, old, hset⟩
  · rw [hm]
    exact h
  · exact h.set_other hset (fun ha => absurd (hd.symm.trans ha) nofun) hplain.1 hplain.2 hne

lemma books_posted {change : Change (Exact F)} {x : Exact F} {short : ℚ}
    {w w' : Workspace (Listing (Exact F)) (Exact F)} (hb : w.model.Books (Function.update 0 change.container short))
    (hroot : w.model.kind change.container = .ok .damperSystem)
    (hx : w.model.get change.container .totalMass = .ok x)
    (hcarried : ∀ n new, change.items w.model = .ok n → n ≠ 0 →
      recordedExpression? w.store change.parameter change.affected = some new → ∀ mo, new.HasMoments mo →
        Number.ofNat n * (mo.mean - change.old) = (.rational short : Exact F))
    (hposted : Posted V change (.rational short) x w w') : w'.model.Books 0 := by
  have htotal : x + .rational short = .rational (w.model.systemMass change.container) := by
    have hx' := hx.symm.trans (hb.total _ hroot)
    rw [Except.ok.inj hx', Function.update_self, Exact.rational_add, sub_add_cancel]
  have hbalanced {old : Exact F}
      (hset : w.model.set change.container .totalMass (x + .rational short) = .ok (old, w'.model)) :
      w'.model.Books 0 := by
    rw [htotal] at hset
    have hbooks := hb.set_total hset
    have hnone : Function.update (0 : EntityId → ℚ) change.container 0 = 0 := Function.update_eq_self _ _
    rwa [Function.update_idem, hnone] at hbooks
  cases hposted with
  | carried hn hpos hnew hmo _ hset =>
    rw [hcarried _ _ hn hpos hnew _ hmo] at hset
    exact hbalanced hset
  | shifted _ _ hset => exact hbalanced hset

lemma books_of_wrote {w' : Workspace (Listing (Exact F)) (Exact F)} (h : g.Mirrors base)
    (hr : Recorded V g.store.listing) (hb : g.model.Books 0) (ha : a.isDerived = false) (hv : Number.isFinite v = true)
    (hmean : a.isMass = true → ∀ e, recordedExpression? g.store.listing a id = some e → v = e.mean g.config.sampling)
    (hwrote : Wrote g.config id a v g.plainPass.work w') : w'.model.Books 0 := by
  cases hwrote with
  | other hs _ hset _ hm hdamped =>
    obtain ⟨hmass, hcount⟩ := Bool.or_eq_false_iff.mp hs
    have hne : a ≠ .totalMass := by
      rintro rfl
      cases ha
    refine books_touches ?_ rfl (by decide) hdamped.touches
    rw [hm]
    exact hb.set_other hset (fun _ => hv) hmass hcount hne
  | @summed root before after old m w₁ w₂ w₃ hs hroot hbefore hset hafter hstore hm htotaled =>
    have hkept : Kept g.config.sampling base w₁ := h.mirrored.set_underived ha hset hstore hm
    change g.model.set id a v = .ok (old, m) at hset
    have hc := hb.tidy.container_of_get hroot (Registry.get_of_set hset) ha
    -- The total is short of what the part gained, and the step on it makes up for that.
    have hgap := hb.set_part hset hv ha hc
    have hkind := hgap.tidy.above id root ((Registry.container_set hset id).trans hc)
    have hdelta : after - before = .rational (m.mass id - g.model.mass id) :=
      Registry.totalMass_set hset hb.tidy hb.defined hgap.defined hc hbefore hafter
    have hr₁ : Recorded V w₁.store := by
      rw [hstore]
      exact hr
    obtain ⟨x, hx, hposted⟩ := htotaled.mass.posted hr₁ hkept ha
    rw [hdelta] at hposted
    have hbooks : w₂.model.Books 0 := by
      refine books_posted (hm.symm ▸ hgap) (hm.symm ▸ hkind) hx ?_ hposted
      intro n new hn hpos hnew mo hmo
      obtain ⟨hmass, hn⟩ := Change.items_set hset hs (hm ▸ hn) (.inl hpos)
      rw [hstore] at hnew
      have hwritten : v = mo.mean := by
        rw [hmean hmass new hnew, Expression.mean, hmo.moments_eq]
      rw [← hwritten]
      exact Registry.mass_set_of_multiplicity hset hb.tidy hb.defined hmass ha hv hn
    obtain ⟨_, _, hdamped⟩ := htotaled.damping
    exact books_touches (books_touches hbooks rfl (by decide) htotaled.weight.touches) rfl (by decide) hdamped.touches

lemma Does.books (h : g.Mirrors base) (hr : Recorded V g.store.listing) (hb : g.model.Books 0)
    {q : Request (Exact F)} (hq : q.LeavesDerived) (hdefined : q.IsDefined) (hmean : g.WritesMean q)
    {l : Listing (Exact F)} {m : Registry (Exact F)} (hdoes : g.Does q l m) : m.Books 0 := by
  cases hdoes with
  | entered hm => exact hb.insert hm rfl
  | @wrote id a v _ _ hok hwrote =>
    have hok : (g.setAttribute id a v).1.isOk = true := by
      rw [hok]
      rfl
    exact books_of_wrote h hr hb hq hdefined
      (fun hmass e he => hmean hmass hok e ((recordedExpression?_listing h.sound a id).trans he)) hwrote
  | unentered | noted | unnoted | unwritten => exact hb

lemma respond_books (h : g.Mirrors base) (hr : Recorded V g.store.listing) (hb : g.model.Books 0)
    {q : Request (Exact F)} (hq : q.LeavesDerived) (hdefined : q.IsDefined) (hmean : g.WritesMean q) :
    (g.respond q).2.model.Books 0 :=
  (respond_does h.sound q).2.2.books h hr hb hq hdefined hmean

lemma serve_books (qs : List (Request (Exact F))) (h : g.Mirrors base) (hr : Recorded V g.store.listing)
    (hb : g.model.Books 0) (hqs : ∀ q ∈ qs, q.LeavesDerived) (hlinear : ∀ q ∈ qs, q.IsLinear)
    (hdefined : ∀ q ∈ qs, q.IsDefined) (hmeans : WritesMeans qs g) : (serve qs g).2.model.Books 0 := by
  induction qs generalizing g V with
  | nil => exact hb
  | cons q qs ih =>
    obtain ⟨hq, hqs⟩ := List.forall_mem_cons.mp hqs
    obtain ⟨hl, hlinear⟩ := List.forall_mem_cons.mp hlinear
    obtain ⟨hd, hdefined⟩ := List.forall_mem_cons.mp hdefined
    have hnext := respond_books h hr hb hq hd hmeans.1
    exact ih (respond_mirrors h hq).1 (respond_recorded h hr hq hl) hnext hqs hlinear hdefined hmeans.2

theorem total_mass_is_sum_of_parts [IdSource] {config : Config} {g₀ : Engine (Exact F)}
    (hnew : Engine.new config = .ok g₀)
    (qs : List (Request (Exact F))) (hqs : ∀ q ∈ qs, q.LeavesDerived) (hlinear : ∀ q ∈ qs, q.IsLinear)
    (hdefined : ∀ q ∈ qs, q.IsDefined) (hmeans : WritesMeans qs g₀) (system : EntityId) :
    let m := (serve qs g₀).2.model
    m.kind system = .ok .damperSystem → ∃ parts masses, m.children system = .ok parts ∧
      List.Forall₂ (fun part mass => m.partMass part = .ok (.rational mass)) parts masses ∧
      m.get system .totalMass = .ok (.rational masses.sum) := by
  intro m hsystem
  obtain ⟨hempty, hbooks⟩ : Recorded (fun _ => Number.zero) g₀.store.listing ∧ g₀.model.Books 0 := by
    obtain rfl := new_ok hnew
    exact ⟨.empty, .empty⟩
  have hb : m.Books 0 := serve_books qs (new_mirrors hnew) hempty hbooks hqs hlinear hdefined hmeans
  obtain ⟨e, he, -⟩ := Registry.kind_ok_iff.mp hsystem
  have hparts : m.children system = .ok e.children := Registry.children_ok_iff.mpr ⟨e, he, rfl⟩
  refine ⟨e.children, e.children.map m.mass, hparts, ?_, ?_⟩
  · refine List.forall₂_map_right_iff.mpr (List.forall₂_same.mpr fun part hpart => ?_)
    obtain ⟨k, hk⟩ := Registry.kind_of_child hb.tidy hparts hpart
    exact Registry.partMass_eq hb.tidy hb.defined hk
  · rw [hb.total system hsystem, Registry.systemMass, hparts, Pi.zero_apply, sub_zero]

theorem arms_and_joint_make_up_total :
    let m := (serve weighedArms (⟨{}, Registry.empty, Store.empty, [], ⟨0⟩⟩ : Engine (Exact bare))).2.model
    WritesMeans weighedArms (⟨{}, Registry.empty, Store.empty, [], ⟨0⟩⟩ : Engine (Exact bare)) ∧
      m.children ⟨0⟩ = .ok [⟨1⟩] ∧ m.partMass ⟨1⟩ = .ok (.rational 14) ∧
        m.get ⟨0⟩ .totalMass = .ok (.rational 14) := by
  intro m
  have hnew : Engine.new {} = .ok (⟨{}, Registry.empty, Store.empty, [], ⟨0⟩⟩ : Engine (Exact bare)) := rfl
  have hdefined : ∀ q ∈ (weighedArms : List (Request (Exact bare))), q.IsDefined := by
    simp only [weighedArms, List.forall_mem_cons]
    exact ⟨trivial, trivial, trivial, rfl, rfl, rfl, rfl, rfl, fun _ hq => absurd hq List.not_mem_nil⟩
  have hmeans : WritesMeans weighedArms (⟨{}, Registry.empty, Store.empty, [], ⟨0⟩⟩ : Engine (Exact bare)) := by
    decide +kernel
  have hsystem : m.kind ⟨0⟩ = .ok .damperSystem := by decide +kernel
  have hpart : m.children ⟨0⟩ = .ok [⟨1⟩] := by decide +kernel
  have hmass : m.partMass ⟨1⟩ = .ok (.rational 14) := by decide +kernel
  obtain ⟨parts, masses, hparts, hmasses, htotal⟩ := total_mass_is_sum_of_parts hnew weighedArms
    weighedArms_leave_derived weighedArms_linear hdefined hmeans ⟨0⟩ hsystem
  obtain rfl := Except.ok.inj (hpart.symm.trans hparts)
  rcases hmasses with _ | ⟨hfirst, _ | _⟩
  cases hmass.symm.trans hfirst
  exact ⟨hmeans, hpart, hmass, by simpa using htotal⟩

end Engine

end Uncertainty
