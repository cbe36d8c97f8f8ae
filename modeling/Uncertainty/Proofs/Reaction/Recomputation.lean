import Uncertainty.Proofs.Model.Walk
import Uncertainty.Proofs.Reaction.Plain
import Uncertainty.Proofs.Reaction.Saving

namespace Uncertainty

open Attempt

variable {ν : Type}

def IsCurrent {σ : Type} [RecordStore σ ν] (s : σ) (m : Registry ν) (order : List EntityId) (a : Attribute)
    (v : Value ν) : Prop :=
  ∃ holder, order.find? (m.supports · a) = some holder ∧
    Reaction.IsValueOf m a holder (recordedExpression? s a holder) v

lemma Record.withExpression_of_expression? {r : Record ν} {e : Expression ν} (h : r.expression? = some e) :
    r.withExpression e = r := by
  obtain ⟨effect, heffect, he⟩ := Option.bind_eq_some_iff.mp h
  rw [withExpression, heffect, ← he]
  exact congrArg (fun effect => { r with effect := effect }) heffect.symm

section Plain

variable {container : EntityId} {order : List EntityId} {a : Attribute} {v : Value ν} {w w' : Workspace (Store ν) ν}

lemma AgreeOn.plain (h : AgreeOn a w w') (hs : w.store.Sound) (hs' : w'.store.Sound) : AgreeOn a w.plain w'.plain := by
  refine ⟨fun id => ?_, h.holder, h.value⟩
  rw [Workspace.recordedExpression?_plain hs, Workspace.recordedExpression?_plain hs']
  exact h.recorded id

lemma Reaction.IsKnown.isCurrent (h : IsKnown w.plain container a v) (hs : w.store.Sound)
    (hwalk : w.model.Walk [container] order) : IsCurrent w.store w.model order a v := by
  obtain ⟨holder, hholder, hv⟩ := h
  rw [Workspace.recordedExpression?_plain hs] at hv
  exact ⟨holder, hwalk.find?_of_findHolder hholder, hv⟩

lemma Reaction.IsKnown.exists_walk {w : Workspace (Listing ν) ν} (h : IsKnown w container a v) (ht : w.model.Tidy) :
    ∃ order, w.model.Walk [container] order := by
  obtain ⟨holder, hholder, -⟩ := h
  obtain ⟨kind, hkind⟩ := Registry.kind_of_findHolder hholder
  exact ht.exists_walk hkind

end Plain

namespace Reaction

section Running

variable [Number ν] {reaction : Reaction} {config : Sampling} {trigger : Trigger ν} {formula : String}
  {inputs : List Input} {w w' : Workspace (Listing ν) ν} {container : EntityId} {template r : Record ν}
  {e : Expression ν}

section Writing

variable (hn : (w.store.records.map (·.id)).Nodup)
  (h : start (reaction.writeBack config container (RecordStore.find? w.store reaction.derived.name container) template e)
    w = (.ok r, w'))
include hn h

lemma agreeOn_of_writeBack {a : Attribute} (hne : a ≠ reaction.derived) : AgreeOn a w w' := by
  obtain ⟨-, hsaves, old, hset⟩ := writeBack_eq_ok.mp h
  refine ⟨fun id => ?_, ((Registry.SameBut.of_set hset).findHolder · a), fun id => ?_⟩
  · exact congrArg (·.bind (·.expression?)) (hsaves.savedAs.saved.find?_ne hn hne id)
  · exact Registry.get_set_ne hset fun hid => hne hid.2

lemma exists_source_of_writeBack {a : Attribute} {id : EntityId} {new : Expression ν}
    (hnew : recordedExpression? w.store a id = some new) : ∃ source new',
      RecordStore.find? w'.store a.name id = some source ∧ recordedExpression? w'.store a id = some new' := by
  obtain ⟨-, hsaves, -⟩ := writeBack_eq_ok.mp h
  obtain ⟨new', hnew'⟩ := hsaves.savedAs.saved.exists_recordedExpression? hn hnew
  obtain ⟨source, hsource, -⟩ := Option.bind_eq_some_iff.mp hnew'
  exact ⟨source, new', hsource, hnew'⟩

lemma writeBack_again (template' : Record ν) :
    start (reaction.writeBack config container (RecordStore.find? w'.store reaction.derived.name container) template' e)
      w' = (.ok r, w') := by
  obtain ⟨hfinite, hsaves, old, hset⟩ := writeBack_eq_ok.mp h
  have hfound := hsaves.savedAs.filed.found
  have hself := Record.withExpression_of_expression? hsaves.savedAs.expression
  have hupdate := Listing.update_self (hsaves.savedAs.saved.nodup hn) (Listing.mem_of_find? hfound).1
  rw [hfound]
  exact writeBack_eq_ok.mpr ⟨hfinite, ⟨hself.symm, hupdate, rfl⟩, _, Registry.set_set hset⟩

end Writing

variable (hpolicy : reaction.policy = .recompute formula inputs)
include hpolicy

lemma Yields.recomputed (h : Yields reaction w e trigger) : Recomputed w trigger.container formula inputs e := by
  cases trigger with
  | change c =>
    obtain ⟨new, -, hadds⟩ := h
    rwa [Adds, hpolicy] at hadds
  | changes c count =>
    obtain ⟨-, new, -, hadds⟩ := h
    rwa [Adds, hpolicy] at hadds
  | difference container delta =>
    rwa [Yields, Absorbs, hpolicy] at h

lemma recomputed_of_run (h : start (reaction.run config trigger) w = (.ok (some r), w')) :
    ∃ e, r.expression? = some e ∧ Recomputed w trigger.container formula inputs e := by
  obtain ⟨source, e, -, hyields, hr⟩ := run_eq_some.mp h
  obtain ⟨-, hsaves, -⟩ := writeBack_eq_ok.mp hr
  exact ⟨e, hsaves.savedAs.expression, hyields.recomputed hpolicy⟩

lemma run_again (hinputs : ∀ input ∈ inputs, input.source ≠ reaction.derived)
    (hn : (w.store.records.map (·.id)).Nodup) (h : start (reaction.run config trigger) w = (.ok (some r), w')) :
    start (reaction.run config trigger) w' = (.ok (some r), w') := by
  obtain ⟨source, e, hsource, hyields, hr⟩ := run_eq_some.mp h
  have hrecomputed : Recomputed w' trigger.container formula inputs e :=
    (hyields.recomputed hpolicy).of_agreeOn fun input hinput => agreeOn_of_writeBack hn hr (hinputs input hinput)
  apply run_eq_some.mpr
  cases trigger with
  | change c =>
    obtain ⟨new, hnew, -⟩ := hyields
    obtain ⟨source', new', hsource', hnew'⟩ := exists_source_of_writeBack hn hr hnew
    exact ⟨source', e, hsource', ⟨new', hnew', by rwa [Adds, hpolicy]⟩, writeBack_again hn hr source'⟩
  | changes c count =>
    obtain ⟨hcount, new, hnew, -⟩ := hyields
    obtain ⟨source', new', hsource', hnew'⟩ := exists_source_of_writeBack hn hr hnew
    exact ⟨source', e, hsource', ⟨hcount, new', hnew', by rwa [Adds, hpolicy]⟩, writeBack_again hn hr source'⟩
  | difference container delta =>
    obtain ⟨-, hfiled⟩ := written_of_writeBack hr
    exact ⟨r, e, hfiled.found, by rwa [Yields, Absorbs, hpolicy], writeBack_again hn hr r⟩

end Running

/-- The expression of the damping ratio is that of its formula for the current values of its inputs. Where they are the
same, so is the expression, and once more the same reaction succeeds and changes nothing. -/
theorem damping_ratio_follows_inputs_alone [Number ν] (calls : List (StoreCall ν)) (modelCalls : List (ModelCall ν))
    (supply : IdSupply) (config : Sampling) (trigger : Trigger ν) {r : Record ν} {w' : Workspace (Store ν) ν} :
    let s := (StoreCall.performAll calls (Store.empty : Store ν)).2
    let m := ModelCall.performAll modelCalls (Registry.empty : Registry ν)
    let w : Workspace (Store ν) ν := ⟨s, m, supply⟩
    start (dampingRatio.run config trigger) w = (.ok (some r), w') →
      (∃ order c k mass u, m.Walk [trigger.container] order ∧ IsCurrent s m order .dampingConstant c ∧
        IsCurrent s m order .stiffness k ∧ IsCurrent s m order .totalMass mass ∧
        (Environment.ofList [("c", c), ("k", k), ("m", mass)]).evaluateText dampingFormula = .ok u ∧
        r.expression? = some u.toExpression) ∧
      (∀ (calls' : List (StoreCall ν)) (m' : Registry ν) (supply' : IdSupply) (config' : Sampling) (trigger' : Trigger ν)
        (r' : Record ν) (w'' : Workspace (Store ν) ν),
        let v : Workspace (Store ν) ν := ⟨(StoreCall.performAll calls' (Store.empty : Store ν)).2, m', supply'⟩
        (∀ a : Attribute, a.isDampingInput = true → AgreeOn a w v) → trigger'.container = trigger.container →
          start (dampingRatio.run config' trigger') v = (.ok (some r'), w'') → r'.expression? = r.expression?) ∧
      ∃ w'', start (dampingRatio.run config trigger) w' = (.ok (some r), w'') ∧ SameAnswers w''.store w'.store ∧
        w''.model = w'.model ∧ w''.supply = w'.supply := by
  intro s m w h
  have hs : Stands s s.listing := ⟨(Stands.empty.performAll calls).2.sound, rfl⟩
  obtain ⟨hrun, hs'⟩ := Workspace.start_run_plain_of_eq hs.sound h
  obtain ⟨e, hexpression, hrecomputed⟩ := recomputed_of_run rfl hrun
  have hinputs : ∀ input ∈ ([⟨"c", .dampingConstant⟩, ⟨"k", .stiffness⟩, ⟨"m", .totalMass⟩] : List Input),
      input.source.isDampingInput = true ∧ input.source ≠ dampingRatio.derived := by decide
  refine ⟨?_, ?_, ?_⟩
  · obtain ⟨values, u, hvalues, hu, rfl⟩ := hrecomputed
    rcases hvalues with _ | ⟨hc, _ | ⟨hk, _ | ⟨hmass, _ | _⟩⟩⟩
    obtain ⟨order, hwalk⟩ := hc.exists_walk (.performAll .empty modelCalls)
    exact ⟨order, _, _, _, u, hwalk, hc.isCurrent hs.sound hwalk, hk.isCurrent hs.sound hwalk,
      hmass.isCurrent hs.sound hwalk, hu, hexpression⟩
  · intro calls' m' supply' config' trigger' r' w'' v hagree hcontainer hv
    have hvs : v.store.Sound := (Stands.empty.performAll calls').2.sound
    obtain ⟨hrun', -⟩ := Workspace.start_run_plain_of_eq hvs hv
    obtain ⟨e', hexpression', hrecomputed'⟩ := recomputed_of_run rfl hrun'
    have hagree' := hrecomputed.of_agreeOn fun input hinput => (hagree _ (hinputs input hinput).1).plain hs.sound hvs
    rw [hcontainer] at hrecomputed'
    rw [hexpression, hexpression', hrecomputed'.unique hagree']
  · have hagain := run_again rfl (fun input hinput => (hinputs input hinput).2) hs.ids_nodup hrun
    obtain ⟨w'', hsecond, hw, hsound⟩ := Workspace.exists_start_run_of_plain hs' hagain
    have hstands : Stands w''.store w'.store.listing := ⟨hsound, congrArg Workspace.store hw⟩
    have hanswers : SameAnswers w'.store w'.store.listing := Stands.answers ⟨hs', rfl⟩
    have hmodel : w''.plain.model = w'.plain.model := congrArg Workspace.model hw
    have hsupply : w''.plain.supply = w'.plain.supply := congrArg Workspace.supply hw
    exact ⟨w'', hsecond, hstands.answers.trans hanswers.symm, hmodel, hsupply⟩

def evenRoot : Transcendentals :=
  ⟨fun p q => if p = 4 ∧ q = 1 / 2 then some 2 else none, fun _ => none, fun _ => none, fun _ => none, 0⟩

theorem damped_spring_has_current_ratio :
    let modelCalls : List (ModelCall (Exact evenRoot)) := [.insert .damperSystem none, .insert .springDamper (some ⟨0⟩),
      .set ⟨1⟩ .stiffness (.rational 2), .set ⟨0⟩ .totalMass (.rational 2)]
    let m := ModelCall.performAll modelCalls Registry.empty
    let damper := derivedRecord .dampingConstant ⟨1⟩ default ⟨0, 1⟩ (.distribution (.normal (.rational 8) (.rational 1)))
    let w : Workspace (Store (Exact evenRoot)) (Exact evenRoot) :=
      ⟨(StoreCall.performAll [.insert damper] (Store.empty : Store (Exact evenRoot))).2, m, ⟨0⟩⟩
    let trigger : Trigger (Exact evenRoot) := .changes ⟨.dampingConstant, .rational 0, .rational 8, ⟨1⟩, ⟨0⟩⟩ 5
    m.Walk [⟨0⟩] [⟨0⟩, ⟨1⟩] ∧ ∃ c r w' w'', start (dampingRatio.run .standard trigger) w = (.ok (some r), w') ∧
      IsCurrent w.store m [⟨0⟩, ⟨1⟩] .dampingConstant c ∧ r.expression?.map (·.mean .standard) = some (.rational 2) ∧
      start (dampingRatio.run .standard trigger) w' = (.ok (some r), w'') ∧ w''.store.records = w'.store.records := by
  intro modelCalls m damper w trigger
  have hmean : ((start (dampingRatio.run .standard trigger) w).1.toOption.bind id).map
      (·.expression?.map (·.mean .standard)) = some (some (.rational 2)) := by decide +kernel
  have hwalk : m.Walk [⟨0⟩] [⟨0⟩, ⟨1⟩] := .visit rfl (.visit rfl .done .done) .done
  rcases hrun : start (dampingRatio.run .standard trigger) w with ⟨x, w'⟩
  rw [hrun] at hmean
  obtain ⟨r, hr, hratio⟩ := Option.map_eq_some_iff.mp hmean
  obtain rfl := eq_ok_of_toOption_bind hr
  obtain ⟨⟨order, c, k, mass, u, horder, hc, -⟩, -, w'', hagain, hanswers, -⟩ :=
    damping_ratio_follows_inputs_alone [.insert damper] modelCalls ⟨0⟩ .standard trigger hrun
  obtain rfl := hwalk.unique horder
  exact ⟨hwalk, c, r, w', w'', rfl, hc, hratio, hagain, hanswers.records⟩

end Reaction

end Uncertainty
