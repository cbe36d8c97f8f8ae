import Uncertainty.Engine.Basic
import Uncertainty.Proofs.Model.Containment
import Uncertainty.Proofs.Reaction.Saving

namespace Uncertainty

open Workspace Reaction

variable {ν : Type}

structure Touches (d : Attribute) (w w' : Workspace (Listing ν) ν) : Prop where
  store : w'.store = w.store ∨ ∃ system template e,
    Saved d system (RecordStore.find? w.store d.name system) template e w.store w'.store
  model : w'.model = w.model ∨ ∃ system v old, w.model.set system d v = .ok (old, w'.model)

inductive Renews (d : Attribute) (system : EntityId) (w w' : Workspace (Listing ν) ν) : Prop
  | same : Same w w' → Renews d system w w'
  | valued {v old : ν} : w'.store = w.store → w.model.set system d v = .ok (old, w'.model) → Renews d system w w'
  | recorded {template : Record ν} {e : Expression ν} {v old : ν} :
    Saved d system (RecordStore.find? w.store d.name system) template e w.store w'.store →
    w.model.set system d v = .ok (old, w'.model) → Renews d system w w'

namespace Renews

variable {d : Attribute} {system : EntityId} {w w' : Workspace (Listing ν) ν}

lemma touches (h : Renews d system w w') : Touches d w w' := by
  cases h with
  | same h => exact ⟨.inl h.1, .inl h.2⟩
  | valued hstore hset => exact ⟨.inl hstore, .inr ⟨system, _, _, hset⟩⟩
  | recorded hsaved hset => exact ⟨.inr ⟨system, _, _, hsaved⟩, .inr ⟨system, _, _, hset⟩⟩

lemma model (h : Renews d system w w') : w'.model = w.model ∨ ∃ v old, w.model.set system d v = .ok (old, w'.model) := by
  cases h with
  | same h => exact .inl h.2
  | valued _ hset | recorded _ hset => exact .inr ⟨_, _, hset⟩

lemma sameBut (h : Renews d system w w') : Registry.SameBut (fun i b => i = system ∧ b = d) w.model w'.model := by
  rcases h.model with hm | ⟨_, _, hset⟩
  · exact .of_eq hm
  · exact .of_set hset

end Renews

namespace Touches

variable {a d : Attribute} {w w' : Workspace (Listing ν) ν} (h : Touches d w w')
include h

lemma get_ne (hne : a ≠ d) (id : EntityId) : w'.model.get id a = w.model.get id a := by
  rcases h.model with hm | ⟨_, _, _, hset⟩
  · rw [hm]
  · exact Registry.get_set_ne hset fun hb => hne hb.2

lemma tidy (ht : w.model.Tidy) : w'.model.Tidy := by
  rcases h.model with hm | ⟨_, _, _, hset⟩
  · rwa [hm]
  · exact ht.set hset

variable (hn : (w.store.records.map (·.id)).Nodup)
include hn

lemma nodup : (w'.store.records.map (·.id)).Nodup := by
  rcases h.store with hstore | ⟨_, _, _, hs⟩
  · rwa [hstore]
  · exact hs.nodup hn

lemma tells {d' : Attribute} (ht : w.store.Tells d') : w'.store.Tells d' := by
  rcases h.store with hstore | ⟨_, _, _, hs⟩
  · rwa [hstore]
  · exact hs.tells hn ht

lemma find?_ne (hne : a ≠ d) (id : EntityId) :
    RecordStore.find? w'.store a.name id = RecordStore.find? w.store a.name id := by
  rcases h.store with hstore | ⟨_, _, _, hs⟩
  · rw [hstore]
  · exact hs.find?_ne hn hne id

lemma recordedExpression?_ne (hne : a ≠ d) : recordedExpression? w'.store a = recordedExpression? w.store a := by
  funext id
  rw [recordedExpression?, recordedExpression?, h.find?_ne hn hne]

end Touches

lemma Reaction.IsKnown.touches {b d : Attribute} {apart : EntityId → Attribute → Prop} {w w' : Workspace (Listing ν) ν}
    {system : EntityId} {known : Value ν} (h : IsKnown w system b known) (hn : (w.store.records.map (·.id)).Nodup)
    (ht : Touches d w w') (hm : Registry.SameBut apart w.model w'.model) (hb : b ≠ d) : IsKnown w' system b known :=
  h.of_agreeOn ⟨congrFun (ht.recordedExpression?_ne hn hb), (hm.findHolder · b), ht.get_ne hb⟩

section Steps

variable [Number ν]

def Change.items (change : Change ν) (m : Registry ν) : Except ModelError Nat :=
  if change.parameter.isCount then .ok 0 else m.multiplicity change.affected change.parameter

def Change.Uncarried (change : Change ν) (w : Workspace (Listing ν) ν) : Prop :=
  ∃ n, change.items w.model = .ok n ∧ (n = 0 ∨ recordedExpression? w.store change.parameter change.affected = none)

/-- One step of a total: the recorded expression of the change comes in as often as there are items, or else the
difference shifts the recorded total, or else its value alone. -/
inductive Moved (config : Sampling) (reaction : Reaction) (change : Change ν) (delta : ν)
    (w w' : Workspace (Listing ν) ν) : Prop
  | carried {n : Nat} : change.items w.model = .ok n → n ≠ 0 → Carried config reaction change n w w' →
    Moved config reaction change delta w w'
  | shifted : change.Uncarried w → Shifted config reaction change.container delta w w' →
    Moved config reaction change delta w w'
  | plain {current old : ν} : change.Uncarried w →
    recordedExpression? w.store reaction.derived change.container = none ∨ (delta == Number.zero) = true →
    w'.store = w.store → w.model.get change.container reaction.derived = .ok current →
    w.model.set change.container reaction.derived (current + delta) = .ok (old, w'.model) →
    Moved config reaction change delta w w'

inductive Damped (config : Sampling) (change : Change ν) (w w' : Workspace (Listing ν) ν) : Prop
  | same : Same w w' → Damped config change w w'
  | carried : Carried config .dampingRatio change 1 w w' → Damped config change w w'
  | absorbed : Shifted config .dampingRatio change.container Number.zero w w' → Damped config change w w'
  | plain {ratio old : ν} : recordedExpression? w.store .dampingRatio change.container = none → w'.store = w.store →
    w.model.set change.container .dampingRatio ratio = .ok (old, w'.model) → Damped config change w w'

def Weighed (config : Config) (change : Change ν) (delta : ν) (w w' : Workspace (Listing ν) ν) : Prop :=
  config.propagateWeight = true ∧ Moved config.sampling .totalWeight change delta w w' ∨
    config.propagateWeight = false ∧ Same w w'

structure Totaled (config : Config) (change : Change ν) (delta : ν) (w w₁ w₂ w' : Workspace (Listing ν) ν) : Prop where
  mass : Moved config.sampling .totalMass change delta w w₁
  weight : Weighed config change delta w₁ w₂
  damping : ∃ before after,
    Damped config.sampling ⟨.totalMass, before, after, change.container, change.container⟩ w₂ w'

inductive Wrote (config : Config) (id : EntityId) (a : Attribute) (v : ν) (w w' : Workspace (Listing ν) ν) : Prop
  | summed {system : EntityId} {before after old : ν} {m : Registry ν} {w₁ w₂ w₃ : Workspace (Listing ν) ν} :
    (a.isMass || a.isCount) = true → w.model.rootOf id = .ok system → w.model.totalMass system = .ok before →
    w.model.set id a v = .ok (old, m) → m.totalMass system = .ok after → w₁.store = w.store → w₁.model = m →
    Totaled config ⟨a, old, v, id, system⟩ (after - before) w₁ w₂ w₃ w' → Wrote config id a v w w'
  | other {system : EntityId} {old : ν} {m : Registry ν} {w₁ : Workspace (Listing ν) ν} :
    (a.isMass || a.isCount) = false → w.model.rootOf id = .ok system → w.model.set id a v = .ok (old, m) →
    w₁.store = w.store → w₁.model = m → Damped config.sampling ⟨a, old, v, id, system⟩ w₁ w' → Wrote config id a v w w'

variable {config : Sampling} {d : Attribute} {container : EntityId} {e : Expression ν} {reaction : Reaction}
  {change : Change ν} {delta : ν} {w w' : Workspace (Listing ν) ν}

lemma Reaction.Written.renews (h : Written config d container e w w') : Renews d container w w' := by
  obtain ⟨template, hsaved⟩ := h.saved
  obtain ⟨old, hset⟩ := h.set
  exact .recorded hsaved hset

lemma Moved.renews (h : Moved config reaction change delta w w') : Renews reaction.derived change.container w w' := by
  cases h with
  | carried _ _ h =>
    obtain ⟨_, _, -, -, -, hw⟩ := h
    exact hw.renews
  | shifted _ h =>
    obtain ⟨_, -, hw⟩ := h
    exact hw.renews
  | plain _ _ hstore _ hset => exact .valued hstore hset

lemma Damped.renews (h : Damped config change w w') : Renews .dampingRatio change.container w w' := by
  cases h with
  | same h => exact .same h
  | carried h =>
    obtain ⟨_, _, -, -, -, hw⟩ := h
    exact hw.renews
  | absorbed h =>
    obtain ⟨_, -, hw⟩ := h
    exact hw.renews
  | plain _ hstore hset => exact .valued hstore hset

lemma Weighed.renews {config : Config} (h : Weighed config change delta w w') :
    Renews .totalWeight change.container w w' := by
  rcases h with ⟨-, h⟩ | ⟨-, h⟩
  · exact h.renews
  · exact .same h

lemma Moved.touches (h : Moved config reaction change delta w w') : Touches reaction.derived w w' := h.renews.touches

lemma Damped.touches (h : Damped config change w w') : Touches .dampingRatio w w' := h.renews.touches

lemma Weighed.touches {config : Config} (h : Weighed config change delta w w') : Touches .totalWeight w w' :=
  h.renews.touches

lemma Moved.sameBut (h : Moved config reaction change delta w w') :
    Registry.SameBut (fun i b => i = change.container ∧ b = reaction.derived) w.model w'.model :=
  h.renews.sameBut

lemma Damped.sameBut (h : Damped config change w w') :
    Registry.SameBut (fun i b => i = change.container ∧ b = .dampingRatio) w.model w'.model :=
  h.renews.sameBut

lemma Weighed.sameBut {config : Config} (h : Weighed config change delta w w') :
    Registry.SameBut (fun i b => i = change.container ∧ b = .totalWeight) w.model w'.model :=
  h.renews.sameBut

lemma Wrote.renews {config : Config} {id : EntityId} {a : Attribute} {v : ν} (h : Wrote config id a v w w') :
    ∃ (system : EntityId) (old : ν) (w₁ w₂ w₃ : Workspace (Listing ν) ν), w.model.rootOf id = .ok system ∧
      w.model.set id a v = .ok (old, w₁.model) ∧ w₁.store = w.store ∧ Renews .totalMass system w₁ w₂ ∧
        Renews .totalWeight system w₂ w₃ ∧ Renews .dampingRatio system w₃ w' := by
  cases h with
  | @summed system _ _ old m w₁ w₂ w₃ _ hroot _ hset _ hstore hm htotaled =>
    obtain ⟨_, _, hdamped⟩ := htotaled.damping
    exact ⟨system, old, w₁, w₂, w₃, hroot, hm ▸ hset, hstore, htotaled.mass.renews, htotaled.weight.renews,
      hdamped.renews⟩
  | @other system old m w₁ _ hroot hset hstore hm hdamped =>
    exact ⟨system, old, w₁, w₁, w₁, hroot, hm ▸ hset, hstore, .same ⟨rfl, rfl⟩, .same ⟨rfl, rfl⟩, hdamped.renews⟩

end Steps

structure HistoryEntry.Tells {σ : Type} [RecordStore σ ν] (s : σ) (m : Registry ν) (changed : Attribute)
    (affected : EntityId) (d : Attribute) (system : EntityId) (r : Record ν) (entry : HistoryEntry ν) : Prop where
  parameter : entry.parameter = changed
  derived : entry.derived = r.id
  expression : entry.expression = r.expression?
  mean : m.get system d = .ok entry.mean
  source : entry.rule = .crispAdjustment ∧ entry.source = none ∨ entry.rule ≠ .crispAdjustment ∧
    ∃ source : Record ν, RecordStore.find? s changed.name affected = some source ∧ entry.source = some source.id

def Config.Remembers (config : Config) (R : Record ν → HistoryEntry ν → Prop) (rs : List (Record ν))
    (entries : List (HistoryEntry ν)) : Prop :=
  if config.recordHistory = true then List.Forall₂ R rs entries else entries = []

namespace Config.Remembers

variable {config : Config} {R S : Record ν → HistoryEntry ν → Prop} {rs rs' : List (Record ν)}
  {entries entries' : List (HistoryEntry ν)}

lemma nil : config.Remembers R [] [] := by
  rw [Remembers]
  split
  · exact .nil
  · rfl

lemma imp (h : config.Remembers R rs entries) (hR : ∀ r ∈ rs, ∀ entry, R r entry → S r entry) :
    config.Remembers S rs entries := by
  rw [Remembers] at h ⊢
  split
  · rw [if_pos ‹_›] at h
    exact ((List.forall₂_and_left _ _).mpr ⟨hR, h⟩).imp fun r entry hr => hr.1 entry hr.2
  · rwa [if_neg ‹_›] at h

lemma append (h : config.Remembers R rs entries) (h' : config.Remembers R rs' entries') :
    config.Remembers R (rs ++ rs') (entries ++ entries') := by
  rw [Remembers] at h h' ⊢
  split
  · rw [if_pos ‹_›] at h h'
    exact List.rel_append h h'
  · rw [if_neg ‹_›] at h h'
    rw [h, h', List.append_nil]

end Config.Remembers

def Change.source? (change : Change ν) (s : Listing ν) : Option RecordId :=
  (RecordStore.find? s change.parameter.name change.affected).map (·.id)

namespace Pass

structure Unsaid (p p' : Pass (Listing ν) ν) : Prop where
  updated : p'.updated = p.updated
  history : p'.history = p.history

def Idle (p p' : Pass (Listing ν) ν) : Prop := Workspace.Same p.work p'.work ∧ Unsaid p p'

lemma Idle.refl (p : Pass (Listing ν) ν) : Idle p p := ⟨⟨rfl, rfl⟩, rfl, rfl⟩

lemma Idle.of_eq {p p' : Pass (Listing ν) ν} (h : p' = p) : Idle p p' := h ▸ .refl p

structure Said (config : Config) (rule : Rule) (change : Change ν) (source : Option RecordId) (d : Attribute)
    (r : Record ν) (p p' : Pass (Listing ν) ν) : Prop where
  updated : p'.updated = p.updated ++ [r]
  history : ∃ entries, p'.history = p.history ++ entries ∧ config.Remembers (fun r entry =>
    ∃ mean, p'.work.model.get change.container d = .ok mean ∧
      entry = ⟨rule, change.parameter, source, r.id, r.expression?, mean⟩) [r] entries

inductive Reported (config : Config) (change : Change ν) (d : Attribute) (p p' : Pass (Listing ν) ν) : Prop
  | quiet : p'.work.store = p.work.store → Unsaid p p' → Reported config change d p p'
  | carried {rule : Rule} {r : Record ν} : rule ≠ .crispAdjustment →
    (recordedExpression? p.work.store change.parameter change.affected).isSome = true →
    Filed d change.container r p.work.store p'.work.store →
    Said config rule change (change.source? p'.work.store) d r p p' → Reported config change d p p'
  | adjusted {r : Record ν} : Filed d change.container r p.work.store p'.work.store →
    Said config .crispAdjustment change none d r p p' → Reported config change d p p'

lemma Reported.updated_cases {config : Config} {change : Change ν} {d : Attribute} {p p' : Pass (Listing ν) ν}
    (h : Reported config change d p p') : p'.updated = p.updated ∨
    ∃ r, p'.updated = p.updated ++ [r] ∧ Filed d change.container r p.work.store p'.work.store := by
  cases h with
  | quiet _ hunsaid => exact .inl hunsaid.updated
  | carried _ _ hfiled hsaid => exact .inr ⟨_, hsaid.updated, hfiled⟩
  | adjusted hfiled hsaid => exact .inr ⟨_, hsaid.updated, hfiled⟩

lemma Reported.mem_of_describes {config : Config} {change : Change ν} {a d : Attribute} {p p' : Pass (Listing ν) ν}
    {r : Record ν} {system : EntityId} (h : Reported config change d p p') (ha : a ≠ d)
    (hdesc : r.describes a.name system = true) (hr : r ∈ p'.updated) : r ∈ p.updated := by
  rcases h.updated_cases with hupdated | ⟨r', hupdated, hfiled⟩
  · rwa [← hupdated]
  · rw [hupdated, List.mem_append, List.mem_singleton] at hr
    refine hr.resolve_right ?_
    rintro rfl
    have hname := ((r.describes_iff _ _).mp hdesc).1
    have hname' := ((r.describes_iff _ _).mp (Listing.mem_of_find? hfiled.found).2).1
    exact ha (Attribute.name_injective (Option.some.inj (hname.symm.trans hname')))

structure Sets (id : EntityId) (a : Attribute) (v old : ν) (p p' : Pass (Listing ν) ν) : Prop where
  store : p'.work.store = p.work.store
  set : p.work.model.set id a v = .ok (old, p'.work.model)
  unsaid : Unsaid p p'

lemma Sets.get_derived {id : EntityId} {a d : Attribute} {v old : ν} {p p' : Pass (Listing ν) ν}
    (h : Sets id a v old p p') (ha : a.isDerived = false) (hd : d.isDerived = true) (i : EntityId) :
    p'.work.model.get i d = p.work.model.get i d := by
  refine Registry.get_set_ne h.set ?_
  rintro ⟨-, rfl⟩
  exact Bool.false_ne_true (ha.symm.trans hd)

section Relations

variable [Number ν]

/-- A step on the damping ratio where it is due: nothing where there is none to compute, and else what is computed
goes to the record, or to the value alone where neither the change nor the ratio is on record. -/
inductive Damps (config : Config) (change : Change ν) (p p' : Pass (Listing ν) ν) : Prop
  | undefined : p.work.model.dampingRatio? change.container = .ok none → Idle p p' → Damps config change p p'
  | recorded {ratio : ν} : p.work.model.dampingRatio? change.container = .ok (some ratio) →
    Carried config.sampling .dampingRatio change 1 p.work p'.work ∨
      Shifted config.sampling .dampingRatio change.container Number.zero p.work p'.work ∧
        (RecordStore.find? p.work.store Attribute.dampingRatio.name change.container).isSome = true →
    Damps config change p p'
  | plain {ratio old : ν} : p.work.model.dampingRatio? change.container = .ok (some ratio) →
    recordedExpression? p.work.store change.parameter change.affected = none →
    recordedExpression? p.work.store .dampingRatio change.container = none →
    Sets change.container .dampingRatio ratio old p p' → Damps config change p p'

structure Totals (config : Config) (change : Change ν) (delta before after : ν) (p p₁ p₂ p' : Pass (Listing ν) ν) :
    Prop where
  mass : Moved config.sampling .totalMass change delta p.work p₁.work
  massReported : Reported config change .totalMass p p₁
  weight : Weighed config change delta p₁.work p₂.work
  weightReported : Reported config change .totalWeight p₁ p₂
  earlier : p.work.model.get change.container .totalMass = .ok before
  later : p₂.work.model.get change.container .totalMass = .ok after
  damping : if after == before then Idle p₂ p'
    else Damps config ⟨.totalMass, before, after, change.container, change.container⟩ p₂ p'
  dampingReported : Reported config ⟨.totalMass, before, after, change.container, change.container⟩ .dampingRatio p₂ p'

inductive Writes (config : Config) (id : EntityId) (a : Attribute) (v old : ν) (p p' : Pass (Listing ν) ν) : Prop
  | summed {system : EntityId} {sum sum' before after : ν} {p₁ p₂ p₃ : Pass (Listing ν) ν} :
    (a.isMass || a.isCount) = true → p.work.model.rootOf id = .ok system → p.work.model.totalMass system = .ok sum →
    Sets id a v old p p₁ → p₁.work.model.totalMass system = .ok sum' →
    Totals config ⟨a, old, v, id, system⟩ (sum' - sum) before after p₁ p₂ p₃ p' → Writes config id a v old p p'
  | other {system : EntityId} {p₁ : Pass (Listing ν) ν} : (a.isMass || a.isCount) = false →
    p.work.model.rootOf id = .ok system → Sets id a v old p p₁ →
    (if a.isDampingInput then Damps config ⟨a, old, v, id, system⟩ p₁ p' else Idle p₁ p') →
    Reported config ⟨a, old, v, id, system⟩ .dampingRatio p₁ p' → Writes config id a v old p p'

variable {config : Config} {change : Change ν} {id : EntityId} {a : Attribute} {v old : ν} {p p' : Pass (Listing ν) ν}

lemma Damps.damped (h : Damps config change p p') : Damped config.sampling change p.work p'.work := by
  cases h with
  | undefined _ h => exact .same h.1
  | recorded _ h => exact h.elim .carried fun h => .absorbed h.1
  | plain _ _ hnone hset => exact .plain hnone hset.store hset.set

lemma Totals.damped {delta before after : ν} {p₁ p₂ : Pass (Listing ν) ν}
    (h : Totals config change delta before after p p₁ p₂ p') :
    Damped config.sampling ⟨.totalMass, before, after, change.container, change.container⟩ p₂.work p'.work := by
  have hdamping := h.damping
  split at hdamping
  · exact .same hdamping.1
  · exact hdamping.damped

lemma Writes.wrote (h : Writes config id a v old p p') : Wrote config id a v p.work p'.work := by
  cases h with
  | summed hs hroot hbefore hset hafter h =>
    exact .summed hs hroot hbefore hset.set hafter hset.store rfl ⟨h.mass, h.weight, _, _, h.damped⟩
  | other hs hroot hset hdamping =>
    refine .other hs hroot hset.set hset.store rfl ?_
    split at hdamping
    · exact hdamping.damped
    · exact .same hdamping.1

lemma Writes.tidy (h : Writes config id a v old p p') (ht : p.work.model.Tidy) : p'.work.model.Tidy := by
  cases h with
  | summed _ _ _ hset _ h =>
    exact h.damped.touches.tidy (h.weight.touches.tidy (h.mass.touches.tidy (ht.set hset.set)))
  | other _ _ hset hdamping =>
    split at hdamping
    · exact hdamping.damped.touches.tidy (ht.set hset.set)
    · rw [hdamping.1.2]
      exact ht.set hset.set

end Relations

end Pass

end Uncertainty
