import Uncertainty.Number.Binary64
import Uncertainty.Proofs.Engine.Effects
import Uncertainty.Proofs.Reaction.Formulas

/-! The total weight says what the total mass says: the step on it has the same grounds, though it comes after the step
on the total mass. -/

namespace Uncertainty

open Workspace Reaction

variable {ν : Type}

structure Lockstep (l : Listing ν) (m : Registry ν) : Prop where
  nodup : (l.records.map (·.id)).Nodup
  mass : l.Tells .totalMass
  weight : l.Tells .totalWeight
  expressions : recordedExpression? l .totalMass = recordedExpression? l .totalWeight
  tidy : m.Tidy
  values : (fun system => (m.get system .totalMass).toOption) = fun system => (m.get system .totalWeight).toOption

namespace Lockstep

variable {d a : Attribute} {id : EntityId} {l : Listing ν} {m m' : Registry ν} {r : Record ν} {v old : ν}
  {w w' : Workspace (Listing ν) ν}

lemma empty : Lockstep (Listing.empty : Listing ν) Registry.empty :=
  ⟨List.nodup_nil, fun _ hr => absurd hr List.not_mem_nil, fun _ hr => absurd hr List.not_mem_nil, rfl, .empty, rfl⟩

lemma set (h : Lockstep l m) (hset : m.set id a v = .ok (old, m')) (hmass : a ≠ .totalMass)
    (hweight : a ≠ .totalWeight) : Lockstep l m' := by
  have hget {b : Attribute} (hb : a ≠ b) (system : EntityId) : m'.get system b = m.get system b :=
    Registry.get_set_ne hset fun heq => hb heq.2.symm
  refine ⟨h.nodup, h.mass, h.weight, h.expressions, h.tidy.set hset, ?_⟩
  simp only [hget hmass, hget hweight]
  exact h.values

lemma append (h : Lockstep l m) (hnew : ∀ a ∈ l.records, a.id ≠ r.id)
    (hmass : r.parameter? ≠ some Attribute.totalMass.name) (hweight : r.parameter? ≠ some Attribute.totalWeight.name) :
    Lockstep (l.append r) m := by
  have hfind {d : Attribute} (hd : r.parameter? ≠ some d.name) (system : EntityId) :
      RecordStore.find? (l.append r) d.name system = RecordStore.find? l d.name system := by
    rw [Listing.find?_append, if_neg fun hdesc => hd ((r.describes_iff _ _).mp hdesc).1, Option.or_none]
  have htells {d : Attribute} (hd : r.parameter? ≠ some d.name) (ht : l.Tells d) : (l.append r).Tells d := by
    intro r' hr' hp
    rcases List.mem_append.mp hr' with hr' | hr'
    · obtain ⟨system, e, hreferenced, he, hfound⟩ := ht r' hr' hp
      exact ⟨system, e, hreferenced, he, (hfind hd system).trans hfound⟩
    · exact absurd (List.mem_singleton.mp hr' ▸ hp) hd
  refine ⟨Listing.nodup_append h.nodup hnew, htells hmass h.mass, htells hweight h.weight, ?_, h.tidy, h.values⟩
  funext system
  rw [recordedExpression?, recordedExpression?, hfind hmass, hfind hweight]
  exact congrFun h.expressions system

lemma touches (h : Lockstep w.store w.model) (ht : Touches d w w') (hmass : d ≠ .totalMass)
    (hweight : d ≠ .totalWeight) : Lockstep w'.store w'.model := by
  refine ⟨ht.nodup h.nodup, ht.tells h.nodup h.mass, ht.tells h.nodup h.weight, ?_, ht.tidy h.tidy, ?_⟩
  · rw [ht.recordedExpression?_ne h.nodup hmass.symm, ht.recordedExpression?_ne h.nodup hweight.symm]
    exact h.expressions
  · simp only [ht.get_ne hmass.symm, ht.get_ne hweight.symm]
    exact h.values

end Lockstep

/-- What a step on a total goes by: how many items changed, what is recorded of them and of the total, and the value of
the total. -/
structure Ground (ν : Type) where
  items : Except ModelError Nat
  source : Option (Expression ν)
  recorded : Option (Expression ν)
  value : Option ν

variable [Number ν]

def Change.ground (change : Change ν) (d : Attribute) (w : Workspace (Listing ν) ν) : Ground ν where
  items := change.items w.model
  source := recordedExpression? w.store change.parameter change.affected
  recorded := recordedExpression? w.store d change.container
  value := (w.model.get change.container d).toOption

namespace Ground

def Uncarried (g : Ground ν) : Prop := ∃ n, g.items = .ok n ∧ (n = 0 ∨ g.source = none)

def base? (g : Ground ν) : Option (Value ν) := (g.recorded.map .expression).or (g.value.map .scalar)

inductive Decides (g : Ground ν) (old delta : ν) : Option (Expression ν) → Prop
  | carried {d : Attribute} {n : Nat} {new e : Expression ν} {base : Value ν} : g.items = .ok n → n ≠ 0 →
    g.source = some new → g.base? = some base → incremental d base new old n = .ok e → Decides g old delta (some e)
  | shifted {d : Attribute} {current e : Expression ν} : g.Uncarried → g.recorded = some current →
    (delta == Number.zero) = false → shifted d current delta = .ok e → Decides g old delta (some e)
  | plain : g.Uncarried → g.recorded = none ∨ (delta == Number.zero) = true → Decides g old delta none

variable {g : Ground ν} {old delta : ν} {o o' : Option (Expression ν)}

omit [Number ν] in
lemma Uncarried.not_carried (h : g.Uncarried) {n : Nat} {new : Expression ν} (hn : g.items = .ok n) (hpos : n ≠ 0)
    (hnew : g.source = some new) : False := by
  obtain ⟨n', hn', hnone⟩ := h
  obtain rfl := Except.ok.inj (hn.symm.trans hn')
  rcases hnone with hzero | hnone
  · exact hpos hzero
  · cases hnew.symm.trans hnone

lemma Decides.unique (h : g.Decides old delta o) (h' : g.Decides old delta o') : o = o' := by
  cases h with
  | carried hn hpos hnew hbase he =>
    cases h' with
    | carried hn' _ hnew' hbase' he' =>
      obtain rfl := Except.ok.inj (hn.symm.trans hn')
      obtain rfl := Option.some.inj (hnew.symm.trans hnew')
      obtain rfl := Option.some.inj (hbase.symm.trans hbase')
      rw [(incremental_ok he).unique (incremental_ok he')]
    | shifted hu => exact (hu.not_carried hn hpos hnew).elim
    | plain hu => exact (hu.not_carried hn hpos hnew).elim
  | shifted hu hcurrent hz he =>
    cases h' with
    | carried hn' hpos' hnew' => exact (hu.not_carried hn' hpos' hnew').elim
    | shifted _ hcurrent' _ he' =>
      obtain rfl := Option.some.inj (hcurrent.symm.trans hcurrent')
      rw [shifted_unique he he']
    | plain _ hplain =>
      rcases hplain with hnone | hz'
      · cases hcurrent.symm.trans hnone
      · cases hz.symm.trans hz'
  | plain hu hplain =>
    cases h' with
    | carried hn' hpos' hnew' => exact (hu.not_carried hn' hpos' hnew').elim
    | shifted _ hcurrent hz _ =>
      rcases hplain with hnone | hz'
      · cases hcurrent.symm.trans hnone
      · cases hz.symm.trans hz'
    | plain _ _ => rfl

end Ground

def Posts (config : Sampling) (d : Attribute) (container : EntityId) (delta : ν) (o : Option (Expression ν))
    (w w' : Workspace (Listing ν) ν) : Prop :=
  match o with
  | some e => Written config d container e w w'
  | none => w'.store = w.store ∧ ∃ current old, w.model.get container d = .ok current ∧
      w.model.set container d (current + delta) = .ok (old, w'.model)

section Posting

variable {config : Sampling} {d : Attribute} {container : EntityId} {delta : ν} {o : Option (Expression ν)}
  {change : Change ν} {w w' : Workspace (Listing ν) ν}

lemma Moved.decided {reaction : Reaction} (hp : reaction.policy = .incremental)
    (h : Moved config reaction change delta w w') :
    ∃ o, (change.ground reaction.derived w).Decides change.old delta o ∧
      Posts config reaction.derived change.container delta o w w' := by
  cases h with
  | carried hn hpos h =>
    obtain ⟨new, e, -, hnew, hadds, hw⟩ := h
    rw [Adds, hp] at hadds
    obtain ⟨base, hbase, he⟩ := hadds
    refine ⟨some e, .carried hn hpos hnew ?_ he, hw⟩
    rw [Ground.base?, Change.ground]
    cases hrecorded : recordedExpression? w.store reaction.derived change.container with
    | some current =>
      rw [hrecorded] at hbase
      obtain rfl : base = .expression current := hbase
      rfl
    | none =>
      rw [hrecorded] at hbase
      obtain ⟨x, hx, rfl⟩ := hbase
      dsimp only
      rw [hx]
      rfl
  | shifted hu h =>
    obtain ⟨e, habsorbs, hw⟩ := h
    rw [Reaction.Absorbs, hp] at habsorbs
    obtain ⟨current, hcurrent, hz, he⟩ := habsorbs
    exact ⟨some e, .shifted hu hcurrent hz he, hw⟩
  | plain hu hplain hstore hget hset => exact ⟨none, .plain hu hplain, hstore, _, _, hget, hset⟩

namespace Posts

variable (h : Posts config d container delta o w w')
include h

lemma recordedExpression? (hn : (w.store.records.map (·.id)).Nodup) (ht : w.store.Tells d) :
    Uncertainty.recordedExpression? w'.store d = o.elim (Uncertainty.recordedExpression? w.store d) fun e =>
      Function.update (Uncertainty.recordedExpression? w.store d) container (some e) := by
  cases o with
  | some e =>
    obtain ⟨-, ⟨template, hs⟩, -⟩ := h
    exact hs.recordedExpression?_self hn ht
  | none =>
    rw [h.1]
    rfl

lemma get_toOption : (fun system => (w'.model.get system d).toOption) =
    Function.update (fun system => (w.model.get system d).toOption) container
      (o.elim ((w.model.get container d).toOption.map (· + delta)) fun e => some (e.mean config)) := by
  have hset {v old : ν} (hset : w.model.set container d v = .ok (old, w'.model)) :
      (fun system => (w'.model.get system d).toOption) =
        Function.update (fun system => (w.model.get system d).toOption) container (some v) := by
    funext system
    by_cases hs : system = container
    · rw [hs, Function.update_self, Registry.get_set_self hset]
      rfl
    · rw [Function.update_of_ne hs, Registry.get_set_ne hset fun hb => hs hb.1]
  cases o with
  | some e =>
    obtain ⟨-, -, old, hwritten⟩ := h
    exact hset hwritten
  | none =>
    obtain ⟨-, current, old, hget, hwritten⟩ := h
    rw [hset hwritten, hget]
    rfl

end Posts

end Posting

namespace Lockstep

variable {config : Config} {a : Attribute} {id : EntityId} {l : Listing ν} {m m' : Registry ν} {v delta : ν}
  {change : Change ν} {w w₁ w₂ w' : Workspace (Listing ν) ν}

lemma insert (h : Lockstep l m) {kind : EntityKind} {container : Option EntityId}
    (hm : m.insert kind container = .ok (id, m')) : Lockstep l m' := by
  refine ⟨h.nodup, h.mass, h.weight, h.expressions, h.tidy.insert hm, ?_⟩
  funext system
  rw [Registry.get_insert_eq hm, Registry.get_insert_eq hm]
  split
  · cases kind <;> rfl
  · exact congrFun h.values system

lemma ground_weight (h : Lockstep w.store w.model) (ht : Touches .totalMass w w₁)
    (hp : change.parameter ≠ .totalMass) : change.ground .totalWeight w₁ = change.ground .totalMass w := by
  have hitems : change.items w₁.model = change.items w.model := by
    rw [Change.items, Change.items, Registry.multiplicity, Registry.multiplicity]
    cases hc : change.parameter.counter? with
    | none => rfl
    | some counter =>
      have hne : counter ≠ .totalMass := by
        rintro rfl
        cases hparameter : change.parameter <;> rw [hparameter] at hc <;> cases hc
      dsimp only
      rw [ht.get_ne hne]
  rw [Change.ground, hitems, ht.recordedExpression?_ne h.nodup hp, ht.recordedExpression?_ne h.nodup (by decide),
    ht.get_ne (by decide), ← h.expressions, ← congrFun h.values change.container]
  rfl

lemma moved (h : Lockstep w.store w.model) (hp : change.parameter ≠ .totalMass)
    (hmass : Moved config.sampling .totalMass change delta w w₁)
    (hweight : Moved config.sampling .totalWeight change delta w₁ w₂) : Lockstep w₂.store w₂.model := by
  have ht : Touches .totalMass w w₁ := hmass.touches
  have ht' : Touches .totalWeight w₁ w₂ := hweight.touches
  -- The step on the total mass leaves the total weight with the grounds that it had itself, so both decide alike.
  obtain ⟨o, hdecides, hposts⟩ := hmass.decided rfl
  obtain ⟨o', hdecides', hposts'⟩ := hweight.decided rfl
  rw [show Reaction.totalWeight.derived = .totalWeight from rfl, h.ground_weight ht hp] at hdecides'
  obtain rfl := hdecides.unique hdecides'
  refine ⟨ht'.nodup (ht.nodup h.nodup), ht'.tells (ht.nodup h.nodup) (ht.tells h.nodup h.mass),
    ht'.tells (ht.nodup h.nodup) (ht.tells h.nodup h.weight), ?_, ht'.tidy (ht.tidy h.tidy), ?_⟩
  · have hsaid := hposts.recordedExpression? h.nodup h.mass
    have hsaid' := hposts'.recordedExpression? (ht.nodup h.nodup) (ht.tells h.nodup h.weight)
    rw [show Reaction.totalWeight.derived = .totalWeight from rfl, ht.recordedExpression?_ne h.nodup (by decide),
      ← h.expressions] at hsaid'
    rw [ht'.recordedExpression?_ne (ht.nodup h.nodup) (by decide), hsaid']
    exact hsaid
  · have hvalue := hposts.get_toOption
    have hvalue' := hposts'.get_toOption
    simp only [show Reaction.totalWeight.derived = .totalWeight from rfl, ht.get_ne (a := .totalWeight) (by decide)]
      at hvalue'
    simp only [ht'.get_ne (a := .totalMass) (by decide)]
    rw [hvalue', ← h.values, ← congrFun h.values change.container]
    exact hvalue

lemma wrote (h : Lockstep w.store w.model) (hfollows : config.propagateWeight = true) (hmass : a ≠ .totalMass)
    (hweight : a ≠ .totalWeight) (hw : Wrote config id a v w w') : Lockstep w'.store w'.model := by
  cases hw with
  | @summed _ _ _ _ _ w₁ w₂ w₃ _ _ _ hset _ hstore hm htotaled =>
    have h₁ : Lockstep w₁.store w₁.model := by
      rw [hstore, hm]
      exact h.set hset hmass hweight
    rcases htotaled.weight with ⟨-, hmoved⟩ | ⟨hstays, -⟩
    · obtain ⟨_, _, hdamped⟩ := htotaled.damping
      exact (h₁.moved hmass htotaled.mass hmoved).touches hdamped.touches (by decide) (by decide)
    · cases hfollows.symm.trans hstays
  | @other _ _ _ w₁ _ _ hset hstore hm hdamped =>
    have h₁ : Lockstep w₁.store w₁.model := by
      rw [hstore, hm]
      exact h.set hset hmass hweight
    exact h₁.touches hdamped.touches (by decide) (by decide)

end Lockstep

def Request.LeavesTotals : Request ν → Prop
  | addEntity _ _ => True
  | annotate r => r.parameter? ≠ some Attribute.totalMass.name ∧ r.parameter? ≠ some Attribute.totalWeight.name
  | setAttribute _ a _ => a ≠ .totalMass ∧ a ≠ .totalWeight

namespace Engine

structure WeighsAlong (g : Engine ν) : Prop where
  sound : g.store.Sound
  follows : g.config.propagateWeight = true
  lockstep : Lockstep g.store.listing g.model

variable {g : Engine ν}

lemma Does.lockstep (h : g.WeighsAlong) {q : Request ν} (hq : q.LeavesTotals) {l : Listing ν} {m : Registry ν}
    (hdoes : g.Does q l m) : Lockstep l m := by
  cases hdoes with
  | entered hm => exact h.lockstep.insert hm
  | noted _ hr => exact h.lockstep.append (Listing.holds_eq_false.mp hr) hq.1 hq.2
  | wrote _ hwrote => exact h.lockstep.wrote h.follows hq.1 hq.2 hwrote
  | unentered | unnoted | unwritten => exact h.lockstep

lemma respond_weighsAlong (h : g.WeighsAlong) {q : Request ν} (hq : q.LeavesTotals) : (g.respond q).2.WeighsAlong := by
  obtain ⟨hsound, hconfig, hdoes⟩ := respond_does h.sound q
  exact ⟨hsound, hconfig ▸ h.follows, hdoes.lockstep h hq⟩

theorem weight_moves_with_mass [IdSource] {config : Config} {g₀ : Engine ν} (hnew : Engine.new config = .ok g₀)
    (hfollows : config.propagateWeight = true) (qs : List (Request ν)) (hqs : ∀ q ∈ qs, q.LeavesTotals)
    (system : EntityId) :
    let g := (serve qs g₀).2
    (g.model.kind system = .ok .damperSystem →
      ∃ v, g.model.get system .totalMass = .ok v ∧ g.model.get system .totalWeight = .ok v) ∧
      ((∃ r ∈ g.store.records, r.describes Attribute.totalMass.name system = true) ↔
        ∃ r ∈ g.store.records, r.describes Attribute.totalWeight.name system = true) ∧
      ∀ r ∈ g.store.records, ∀ r' ∈ g.store.records, r.describes Attribute.totalMass.name system = true →
        r'.describes Attribute.totalWeight.name system = true → ∃ e, r.expression? = some e ∧ r'.expression? = some e := by
  intro g
  have hstart : g₀.WeighsAlong := by
    obtain rfl := new_ok hnew
    exact ⟨Store.sound_empty, hfollows, .empty⟩
  have h : Lockstep g.store.listing g.model :=
    (serve_keeps (I := WeighsAlong) (fun h hq => respond_weighsAlong h hq) qs hstart hqs).lockstep
  refine ⟨?_, ?_, ?_⟩
  · intro hsystem
    obtain ⟨v, hv⟩ := h.tidy.get_of_supports hsystem (a := .totalMass) rfl
    obtain ⟨v', hv'⟩ := h.tidy.get_of_supports hsystem (a := .totalWeight) rfl
    have hvalue := congrFun h.values system
    rw [hv, hv'] at hvalue
    cases hvalue
    exact ⟨v, hv, hv'⟩
  · refine h.mass.describes_iff.trans ?_
    rw [h.expressions]
    exact h.weight.describes_iff.symm
  · intro r hr r' hr' hdesc hdesc'
    obtain ⟨e, hre, he⟩ := h.mass.recorded hr hdesc
    obtain ⟨e', hre', he'⟩ := h.weight.recorded hr' hdesc'
    rw [h.expressions, he'] at he
    cases he
    exact ⟨e, hre, hre'⟩

def armsTakenAway : List (Request Float) :=
  let record : Record Float :=
    { id := ⟨0, 1⟩
      kind := default
      nature := default
      reducibility := default
      onDelete := default
      setManually := true
      location := Location.ofAttribute .armMass [⟨1⟩]
      effect := some { expression := some (.distribution (.normal 5 2)) }
      pattern := none
      perspective := none
      source := none }
  [.addEntity .damperSystem none, .addEntity .guidanceElement (some ⟨0⟩), .annotate record,
    .setAttribute ⟨1⟩ .armCount 3, .setAttribute ⟨1⟩ .armMass 5, .setAttribute ⟨1⟩ .jointMiddlePartMass 4,
    .setAttribute ⟨1⟩ .armCount 0, .setAttribute ⟨1⟩ .armMass 6, .setAttribute ⟨2⟩ .armMass 7]

theorem weight_moves_with_arms :
    let g := (serve armsTakenAway (⟨{}, Registry.empty, Store.empty, [], ⟨0⟩⟩ : Engine Float)).2
    g.model.get ⟨0⟩ .totalWeight = .ok 4 ∧
      ∃ r ∈ g.store.records, ∃ r' ∈ g.store.records, r.describes Attribute.totalMass.name ⟨0⟩ = true ∧
        r'.describes Attribute.totalWeight.name ⟨0⟩ = true ∧ ∃ e, r.expression? = some e ∧ r'.expression? = some e := by
  intro g
  have hnew : Engine.new {} = .ok (⟨{}, Registry.empty, Store.empty, [], ⟨0⟩⟩ : Engine Float) := rfl
  have hrecord {d : Attribute} (hd : d ≠ .armMass) : some Attribute.armMass.name ≠ some d.name :=
    fun hname => hd (Attribute.name_injective (Option.some.inj hname)).symm
  have hqs : ∀ q ∈ armsTakenAway, q.LeavesTotals := by
    simp only [armsTakenAway, List.forall_mem_cons]
    refine ⟨trivial, trivial, ⟨hrecord nofun, hrecord nofun⟩, ?_⟩
    exact ⟨⟨nofun, nofun⟩, ⟨nofun, nofun⟩, ⟨nofun, nofun⟩, ⟨nofun, nofun⟩, ⟨nofun, nofun⟩, ⟨nofun, nofun⟩,
      fun _ hq => absurd hq List.not_mem_nil⟩
  obtain ⟨hvalue, hrecords, hexpression⟩ := weight_moves_with_mass hnew rfl armsTakenAway hqs ⟨0⟩
  have hmass : g.model.get ⟨0⟩ .totalMass = .ok 4 := by decide +kernel
  have hcount : 0 < g.store.records.countP (·.describes Attribute.totalMass.name ⟨0⟩) := by decide +kernel
  obtain ⟨v, hv, hv'⟩ := hvalue (by decide +kernel)
  obtain rfl := Except.ok.inj (hv.symm.trans hmass)
  obtain ⟨r, hr, hdesc⟩ := List.countP_pos_iff.mp hcount
  obtain ⟨r', hr', hdesc'⟩ := hrecords.mp ⟨r, hr, hdesc⟩
  exact ⟨hv', r, hr, r', hr', hdesc, hdesc', hexpression r hr r' hr' hdesc hdesc'⟩

end Engine

end Uncertainty
