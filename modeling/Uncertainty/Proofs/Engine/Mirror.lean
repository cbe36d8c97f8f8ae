import Uncertainty.Proofs.Engine.Effects
import Uncertainty.Proofs.Number.FloatZero
import Uncertainty.Proofs.Reaction.Mirror

namespace Uncertainty

variable {ν : Type}

section Steps

variable [Number ν] {config : Config} {base : Listing ν} {change : Change ν} {delta : ν} {id system : EntityId}
  {a d : Attribute} {v old : ν} {m : Registry ν} {w w₁ w₂ w' : Workspace (Listing ν) ν}

lemma Mirrored.not_describes_of_unrecorded (h : Kept config.sampling base w) (hd : d.isDerived = true)
    (hnone : recordedExpression? w.store d system = none) : ∀ r ∈ w.store.records, ¬ r.describes d.name system = true := by
  intro r hr hdesc
  cases hfind : RecordStore.find? w.store d.name system with
  | none => exact Listing.not_describes_of_find? hfind hr hdesc
  | some r' =>
    obtain ⟨hmem, hdesc'⟩ := Listing.mem_of_find? hfind
    obtain ⟨e, -, he, -⟩ := h.value r' hmem system d hd hdesc'
    rw [recordedExpression?, hfind] at hnone
    cases hnone.symm.trans he

lemma Mirrored.set_underived (h : Kept config.sampling base w) (ha : a.isDerived = false)
    (hset : w.model.set id a v = .ok (old, m)) (hstore : w₁.store = w.store) (hm : w₁.model = m) :
    Kept config.sampling base w₁ := by
  rw [Kept, hstore, hm]
  exact h.set hset fun hd => absurd (ha.symm.trans hd) Bool.false_ne_true

lemma Mirrored.same (h : Kept config.sampling base w) (hs : Workspace.Same w w') : Kept config.sampling base w' := by
  rw [Kept, hs.1, hs.2]
  exact h

variable [LawfulZero ν]

lemma Moved.kept {reaction : Reaction} (h : Moved config.sampling reaction change delta w w')
    (hd : reaction.derived.isDerived = true) (hk : Kept config.sampling base w) : Kept config.sampling base w' := by
  cases h with
  | carried _ _ h =>
    obtain ⟨_, _, -, -, -, hw⟩ := h
    exact hk.written hd hw
  | shifted _ h =>
    obtain ⟨_, -, hw⟩ := h
    exact hk.written hd hw
  | plain _ hplain hstore hget hset =>
    rw [Kept, hstore]
    refine hk.set hset fun _ r hr hdesc e he hf => ?_
    rcases hplain with hnone | hzero
    · exact absurd hdesc (hk.not_describes_of_unrecorded hd hnone r hr)
    · obtain ⟨e', v, he', -, hv, heq⟩ := hk.value r hr change.container reaction.derived hd hdesc
      obtain rfl : e' = e := Option.some.inj (he'.symm.trans he)
      obtain rfl := Except.ok.inj (hv.symm.trans hget)
      exact LawfulZero.add_beq hf heq hzero

lemma Damped.kept (h : Damped config.sampling change w w') (hk : Kept config.sampling base w) :
    Kept config.sampling base w' := by
  cases h with
  | same hs => exact hk.same hs
  | carried h =>
    obtain ⟨_, _, -, -, -, hw⟩ := h
    exact hk.written rfl hw
  | absorbed h =>
    obtain ⟨_, -, hw⟩ := h
    exact hk.written rfl hw
  | plain hnone hstore hset =>
    rw [Kept, hstore]
    exact hk.set hset fun _ r hr hdesc => absurd hdesc (hk.not_describes_of_unrecorded rfl hnone r hr)

lemma Weighed.kept (h : Weighed config change delta w w') (hk : Kept config.sampling base w) :
    Kept config.sampling base w' := by
  rcases h with ⟨-, h⟩ | ⟨-, hs⟩
  · exact h.kept rfl hk
  · exact hk.same hs

lemma Wrote.kept (h : Wrote config id a v w w') (ha : a.isDerived = false) (hk : Kept config.sampling base w) :
    Kept config.sampling base w' := by
  cases h with
  | summed _ _ _ hset _ hstore hm htotaled =>
    obtain ⟨_, _, hdamped⟩ := htotaled.damping
    exact hdamped.kept (htotaled.weight.kept (htotaled.mass.kept rfl (hk.set_underived ha hset hstore hm)))
  | other _ _ hset hstore hm hdamped => exact hdamped.kept (hk.set_underived ha hset hstore hm)

end Steps

namespace Engine

variable [Number ν] {g : Engine ν} {base : Listing ν}

structure Mirrors (base : Listing ν) (g : Engine ν) : Prop where
  sound : g.store.Sound
  mirrored : Mirrored g.config.sampling base g.store.listing g.model

lemma new_mirrors [IdSource] {config : Config} (h : Engine.new config = .ok g) : Mirrors Listing.empty g := by
  obtain rfl := new_ok h
  exact ⟨Store.sound_empty, Mirrored.empty⟩

variable [LawfulZero ν]

lemma Does.mirrored (h : g.Mirrors base) {q : Request ν} (hq : q.LeavesDerived) {l : Listing ν} {m : Registry ν}
    (hdoes : g.Does q l m) : Mirrored g.config.sampling base l m := by
  cases hdoes with
  | entered hm => exact h.mirrored.addEntity hm
  | noted _ hr => exact h.mirrored.append (Listing.holds_eq_false.mp hr) hq
  | wrote _ hwrote => exact hwrote.kept hq h.mirrored
  | unentered | unnoted | unwritten => exact h.mirrored

lemma respond_mirrors (h : g.Mirrors base) {q : Request ν} (hq : q.LeavesDerived) :
    (g.respond q).2.Mirrors base ∧ (g.respond q).2.config = g.config := by
  obtain ⟨hsound, hconfig, hdoes⟩ := respond_does h.sound q
  exact ⟨⟨hsound, hconfig ▸ hdoes.mirrored h hq⟩, hconfig⟩

lemma serve_mirrors (qs : List (Request ν)) (h : g.Mirrors base) (hqs : ∀ q ∈ qs, q.LeavesDerived) :
    (serve qs g).2.Mirrors base ∧ (serve qs g).2.config = g.config := by
  refine serve_keeps (I := fun g' => g'.Mirrors base ∧ g'.config = g.config) ?_ qs ⟨h, rfl⟩ hqs
  rintro g' q ⟨h, hconfig⟩ hq
  obtain ⟨hnext, hconfig'⟩ := respond_mirrors h hq
  exact ⟨hnext, hconfig'.trans hconfig⟩

/-- After any requests that leave derived attributes to the engine, each of them has one record at most in each
system, which has an expression with the value in the model as its mean; and after any further requests that record
is still at its place, with the same id. -/
theorem derived_records_mirror_values [IdSource] {config : Config} {g₀ : Engine ν} (hnew : Engine.new config = .ok g₀)
    (past later : List (Request ν)) (hpast : ∀ q ∈ past, q.LeavesDerived) (hlater : ∀ q ∈ later, q.LeavesDerived)
    (system : EntityId) (d : Attribute) (hd : d.isDerived = true) :
    let g := (serve past g₀).2
    let g' := (serve later g).2
    g.store.records.countP (·.describes d.name system) ≤ 1 ∧
      (∀ r ∈ g.store.records, r.describes d.name system = true → ∃ e v, r.expression? = some e ∧
        g.model.get system d = .ok v ∧ (v == e.mean config.sampling) = true) ∧
      ∀ (i : Nat) (r : Record ν), g.store.records[i]? = some r → r.describes d.name system = true →
        ∃ r' : Record ν, g'.store.records[i]? = some r' ∧ r'.id = r.id ∧ r'.describes d.name system = true := by
  have hconfig : g₀.config = config := congrArg Engine.config (new_ok hnew)
  obtain ⟨hg, hkept⟩ := serve_mirrors past (new_mirrors hnew) hpast
  obtain ⟨hg', -⟩ := serve_mirrors later (Mirrors.mk hg.sound hg.mirrored.rebase) hlater
  refine ⟨hg.mirrored.unique system d hd, ?_, ?_⟩
  · intro r hr hs
    obtain ⟨e, v, he, -, hget, hv⟩ := hg.mirrored.value r hr system d hd hs
    rw [hkept, hconfig] at hv
    exact ⟨e, v, he, hget, hv⟩
  · intro i r hr hs
    obtain ⟨r', hr', hid, hloc⟩ := hg'.mirrored.grows i r hr
    exact ⟨r', hr', hid, (Record.describes_of_location hloc d.name system).trans hs⟩

def weighed : List (Request Float) :=
  let record : Record Float :=
    { id := ⟨0, 1⟩
      kind := default
      nature := default
      reducibility := default
      onDelete := default
      setManually := true
      location := Location.ofAttribute .springSupportMass [⟨1⟩]
      effect := some { expression := some (.distribution (.normal 5 1)) }
      pattern := none
      perspective := none
      source := none }
  [.addEntity .damperSystem none, .addEntity .springDamper (some ⟨0⟩), .annotate record,
    .setAttribute ⟨1⟩ .springSupportMass 5, .setAttribute ⟨0⟩ .armCount 2]

theorem weighed_total_mirrors_value :
    let g := (serve weighed (⟨{}, Registry.empty, Store.empty, [], ⟨0⟩⟩ : Engine Float)).2
    let g' := (serve [.setAttribute ⟨1⟩ .springSupportMass 7] g).2
    g.store.records.countP (·.describes Attribute.totalMass.name ⟨0⟩) = 1 ∧
      ∃ r ∈ g.store.records, r.describes Attribute.totalMass.name ⟨0⟩ = true ∧
        (∃ e v, r.expression? = some e ∧ g.model.get ⟨0⟩ .totalMass = .ok v ∧
          (v == e.mean Sampling.standard) = true) ∧
        ∃ (i : Nat) (r' : Record Float), g.store.records[i]? = some r ∧ g'.store.records[i]? = some r' ∧
          r'.id = r.id ∧ r'.describes Attribute.totalMass.name ⟨0⟩ = true := by
  intro g g'
  have hcount : g.store.records.countP (·.describes Attribute.totalMass.name ⟨0⟩) = 1 := by decide +kernel
  have hrecord : ∀ d : Attribute, d.isDerived = true → some Attribute.springSupportMass.name ≠ some d.name := by
    intro d hd hname
    obtain rfl := Attribute.name_injective (Option.some.inj hname)
    cases hd
  have hpast : ∀ q ∈ weighed, q.LeavesDerived := by
    simp only [weighed, List.forall_mem_cons]
    exact ⟨trivial, trivial, hrecord, rfl, rfl, fun _ hq => absurd hq List.not_mem_nil⟩
  have hlater : ∀ q ∈ [Request.setAttribute ⟨1⟩ .springSupportMass (7 : Float)], q.LeavesDerived :=
    List.forall_mem_singleton.mpr rfl
  have hnew : Engine.new {} = .ok (⟨{}, Registry.empty, Store.empty, [], ⟨0⟩⟩ : Engine Float) := rfl
  obtain ⟨-, hvalue, hplace⟩ := derived_records_mirror_values hnew weighed _ hpast hlater ⟨0⟩ .totalMass rfl
  obtain ⟨r, hr, hs⟩ := List.countP_pos_iff.mp (Nat.lt_of_lt_of_eq Nat.one_pos hcount.symm)
  obtain ⟨i, hi⟩ := List.mem_iff_getElem?.mp hr
  obtain ⟨r', hr', hid, hs'⟩ := hplace i r hi hs
  exact ⟨hcount, r, hr, hs, hvalue r hr hs, i, r', hi, hr', hid, hs'⟩

end Engine

end Uncertainty
