import Mathlib.Algebra.Order.Floor.Ring
import Uncertainty.Proofs.Model.Masses
import Uncertainty.Proofs.Model.Sharing
import Uncertainty.Proofs.Model.Walk

namespace Uncertainty

variable {F : Transcendentals}

section Counts

variable {q : ℚ}

def roundAway (q : ℚ) : ℤ := if q < 0 then -⌊-q + 1 / 2⌋ else ⌊q + 1 / 2⌋

def countOf (q : ℚ) : ℤ := max 0 (min (roundAway q) countLimit)

lemma roundAway_nonpos (hq : q ≤ 0) : roundAway q ≤ 0 := by
  rw [roundAway]
  split
  · have hfloor : 0 ≤ ⌊-q + 1 / 2⌋ := Int.floor_nonneg.mpr (by linarith)
    exact neg_nonpos.mpr hfloor
  · have hfloor : ⌊q + 1 / 2⌋ < 1 := Int.floor_lt.mpr (by push_cast; linarith)
    exact Int.lt_add_one_iff.mp hfloor

lemma itemCount_eq_countOf (q : ℚ) : (itemCount (Exact.rational q : Exact F) : ℤ) = countOf q := by
  have hless : Number.less (Number.zero : Exact F) (.rational q) = decide (0 < q) := by
    rw [Exact.zero_eq]
    rfl
  rcases lt_or_ge 0 q with hq | hq
  · have hitems : itemCount (Exact.rational q : Exact F) = min ⌊q + 1 / 2⌋.toNat countLimit := by
      rw [itemCount, hless, decide_eq_true hq]
      rfl
    have hround : roundAway q = ⌊q + 1 / 2⌋ := if_neg hq.le.not_gt
    have hfloor : 0 ≤ ⌊q + 1 / 2⌋ := Int.floor_nonneg.mpr (by linarith)
    rw [hitems, countOf, hround, Nat.cast_min, Int.toNat_of_nonneg hfloor]
    exact (max_eq_right (le_min hfloor (Int.natCast_nonneg _))).symm
  · have hitems : itemCount (Exact.rational q : Exact F) = 0 := by
      rw [itemCount, hless, decide_eq_false hq.not_gt]
      rfl
    rw [hitems, countOf]
    exact (max_eq_left (min_le_of_left_le (roundAway_nonpos hq))).symm

lemma itemsOf_eq_countOf (q : ℚ) : itemsOf F q = countOf q := by
  rw [itemsOf, ← itemCount_eq_countOf (F := F) q]
  exact (Int.cast_natCast _).symm

end Counts

section Kinds

variable {k : EntityKind} {a counter : Attribute}

lemma EntityKind.supports_counter (hk : k.supports a = true) (hc : a.counter? = some counter) :
    k.supports counter = true := by
  cases a <;> cases hc <;> cases k <;> first | rfl | exact absurd hk (by decide)

lemma EntityKind.exists_counted (hk : k.supports counter = true) (h : counter.isCount = true) :
    ∃ a, a.counter? = some counter ∧ k.supports a = true := by
  cases counter with
  | threadedRodCount => exact ⟨.threadedRodMass, rfl, by cases k <;> first | rfl | exact absurd hk (by decide)⟩
  | armCount => exact ⟨.armMass, rfl, by cases k <;> first | rfl | exact absurd hk (by decide)⟩
  | _ => cases h

lemma EntityKind.mass_update_count (value : Attribute → ℚ) (x : ℚ) (hk : k.supports a = true)
    (hc : a.counter? = some counter) : k.mass F (Function.update value counter x) =
      k.mass F value + (itemsOf F x - itemsOf F (value counter)) * value a := by
  cases a <;> cases hc <;> cases k <;> first
    | exact absurd hk (by decide)
    | (simp [EntityKind.mass]; ring)

end Kinds

def ModelCall.IsDefined : ModelCall (Exact F) → Prop
  | .insert _ _ => True
  | .set _ a v => a.isDerived = false → Number.isFinite v = true

namespace Registry

variable {m m' : Registry (Exact F)} {id part system : EntityId} {a counter : Attribute} {v old : Exact F}
  {k : EntityKind} {parts : List EntityId}

section Building

lemma IsDefined.perform (hd : m.IsDefined) {call : ModelCall (Exact F)} (hcall : call.IsDefined) :
    (call.perform m).IsDefined := by
  rcases m.perform_cases call with hsame | ⟨_, _, _, hinsert⟩ | ⟨_, _, _, _, rfl, hset⟩
  · rwa [hsame]
  · exact hd.insert hinsert
  · exact hd.set hset hcall

lemma IsDefined.performAll (hd : m.IsDefined) {calls : List (ModelCall (Exact F))}
    (hcalls : ∀ call ∈ calls, call.IsDefined) : (ModelCall.performAll calls m).IsDefined := by
  induction calls generalizing m with
  | nil => exact hd
  | cons call calls ih =>
    rw [List.forall_mem_cons] at hcalls
    exact ih (hd.perform hcalls.1) hcalls.2

end Building

section Writing

variable {new : ℚ}

lemma mass_set_count (h : m.set id counter v = .ok (old, m')) (hk : m.kind id = .ok k) (ha : k.supports a = true)
    (hc : a.counter? = some counter) :
    m'.mass id = m.mass id + (itemsOf F v.toRat - itemsOf F (m.value id counter)) * m.value id a := by
  rw [mass, mass, kind_set h, value_set h, hk]
  exact EntityKind.mass_update_count _ _ ha hc

variable (ht : m.Tidy)
include ht

lemma exists_multiplicity (hk : m.kind id = .ok k) (ha : k.supports a = true) : ∃ n, m.multiplicity id a = .ok n := by
  rw [multiplicity]
  cases hc : a.counter? with
  | none => exact ⟨1, rfl⟩
  | some counter =>
    obtain ⟨v, hv⟩ := ht.get_of_supports hk (EntityKind.supports_counter ha hc)
    exact ⟨itemCount v, by simp only [hv]; rfl⟩

lemma systemMass_set_elsewhere (h : m.set id a v = .ok (old, m'))
    (hw : m.rootOf id ≠ .ok system ∨ a.isMass = false ∧ a.isCount = false) :
    m'.systemMass system = m.systemMass system := by
  rcases hw with hroot | ⟨hmass, hcount⟩
  · obtain ⟨k, hk, hs⟩ := ht.supports_of_get (get_of_set h)
    obtain ⟨e, he, -⟩ := kind_ok_iff.mp hk
    have hc : m.container id = .ok e.container := container_of_entity he
    cases hcontainer : e.container with
    | some other =>
      rw [hcontainer] at hc
      have hne : system ≠ other := by
        rintro rfl
        exact hroot (ht.rootOf_of_container hc)
      rw [systemMass_set h ht hc, if_neg hne, add_zero]
    | none =>
      rw [hcontainer] at hc
      obtain rfl := (ht.root id k hk).mp hc
      rw [EntityKind.supports_damperSystem] at hs
      have hnot (hweighs : a.isMass = true ∨ a.isCount = true) : False := by
        cases hs.symm.trans (Attribute.isDerived_of_sums (Bool.or_eq_true_iff.mpr hweighs))
      exact systemMass_set_other h (Bool.eq_false_iff.mpr (hnot <| .inl ·)) (Bool.eq_false_iff.mpr (hnot <| .inr ·))
        system
  · exact systemMass_set_other h hmass hcount system

variable (hd : m.IsDefined)
include hd

lemma totalMass_set_rational (h : m.set id a (.rational new) = .ok (old, m')) (hs : m.children system = .ok parts) :
    m'.totalMass system = .ok (.rational (m'.systemMass system)) :=
  totalMass_eq (ht.set h) (hd.set h fun _ => rfl) ((children_set h system).trans hs)

variable (hc : m.container part = .ok (some system)) (hs : m.children system = .ok parts) (hk : m.kind part = .ok k)
include hc hs hk

lemma totalMass_write_mass (ha : k.supports a = true) (hmass : a.isMass = true) :
    ∃ n prior, m.multiplicity part a = .ok n ∧ m.get part a = .ok (.rational prior) ∧
      ∀ new, ∃ m', m.set part a (.rational new) = .ok (.rational prior, m') ∧ m'.multiplicity part a = .ok n ∧
        m'.totalMass system = .ok (.rational (m.systemMass system + n * (new - prior))) := by
  obtain ⟨n, hn⟩ := exists_multiplicity ht hk ha
  have hprior := get_eq_value ht hd hk ha (Attribute.isDerived_of_sums (Bool.or_eq_true_iff.mpr (.inl hmass)))
  refine ⟨n, m.value part a, hn, hprior, fun new => ?_⟩
  obtain ⟨m', hset⟩ := set_of_get hprior (.rational new)
  refine ⟨m', hset, (multiplicity_set hset hmass).trans hn, ?_⟩
  rw [totalMass_set_rational ht hd hset hs, systemMass_set hset ht hc, if_pos rfl, mass_set hset ht hmass,
    items_eq_of_multiplicity hd hn, add_sub_cancel_left]
  rfl

lemma totalMass_write_count (ha : k.supports counter = true) (hcount : counter.isCount = true) :
    ∃ a prior each, a.counter? = some counter ∧ m.get part counter = .ok (.rational prior) ∧
      m.get part a = .ok (.rational each) ∧
      ∀ new, ∃ m', m.set part counter (.rational new) = .ok (.rational prior, m') ∧
        m'.totalMass system = .ok (.rational (m.systemMass system + (countOf new - countOf prior) * each)) := by
  obtain ⟨a, hcounter, hcounted⟩ := EntityKind.exists_counted ha hcount
  have hprior := get_eq_value ht hd hk ha (Attribute.isDerived_of_sums (Bool.or_eq_true_iff.mpr (.inr hcount)))
  have heach := get_eq_value ht hd hk hcounted (by cases a <;> first | rfl | cases hcounter)
  refine ⟨a, m.value part counter, m.value part a, hcounter, hprior, heach, fun new => ?_⟩
  obtain ⟨m', hset⟩ := set_of_get hprior (.rational new)
  refine ⟨m', hset, ?_⟩
  rw [totalMass_set_rational ht hd hset hs, systemMass_set hset ht hc, if_pos rfl,
    mass_set_count hset hk hcounted hcounter, itemsOf_eq_countOf, itemsOf_eq_countOf, add_sub_cancel_left]
  rfl

end Writing

/-- After any calls that write numbers, writing the mass of a part adds the difference to the mass of the system, times
the multiplicity, and writing a number of items adds the mass of one for each that there are more. All other writes, to
entities elsewhere or of other attributes, leave the mass of the system as it is. -/
theorem total_mass_changes_by_items (calls : List (ModelCall (Exact F))) (hcalls : ∀ call ∈ calls, call.IsDefined) :
    let m := ModelCall.performAll calls (Registry.empty : Registry (Exact F))
    ∀ system, m.kind system = .ok .damperSystem → ∃ total, m.totalMass system = .ok (.rational total) ∧
      (∀ part k, m.container part = .ok (some system) → m.kind part = .ok k →
        (∀ a, k.supports a = true → a.isMass = true → ∃ n prior, m.multiplicity part a = .ok n ∧
          m.get part a = .ok (.rational prior) ∧ ∀ new, ∃ m', m.set part a (.rational new) = .ok (.rational prior, m') ∧
            m'.multiplicity part a = .ok n ∧ m'.totalMass system = .ok (.rational (total + n * (new - prior)))) ∧
        ∀ counter, k.supports counter = true → counter.isCount = true → ∃ a prior each, a.counter? = some counter ∧
          m.get part counter = .ok (.rational prior) ∧ m.get part a = .ok (.rational each) ∧
          ∀ new, ∃ m', m.set part counter (.rational new) = .ok (.rational prior, m') ∧
            m'.totalMass system = .ok (.rational (total + (countOf new - countOf prior) * each))) ∧
      ∀ id a new old m', m.set id a (.rational new) = .ok (old, m') →
        (m.rootOf id ≠ .ok system ∨ a.isMass = false ∧ a.isCount = false) →
          m'.totalMass system = .ok (.rational total) := by
  intro m system hsystem
  have ht : m.Tidy := .performAll .empty calls
  have hd : m.IsDefined := .performAll Books.empty.defined hcalls
  obtain ⟨parts, hs⟩ := exists_children hsystem
  refine ⟨m.systemMass system, totalMass_eq ht hd hs, fun part k hc hk => ⟨?_, ?_⟩, ?_⟩
  · intro a ha hmass
    exact totalMass_write_mass ht hd hc hs hk ha hmass
  · intro counter hcounter hcount
    exact totalMass_write_count ht hd hc hs hk hcounter hcount
  · intro id a new old m' hset hw
    rw [totalMass_set_rational ht hd hset hs, systemMass_set_elsewhere ht hset hw]

def rootless : Transcendentals := ⟨fun _ _ => none, fun _ => none, fun _ => none, fun _ => none, 0⟩

def twoGuides : List (ModelCall (Exact rootless)) :=
  [.insert .damperSystem none, .insert .guidanceElement (some ⟨0⟩), .insert .guidanceElement (some ⟨0⟩),
    .set ⟨1⟩ .armCount (.rational (5 / 2)), .set ⟨1⟩ .armMass (.rational 2), .set ⟨2⟩ .armCount (.rational (-1)),
    .set ⟨2⟩ .armMass (.rational 7), .insert .damperSystem none, .insert .springDamper (some ⟨3⟩)]

theorem twoGuides_weigh_three_arms :
    let m := ModelCall.performAll twoGuides (Registry.empty : Registry (Exact rootless))
    m.totalMass ⟨0⟩ = .ok (.rational 6) ∧
      (∃ m', m.set ⟨1⟩ .armMass (.rational 10) = .ok (.rational 2, m') ∧ m'.totalMass ⟨0⟩ = .ok (.rational 30)) ∧
      (∃ m', m.set ⟨2⟩ .armCount (.rational 5000000000) = .ok (.rational (-1), m') ∧
        m'.totalMass ⟨0⟩ = .ok (.rational (6 + 4294967295 * 7))) ∧
      ∀ old m', m.set ⟨4⟩ .springSupportMass (.rational 11) = .ok (old, m') → m'.totalMass ⟨0⟩ = .ok (.rational 6) := by
  intro m
  have hcalls : ∀ call ∈ twoGuides, call.IsDefined := by
    simp only [twoGuides, List.forall_mem_cons, ModelCall.IsDefined]
    exact ⟨trivial, trivial, trivial, fun _ => rfl, fun _ => rfl, fun _ => rfl, fun _ => rfl, trivial, trivial,
      List.forall_mem_nil _⟩
  have hsystem : m.kind ⟨0⟩ = .ok .damperSystem := by decide +kernel
  have htotal : m.totalMass ⟨0⟩ = .ok (.rational 6) := by decide +kernel
  have hfirst : m.container ⟨1⟩ = .ok (some ⟨0⟩) ∧ m.kind ⟨1⟩ = .ok .guidanceElement ∧
      m.multiplicity ⟨1⟩ .armMass = .ok 3 ∧ m.get ⟨1⟩ .armMass = .ok (.rational 2) := by decide +kernel
  have hsecond : m.container ⟨2⟩ = .ok (some ⟨0⟩) ∧ m.kind ⟨2⟩ = .ok .guidanceElement ∧
      m.get ⟨2⟩ .armCount = .ok (.rational (-1)) ∧ m.get ⟨2⟩ .armMass = .ok (.rational 7) := by decide +kernel
  have hroot : m.rootOf ⟨4⟩ ≠ .ok ⟨0⟩ := by decide +kernel
  obtain ⟨total, htotal', hparts, helsewhere⟩ := total_mass_changes_by_items twoGuides hcalls ⟨0⟩ hsystem
  cases htotal.symm.trans htotal'
  refine ⟨htotal, ?_, ?_, fun old m' hset => helsewhere _ _ _ _ _ hset (.inl hroot)⟩
  · obtain ⟨n, prior, hn, hprior, hwrite⟩ := (hparts ⟨1⟩ _ hfirst.1 hfirst.2.1).1 .armMass rfl rfl
    cases hfirst.2.2.1.symm.trans hn
    cases hfirst.2.2.2.symm.trans hprior
    obtain ⟨m', hset, -, hmass⟩ := hwrite 10
    refine ⟨m', hset, hmass.trans ?_⟩
    norm_num
  · obtain ⟨a, prior, each, ha, hprior, heach, hwrite⟩ := (hparts ⟨2⟩ _ hsecond.1 hsecond.2.1).2 .armCount rfl rfl
    obtain rfl : a = .armMass := by cases a <;> cases ha; rfl
    cases hsecond.2.2.1.symm.trans hprior
    cases hsecond.2.2.2.symm.trans heach
    obtain ⟨m', hset, hmass⟩ := hwrite 5000000000
    have hcounts : countOf 5000000000 = 4294967295 ∧ countOf (-1) = 0 := by decide +kernel
    refine ⟨m', hset, hmass.trans ?_⟩
    rw [hcounts.1, hcounts.2]
    norm_num

end Registry

end Uncertainty
