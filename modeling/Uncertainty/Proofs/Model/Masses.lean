import Mathlib.Algebra.BigOperators.Group.List.Basic
import Mathlib.Logic.Function.Basic
import Mathlib.Tactic.LinearCombination
import Uncertainty.Model.Damper
import Uncertainty.Proofs.Model.Containment
import Uncertainty.Proofs.Number.Exact

namespace Uncertainty

variable (F : Transcendentals)

def itemsOf (q : ℚ) : ℚ := itemCount (Exact.rational q : Exact F)

namespace EntityKind

def mass (value : Attribute → ℚ) : EntityKind → ℚ
  | damperSystem => 0
  | upperTruss =>
    value .crossLinkMass + itemsOf F (value .threadedRodCount) * value .threadedRodMass + value .sphereMass
  | lowerTruss => itemsOf F (value .threadedRodCount) * value .threadedRodMass + value .sphereMass
  | guidanceElement => itemsOf F (value .armCount) * value .armMass + value .jointMiddlePartMass
  | springDamper => value .springSupportMass

end EntityKind

lemma EntityKind.mass_zero (k : EntityKind) : k.mass F (fun _ => 0) = 0 := by
  cases k <;> simp [EntityKind.mass]

def Attribute.items (value : Attribute → ℚ) (a : Attribute) : ℚ :=
  match a.counter? with
  | some counter => itemsOf F (value counter)
  | none => 1

section Updating

variable {k : EntityKind} {a : Attribute} (value : Attribute → ℚ) (x : ℚ)

lemma EntityKind.mass_update (hk : k.supports a = true) (ha : a.isMass = true) :
    k.mass F (Function.update value a x) = k.mass F value + a.items F value * (x - value a) := by
  cases k <;> cases a <;> first
    | exact absurd ha (by decide)
    | exact absurd hk (by decide)
    | simp [EntityKind.mass, Attribute.items, Attribute.counter?] <;> ring

lemma EntityKind.mass_update_other (hmass : a.isMass = false) (hcount : a.isCount = false) :
    k.mass F (Function.update value a x) = k.mass F value := by
  cases a <;> first
    | exact absurd hmass (by decide)
    | exact absurd hcount (by decide)
    | cases k <;> simp [EntityKind.mass]

end Updating

lemma sum_map_update {α : Type} {f g : α → ℚ} {x : α} {l : List α} (hl : l.Nodup) (hx : x ∈ l)
    (h : ∀ y, y ≠ x → g y = f y) : (l.map g).sum = (l.map f).sum + (g x - f x) := by
  have hsame (l : List α) (hx : x ∉ l) : (l.map g).sum = (l.map f).sum := by
    refine congrArg List.sum (List.map_congr_left fun y hy => h y ?_)
    rintro rfl
    exact hx hy
  induction l with
  | nil => cases hx
  | cons y l ih =>
    obtain ⟨hy, hl⟩ := List.nodup_cons.mp hl
    rw [List.map_cons, List.map_cons, List.sum_cons, List.sum_cons]
    rcases List.mem_cons.mp hx with rfl | hx
    · rw [hsame l hy]
      ring
    · have hne : y ≠ x := by
        rintro rfl
        exact hy hx
      rw [h y hne, ih hl hx]
      ring

lemma Registry.multiplicity_set {ν : Type} [Number ν] {m m' : Registry ν} {id : EntityId} {a : Attribute} {v old : ν}
    (h : m.set id a v = .ok (old, m')) (ha : a.isMass = true) : m'.multiplicity id a = m.multiplicity id a := by
  rw [multiplicity, multiplicity]
  cases hc : a.counter? with
  | none => rfl
  | some counter =>
    have hne : counter ≠ a := by
      rintro rfl
      cases counter <;> cases hc
    dsimp only
    rw [get_set_ne h fun hb => hne hb.2]

section Depending

namespace Registry.SameBut

variable {ν : Type} [Number ν] {m m' : Registry ν} {apart : EntityId → Attribute → Prop} {part system : EntityId}
  (h : SameBut apart m m')
include h

lemma itemsMass {counter mass : Attribute} (hcounter : ¬ apart part counter) (hmass : ¬ apart part mass) :
    m'.itemsMass part counter mass = m.itemsMass part counter mass := by
  rw [Registry.itemsMass, Registry.itemsMass, h.get part _ hcounter, h.get part _ hmass]

lemma partMass (hpart : ∀ b, b.isDerived = false → ¬ apart part b) : m'.partMass part = m.partMass part := by
  have hget (b : Attribute) (hb : b.isDerived = false) := h.get part b (hpart b hb)
  have hitems (b c : Attribute) (hb : b.isDerived = false) (hc : c.isDerived = false) :=
    h.itemsMass (hpart b hb) (hpart c hc)
  rw [Registry.partMass, Registry.partMass, h.kind]
  cases m.kind part with
  | error e => rfl
  | ok k =>
    cases k with
    | damperSystem => rfl
    | upperTruss =>
      simp only [bind, Except.bind, hget .crossLinkMass rfl, hitems .threadedRodCount .threadedRodMass rfl rfl,
        hget .sphereMass rfl]
    | lowerTruss =>
      simp only [bind, Except.bind, hitems .threadedRodCount .threadedRodMass rfl rfl, hget .sphereMass rfl]
    | guidanceElement =>
      simp only [bind, Except.bind, hitems .armCount .armMass rfl rfl, hget .jointMiddlePartMass rfl]
    | springDamper => exact hget .springSupportMass rfl

lemma totalMass (hparts : ∀ parts, m.children system = .ok parts → ∀ part ∈ parts, ∀ b, b.isDerived = false →
    ¬ apart part b) : m'.totalMass system = m.totalMass system := by
  rw [Registry.totalMass, Registry.totalMass, h.children]
  cases hc : m.children system with
  | error e => rfl
  | ok parts =>
    have hpart (part : EntityId) (hmem : part ∈ parts) := h.partMass (hparts parts hc part hmem)
    change parts.foldlM _ _ = parts.foldlM _ _
    clear hc
    generalize (Number.zero : ν) = sum
    induction parts generalizing sum with
    | nil => rfl
    | cons part parts ih =>
      rw [List.foldlM_cons, List.foldlM_cons, hpart part List.mem_cons_self]
      cases m.partMass part with
      | error e => rfl
      | ok mass => exact ih (fun part hmem => hpart part (List.mem_cons_of_mem _ hmem)) (sum + mass)

end Registry.SameBut

end Depending

namespace Registry

variable {F} {m m' : Registry (Exact F)} {id i : EntityId} {a : Attribute} {v old : Exact F} {k : EntityKind}

def value (m : Registry (Exact F)) (id : EntityId) (a : Attribute) : ℚ :=
  match m.get id a with
  | .ok v => v.toRat
  | .error _ => 0

def mass (m : Registry (Exact F)) (id : EntityId) : ℚ :=
  match m.kind id with
  | .ok k => k.mass F (m.value id)
  | .error _ => 0

def IsDefined (m : Registry (Exact F)) : Prop :=
  ∀ id a v, m.get id a = .ok v → a.isDerived = false → Number.isFinite v = true

lemma get_eq_value (ht : m.Tidy) (hd : m.IsDefined) (hk : m.kind i = .ok k) (ha : k.supports a = true)
    (hderived : a.isDerived = false) : m.get i a = .ok (.rational (m.value i a)) := by
  obtain ⟨v, hv⟩ := ht.get_of_supports hk ha
  obtain ⟨q, rfl⟩ := Exact.rational_of_isFinite (hd i a v hv hderived)
  rw [value, hv]
  rfl

lemma itemsMass_eq {counter : Attribute} {n q : ℚ} (hn : m.get i counter = .ok (.rational n))
    (hq : m.get i a = .ok (.rational q)) : m.itemsMass i counter a = .ok (.rational (itemsOf F n * q)) := by
  rw [itemsMass, hn, hq]
  rfl

lemma partMass_eq (ht : m.Tidy) (hd : m.IsDefined) (hk : m.kind i = .ok k) :
    m.partMass i = .ok (.rational (m.mass i)) := by
  have hget (a : Attribute) (ha : k.supports a = true) (hderived : a.isDerived = false) :=
    get_eq_value ht hd hk ha hderived
  rw [partMass, hk, mass, hk]
  cases k with
  | damperSystem => exact congrArg Except.ok Exact.zero_eq
  | upperTruss =>
    have hrods := itemsMass_eq (hget .threadedRodCount rfl rfl) (hget .threadedRodMass rfl rfl)
    simp only [bind, Except.bind, hget .crossLinkMass rfl rfl, hget .sphereMass rfl rfl, hrods]
    rfl
  | lowerTruss =>
    have hrods := itemsMass_eq (hget .threadedRodCount rfl rfl) (hget .threadedRodMass rfl rfl)
    simp only [bind, Except.bind, hget .sphereMass rfl rfl, hrods]
    rfl
  | guidanceElement =>
    have harms := itemsMass_eq (hget .armCount rfl rfl) (hget .armMass rfl rfl)
    simp only [bind, Except.bind, hget .jointMiddlePartMass rfl rfl, harms]
    rfl
  | springDamper => exact hget .springSupportMass rfl rfl

lemma items_eq_of_multiplicity (hd : m.IsDefined) {n : Nat} (hn : m.multiplicity id a = .ok n) :
    a.items F (m.value id) = n := by
  have hcount (counter : Attribute) (hc : counter.isDerived = false)
      (hn : (do return itemCount (← m.get id counter)) = Except.ok n) : itemsOf F (m.value id counter) = n := by
    obtain ⟨w, hw, hn⟩ := exists_of_bind_ok hn
    cases hn
    obtain ⟨q, rfl⟩ := Exact.rational_of_isFinite (hd id counter w hw hc)
    rw [value, hw]
    rfl
  rw [multiplicity] at hn
  cases a with
  | threadedRodMass => exact hcount .threadedRodCount rfl hn
  | armMass => exact hcount .armCount rfl hn
  | _ =>
    cases hn
    exact Nat.cast_one.symm

def systemMass (m : Registry (Exact F)) (system : EntityId) : ℚ :=
  match m.children system with
  | .ok parts => (parts.map m.mass).sum
  | .error _ => 0

lemma kind_of_child (ht : m.Tidy) {system c : EntityId} {parts : List EntityId} (hs : m.children system = .ok parts)
    (hc : c ∈ parts) : ∃ k, m.kind c = .ok k := by
  obtain ⟨e, he, rfl⟩ := children_ok_iff.mp hs
  obtain ⟨e', he', -⟩ := container_ok_iff.mp ((ht.below system e he c).mp hc)
  exact ⟨e'.kind, kind_of_entity he'⟩

lemma foldlM_partMass {parts : List EntityId} (h : ∀ p ∈ parts, m.partMass p = .ok (.rational (m.mass p))) (q : ℚ) :
    parts.foldlM (fun sum part => do return sum + (← m.partMass part)) (.rational q : Exact F) =
      (.ok (.rational (q + (parts.map m.mass).sum)) : Except ModelError (Exact F)) := by
  induction parts generalizing q with
  | nil => simp [pure, Except.pure]
  | cons p parts ih =>
    have hp := h p List.mem_cons_self
    rw [List.foldlM_cons, hp]
    change parts.foldlM _ (.rational (q + m.mass p) : Exact F) = _
    rw [ih (fun p hp => h p (List.mem_cons_of_mem _ hp)), List.map_cons, List.sum_cons, add_assoc]

lemma totalMass_eq (ht : m.Tidy) (hd : m.IsDefined) {system : EntityId} {parts : List EntityId}
    (hs : m.children system = .ok parts) : m.totalMass system = .ok (.rational (m.systemMass system)) := by
  have hparts : ∀ p ∈ parts, m.partMass p = .ok (.rational (m.mass p)) := by
    intro p hp
    obtain ⟨k, hk⟩ := kind_of_child ht hs hp
    exact partMass_eq ht hd hk
  rw [totalMass, hs, systemMass, hs]
  change parts.foldlM _ Number.zero = _
  rw [Exact.zero_eq, foldlM_partMass hparts, zero_add]

section Setting

variable (h : m.set id a v = .ok (old, m'))
include h

lemma value_set : m'.value id = Function.update (m.value id) a v.toRat := by
  funext b
  by_cases hb : b = a
  · subst hb
    rw [value, get_set_self h, Function.update_self]
  · rw [value, get_set_ne h fun hs => hb hs.2, Function.update_of_ne hb, value]

lemma value_set_ne (hi : i ≠ id) : m'.value i = m.value i := by
  funext b
  rw [value, value, get_set_ne h fun hs => hi hs.1]

lemma mass_set_ne (hi : i ≠ id) : m'.mass i = m.mass i := by
  rw [mass, mass, kind_set h, value_set_ne h hi]

lemma mass_set_other (hmass : a.isMass = false) (hcount : a.isCount = false) (i : EntityId) :
    m'.mass i = m.mass i := by
  by_cases hi : i = id
  · subst hi
    rw [mass, mass, kind_set h, value_set h]
    cases m.kind i with
    | error e => rfl
    | ok k => exact EntityKind.mass_update_other F _ _ hmass hcount
  · exact mass_set_ne h hi

lemma mass_set (ht : m.Tidy) (ha : a.isMass = true) :
    m'.mass id = m.mass id + a.items F (m.value id) * (v.toRat - m.value id a) := by
  obtain ⟨k, hk, hs⟩ := ht.supports_of_get (get_of_set h)
  rw [mass, mass, kind_set h, value_set h, hk]
  exact EntityKind.mass_update F _ _ hs ha

lemma systemMass_set_other (hmass : a.isMass = false) (hcount : a.isCount = false) (system : EntityId) :
    m'.systemMass system = m.systemMass system := by
  rw [systemMass, systemMass, children_set h, funext (mass_set_other h hmass hcount)]

lemma IsDefined.set (hd : m.IsDefined) (hv : a.isDerived = false → Number.isFinite v = true) : m'.IsDefined := by
  intro i b w hw hb
  rw [get_set h] at hw
  split at hw
  · rename_i hs
    cases hw
    exact hv (hs.2 ▸ hb)
  · exact hd i b w hw hb

lemma systemMass_set (ht : m.Tidy) {system : EntityId} (hc : m.container id = .ok (some system)) (other : EntityId) :
    m'.systemMass other = m.systemMass other + if other = system then m'.mass id - m.mass id else 0 := by
  rw [systemMass, systemMass, children_set h]
  cases hs : m.children other with
  | error e =>
    obtain ⟨parts, hparts⟩ := exists_children (ht.above id system hc)
    have hne : other ≠ system := by
      rintro rfl
      cases hs.symm.trans hparts
    rw [if_neg hne]
    exact (add_zero _).symm
  | ok parts =>
    obtain ⟨e, he, rfl⟩ := children_ok_iff.mp hs
    have hmem := ht.below other e he id
    rw [hc] at hmem
    by_cases ho : other = system
    · rw [if_pos ho]
      exact sum_map_update (ht.nodup other e he) (hmem.mpr (ho ▸ rfl)) fun i hi => mass_set_ne h hi
    · have hnot : id ∉ e.children := fun hid => ho (Option.some.inj (Except.ok.inj (hmem.mp hid))).symm
      rw [if_neg ho, add_zero]
      refine congrArg List.sum (List.map_congr_left fun i hi => mass_set_ne h ?_)
      rintro rfl
      exact hnot hi

lemma totalMass_set {system : EntityId} {before after : Exact F} (ht : m.Tidy) (hd : m.IsDefined) (hd' : m'.IsDefined)
    (hc : m.container id = .ok (some system)) (hbefore : m.totalMass system = .ok before)
    (hafter : m'.totalMass system = .ok after) : after - before = .rational (m'.mass id - m.mass id) := by
  obtain ⟨parts, hparts⟩ := exists_children (ht.above id system hc)
  have hbefore' := hbefore.symm.trans (totalMass_eq ht hd hparts)
  have hafter' := hafter.symm.trans (totalMass_eq (ht.set h) hd' ((children_set h system).trans hparts))
  rw [Except.ok.inj hbefore', Except.ok.inj hafter', systemMass_set h ht hc, if_pos rfl, Exact.rational_sub,
    add_sub_cancel_left]

lemma mass_set_of_multiplicity {n : Nat} (ht : m.Tidy) (hd : m.IsDefined) (hmass : a.isMass = true)
    (ha : a.isDerived = false) (hv : Number.isFinite v = true) (hn : m.multiplicity id a = .ok n) :
    Number.ofNat n * (v - old) = (.rational (m'.mass id - m.mass id) : Exact F) := by
  have hget := get_of_set h
  obtain ⟨p, rfl⟩ := Exact.rational_of_isFinite (hd id a old hget ha)
  obtain ⟨q, rfl⟩ := Exact.rational_of_isFinite hv
  have hvalue : m.value id a = p := by
    rw [value, hget]
    rfl
  rw [mass_set h ht hmass, items_eq_of_multiplicity hd hn, hvalue, add_sub_cancel_left]
  rfl

end Setting

section Inserting

variable {kind : EntityKind} {container : Option EntityId} (h : m.insert kind container = .ok (id, m'))
include h

lemma value_insert (i : EntityId) : m'.value i = m.value i := by
  funext b
  rw [value, value, get_insert_eq h]
  by_cases hi : i = id
  · have hfresh : m.get i b = .error (.entityNotFound i) := by
      rw [get, hi, entity_fresh h]
      rfl
    rw [if_pos hi, hfresh]
    by_cases hs : kind.supports b = true
    · rw [if_pos hs]
      exact congrArg Exact.toRat Exact.zero_eq
    · rw [if_neg hs]
  · rw [if_neg hi]

lemma mass_insert (i : EntityId) : m'.mass i = m.mass i := by
  rw [mass, mass, kind_insert h, value_insert h]
  by_cases hi : i = id
  · have hfresh : m.entity i = .error (.entityNotFound i) := by
      rw [hi, entity_fresh h]
    have hkind : m.kind i = .error (.entityNotFound i) := by
      rw [Registry.kind, hfresh]
      rfl
    have hvalue : m.value i = fun _ => 0 := by
      funext b
      rw [value, get, hfresh]
      rfl
    rw [if_pos hi, hkind, hvalue]
    exact EntityKind.mass_zero F kind
  · rw [if_neg hi]

lemma systemMass_insert (system : EntityId) : m'.systemMass system = m.systemMass system := by
  rw [systemMass, systemMass, children_insert h, funext (mass_insert h)]
  by_cases hs : system = id
  · have hfresh : m.children system = .error (.entityNotFound system) := by
      rw [children, hs, entity_fresh h]
      rfl
    rw [if_pos hs, hfresh]
    rfl
  · rw [if_neg hs]
    cases m.children system with
    | error e => rfl
    | ok parts =>
      have hnew : m.mass id = 0 := by
        have hkind : m.kind id = .error (.entityNotFound id) := by
          rw [Registry.kind, entity_fresh h]
          rfl
        rw [mass, hkind]
      change ((if container = some system then parts ++ [id] else parts).map m.mass).sum = _
      split
      · rw [List.map_append, List.sum_append, List.map_singleton, List.sum_singleton, hnew, add_zero]
      · rfl

lemma IsDefined.insert (hd : m.IsDefined) : m'.IsDefined := by
  intro i b w hw hb
  rw [get_insert_eq h] at hw
  split at hw
  · split at hw
    · cases hw
      exact congrArg Number.isFinite Exact.zero_eq
    · cases hw
  · exact hd i b w hw hb

end Inserting

/-- The total that is kept of each system falls short of the masses of its parts by that much. -/
structure Books (m : Registry (Exact F)) (gap : EntityId → ℚ) : Prop where
  tidy : m.Tidy
  defined : m.IsDefined
  total : ∀ system, m.kind system = .ok .damperSystem →
    m.get system .totalMass = .ok (.rational (m.systemMass system - gap system))

namespace Books

variable {gap : EntityId → ℚ} {system : EntityId}

lemma empty : (Registry.empty : Registry (Exact F)).Books 0 := by
  refine ⟨.empty, ?_, ?_⟩
  · intro i b w hw
    cases hw
  · intro system hs
    cases hs

lemma insert {kind : EntityKind} {container : Option EntityId} (h : m.Books gap)
    (hm : m.insert kind container = .ok (id, m')) (hid : gap id = 0) : m'.Books gap := by
  refine ⟨h.tidy.insert hm, h.defined.insert hm, ?_⟩
  intro system hs
  rw [systemMass_insert hm, get_insert_eq hm]
  rw [kind_insert hm] at hs
  split at hs
  · rename_i hsystem
    obtain rfl := Except.ok.inj hs
    have hfresh : m.systemMass id = 0 := by
      have hc : m.children id = .error (.entityNotFound id) := by
        rw [children, entity_fresh hm]
        rfl
      rw [systemMass, hc]
    rw [if_pos hsystem, hsystem, hfresh, hid]
    exact congrArg Except.ok (Exact.zero_eq.trans (congrArg _ (sub_zero 0).symm))
  · rw [if_neg ‹_›]
    exact h.total system hs

lemma set_part (h : m.Books 0) (hm : m.set id a v = .ok (old, m')) (hv : Number.isFinite v = true)
    (ha : a.isDerived = false) (hc : m.container id = .ok (some system)) :
    m'.Books (Function.update 0 system (m'.mass id - m.mass id)) := by
  refine ⟨h.tidy.set hm, h.defined.set hm fun _ => hv, ?_⟩
  intro other ho
  rw [kind_set hm] at ho
  have hne : ¬ (other = id ∧ Attribute.totalMass = a) := by
    rintro ⟨-, rfl⟩
    cases ha
  rw [get_set_ne hm hne, systemMass_set hm h.tidy hc, h.total other ho, Function.update_apply, Pi.zero_apply,
    sub_zero, add_sub_cancel_right]

lemma set_total (h : m.Books gap) (hm : m.set system .totalMass (.rational (m.systemMass system)) = .ok (old, m')) :
    m'.Books (Function.update gap system 0) := by
  refine ⟨h.tidy.set hm, h.defined.set hm nofun, ?_⟩
  intro other ho
  rw [kind_set hm] at ho
  rw [systemMass_set_other hm rfl rfl, get_set hm]
  by_cases hs : other = system
  · rw [if_pos ⟨hs, rfl⟩, hs, Function.update_self, sub_zero]
  · rw [if_neg fun hb => hs hb.1, Function.update_of_ne hs]
    exact h.total other ho

lemma set_other (h : m.Books gap) (hm : m.set id a v = .ok (old, m'))
    (hv : a.isDerived = false → Number.isFinite v = true) (hmass : a.isMass = false) (hcount : a.isCount = false)
    (hne : a ≠ .totalMass) : m'.Books gap := by
  refine ⟨h.tidy.set hm, h.defined.set hm hv, ?_⟩
  intro other ho
  rw [kind_set hm] at ho
  rw [systemMass_set_other hm hmass hcount, get_set_ne hm fun hb => hne hb.2.symm]
  exact h.total other ho

end Books

end Registry

end Uncertainty
