import Mathlib.Data.List.Find
import Uncertainty.Model.Damper
import Uncertainty.Number.Laws
import Uncertainty.Proofs.Model.Containment

namespace Uncertainty

variable {ν : Type}

section Numbers

variable [Number ν] [LawfulProduct ν] {c k x y ratio : ν}

lemma dampingRatio?_congr (h : (x == y) = true) : dampingRatio? c k x = dampingRatio? c k y := by
  rw [dampingRatio?, dampingRatio?]
  rcases LawfulProduct.mul_congr (k := k) h with hproduct | ⟨hx, hy⟩
  · rw [hproduct]
  · simp only [hx, hy]
    rfl

lemma dampingRatio?_zero_stiffness : dampingRatio? c Number.zero x = none := by
  rw [dampingRatio?]
  simp only [LawfulProduct.zero_mul]
  rfl

lemma beq_self_of_dampingRatio? (h : dampingRatio? c k x = some ratio) : (x == x) = true := by
  by_contra hx
  have hproduct : Number.less Number.zero (k * x) = false := eq_false_of_ne_true fun hp => hx (LawfulProduct.beq_self hp)
  rw [dampingRatio?] at h
  simp only [hproduct] at h
  cases h

end Numbers

namespace Registry

variable {m m' : Registry ν} {id system : EntityId} {a : Attribute} {apart : EntityId → Attribute → Prop}

section Depending

variable [Number ν] {spring : EntityId} {c k mass ratio : ν}

lemma dampingRatio?_eq_some : m.dampingRatio? system = .ok (some ratio) ↔ ∃ spring c k mass,
    m.findHolder system .stiffness = .ok (some spring) ∧ m.get spring .dampingConstant = .ok c ∧
      m.get spring .stiffness = .ok k ∧ m.get system .totalMass = .ok mass ∧
        Uncertainty.dampingRatio? c k mass = some ratio := by
  rw [dampingRatio?]
  constructor
  · intro h
    obtain ⟨_ | spring, hspring, h⟩ := exists_of_bind_ok h
    · cases h
    · obtain ⟨c, hc, h⟩ := exists_of_bind_ok h
      obtain ⟨k, hk, h⟩ := exists_of_bind_ok h
      obtain ⟨mass, hmass, h⟩ := exists_of_bind_ok h
      exact ⟨spring, c, k, mass, hspring, hc, hk, hmass, Except.ok.inj h⟩
  · rintro ⟨spring, c, k, mass, hspring, hc, hk, hmass, h⟩
    simp only [hspring, hc, hk, hmass, bind, Except.bind, h]
    rfl

namespace SameBut

lemma dampingRatio? (h : SameBut apart m m') (hspring : ∀ spring, m.findHolder system .stiffness = .ok (some spring) →
    ¬ apart spring .dampingConstant ∧ ¬ apart spring .stiffness) (hmass : ¬ apart system .totalMass) :
    m'.dampingRatio? system = m.dampingRatio? system := by
  rw [Registry.dampingRatio?, Registry.dampingRatio?, h.findHolder]
  cases hf : m.findHolder system .stiffness with
  | error e => rfl
  | ok o =>
    cases o with
    | none => rfl
    | some spring =>
      obtain ⟨hc, hk⟩ := hspring spring hf
      dsimp only [bind, Except.bind]
      rw [h.get spring _ hc, h.get spring _ hk, h.get system _ hmass]

lemma dampingRatio?_of_beq [LawfulProduct ν] {before after : ν} (h : SameBut apart m m')
    (hspring : ∀ spring, ¬ apart spring .dampingConstant ∧ ¬ apart spring .stiffness)
    (hbefore : m.get system .totalMass = .ok before) (hafter : m'.get system .totalMass = .ok after)
    (heq : (after == before) = true) : m'.dampingRatio? system = m.dampingRatio? system := by
  rw [Registry.dampingRatio?, Registry.dampingRatio?, h.findHolder]
  cases m.findHolder system .stiffness with
  | error e => rfl
  | ok o =>
    cases o with
    | none => rfl
    | some spring =>
      obtain ⟨hc, hk⟩ := hspring spring
      dsimp only [bind, Except.bind]
      rw [h.get spring _ hc, h.get spring _ hk, hbefore, hafter]
      simp only [dampingRatio?_congr heq]

end SameBut

def Settled (m : Registry ν) (system : EntityId) : Prop :=
  ∀ ratio, m.dampingRatio? system = .ok (some ratio) → m.get system .dampingRatio = .ok ratio

lemma SameBut.settled (h : SameBut apart m m') (hratio : m'.dampingRatio? system = m.dampingRatio? system)
    (hvalue : ¬ apart system .dampingRatio) (hs : m.Settled system) : m'.Settled system := by
  intro ratio hr
  rw [h.get system _ hvalue]
  exact hs ratio (hratio ▸ hr)

end Depending

namespace Tidy

lemma container_of_child (ht : m.Tidy) {cs : List EntityId} (hcs : m.children system = .ok cs) {c : EntityId}
    (hc : c ∈ cs) : m.container c = .ok (some system) := by
  obtain ⟨e, he, rfl⟩ := children_ok_iff.mp hcs
  exact (ht.below system e he c).mp hc

lemma children_of_child (ht : m.Tidy) {c : EntityId} (hc : m.container c = .ok (some system)) :
    m.children c = .ok [] := by
  obtain ⟨e, he, hcontainer⟩ := container_ok_iff.mp hc
  refine children_ok_iff.mpr ⟨e, he, List.eq_nil_iff_forall_not_mem.mpr fun d hd => ?_⟩
  have hkind := ht.above d c ((ht.below c e he d).mp hd)
  cases hc.symm.trans ((ht.root c _ hkind).mpr rfl)

lemma findHolder_stiffness (ht : m.Tidy) (hk : m.kind system = .ok .damperSystem) {cs : List EntityId}
    (hcs : m.children system = .ok cs) :
    m.findHolder system .stiffness = .ok (cs.find? fun c => m.kind c = .ok .springDamper) := by
  have hsize : 0 < m.size := by
    obtain ⟨e, he, -⟩ := kind_ok_iff.mp hk
    exact Nat.zero_lt_of_lt (lt_size_of_entity he)
  obtain ⟨n, hn⟩ := Nat.exists_eq_add_one_of_ne_zero (Nat.ne_of_gt hsize)
  have hchild {c : EntityId} (hc : c ∈ cs) : m.holderWithin .stiffness (n + 1) c =
      .ok (if m.kind c = .ok .springDamper then some c else none) := by
    have hcontainer := ht.container_of_child hcs hc
    obtain ⟨e, he, -⟩ := container_ok_iff.mp hcontainer
    rw [holderWithin_succ, ht.children_of_child hcontainer, kind_of_entity he]
    cases e.kind <;> rfl
  rw [findHolder, hn, holderWithin_succ, hk, hcs]
  change firstAnswer _ cs = _
  clear hcs
  induction cs with
  | nil => rfl
  | cons c cs ih =>
    rw [firstAnswer, hchild List.mem_cons_self, List.find?_cons]
    by_cases hspring : m.kind c = .ok .springDamper
    · rw [if_pos hspring, decide_eq_true hspring]
      rfl
    · rw [if_neg hspring, decide_eq_false hspring]
      exact ih fun hc => hchild (List.mem_cons_of_mem _ hc)

lemma spring_of_findHolder (ht : m.Tidy) (hk : m.kind system = .ok .damperSystem) {spring : EntityId}
    (h : m.findHolder system .stiffness = .ok (some spring)) :
    m.kind spring = .ok .springDamper ∧ m.container spring = .ok (some system) := by
  obtain ⟨cs, hcs⟩ := exists_children hk
  rw [ht.findHolder_stiffness hk hcs] at h
  have hfound := Except.ok.inj h
  have hspring := List.find?_some hfound
  exact ⟨of_decide_eq_true hspring, ht.container_of_child hcs (List.mem_of_find?_eq_some hfound)⟩

variable [Number ν]

lemma system_of_dampingRatio? (ht : m.Tidy) {ratio : ν} (h : m.dampingRatio? system = .ok (some ratio)) :
    m.kind system = .ok .damperSystem := by
  obtain ⟨-, -, -, mass, -, -, -, hmass, -⟩ := dampingRatio?_eq_some.mp h
  obtain ⟨k, hk, hs⟩ := ht.supports_of_get hmass
  rw [hk]
  cases k <;> first | rfl | cases hs

/-- A new entity adds no ratio, since a spring damper starts without stiffness, and it changes none. -/
lemma dampingRatio?_insert [LawfulProduct ν] (ht : m.Tidy) {kind : EntityKind} {container : Option EntityId}
    (h : m.insert kind container = .ok (id, m')) {ratio : ν} (hr : m'.dampingRatio? system = .ok (some ratio)) :
    system ≠ id ∧ m.dampingRatio? system = .ok (some ratio) := by
  have ht' := ht.insert h
  have hk' := ht'.system_of_dampingRatio? hr
  obtain ⟨spring, c, k, mass, hspring, hc, hk, hmass, hratio⟩ := dampingRatio?_eq_some.mp hr
  obtain ⟨hspringKind, hspringContainer⟩ := ht'.spring_of_findHolder hk' hspring
  have hfresh : m.kind id ≠ .ok .damperSystem := by
    intro hkind
    obtain ⟨e, he, -⟩ := kind_ok_iff.mp hkind
    exact entity_ne_fresh h he rfl
  have hold : spring ≠ id := by
    rintro rfl
    rw [kind_insert h, if_pos rfl] at hspringKind
    rw [get_insert_eq h, if_pos rfl, Except.ok.inj hspringKind] at hk
    cases hk
    cases hratio.symm.trans dampingRatio?_zero_stiffness
  have hcontainer : m.container spring = .ok (some system) := by
    rwa [container_insert h, if_neg hold] at hspringContainer
  have hsystem : system ≠ id := by
    rintro rfl
    exact hfresh (ht.above spring _ hcontainer)
  have hkind := ht.above spring system hcontainer
  rw [get_insert_eq h, if_neg hold] at hc hk
  rw [get_insert_eq h, if_neg hsystem] at hmass
  refine ⟨hsystem, dampingRatio?_eq_some.mpr ⟨spring, c, k, mass, ?_, hc, hk, hmass, hratio⟩⟩
  obtain ⟨cs, hcs⟩ := exists_children hkind
  have hcs' := children_insert h system
  rw [if_neg hsystem, hcs] at hcs'
  have hsame : (cs.find? fun c => m'.kind c = .ok .springDamper) =
      cs.find? fun c => m.kind c = .ok .springDamper := by
    refine List.find?_congr fun c hc => ?_
    obtain ⟨e', he', -⟩ := container_ok_iff.mp (ht.container_of_child hcs hc)
    rw [kind_insert h, if_neg (entity_ne_fresh h he')]
  rw [ht'.findHolder_stiffness hk' hcs'] at hspring
  rw [ht.findHolder_stiffness hkind hcs]
  have hfound := Except.ok.inj hspring
  refine congrArg Except.ok ?_
  split at hfound
  · rw [List.find?_append, hsame] at hfound
    rcases Option.or_eq_some_iff.mp hfound with hfound | ⟨-, hfound⟩
    · exact hfound
    · exact absurd (List.mem_singleton.mp (List.mem_of_find?_eq_some hfound)) hold
  · rwa [hsame] at hfound

lemma settled_insert [LawfulProduct ν] (ht : m.Tidy) {kind : EntityKind} {container : Option EntityId}
    (h : m.insert kind container = .ok (id, m')) (hs : ∀ system, m.Settled system) (system : EntityId) :
    m'.Settled system := by
  intro ratio hr
  obtain ⟨hne, hr⟩ := ht.dampingRatio?_insert h hr
  rw [get_insert_eq h, if_neg hne]
  exact hs system ratio hr

end Tidy

end Registry

end Uncertainty
