import Uncertainty.Number.Binary64
import Uncertainty.Proofs.Model.Search
import Uncertainty.Proofs.Model.Sharing

namespace Uncertainty

variable {ν : Type}

namespace Registry

variable {m m' : Registry ν} {id i : EntityId} {a : Attribute} {e : Entity ν}

structure InOrder (m : Registry ν) : Prop where
  container_lt : ∀ id parent, m.container id = .ok (some parent) → parent.index < id.index
  children_sorted : ∀ id cs, m.children id = .ok cs → cs.Pairwise fun c d => c.index < d.index

namespace InOrder

lemma empty : (Registry.empty : Registry ν).InOrder := by
  have hnone (id : EntityId) (e : Entity ν) (h : (Registry.empty : Registry ν).entity id = .ok e) : False :=
    Nat.not_lt_zero _ (lt_size_of_entity h)
  constructor
  · intro id parent h
    obtain ⟨e, he, -⟩ := container_ok_iff.mp h
    exact (hnone id e he).elim
  · intro id cs h
    obtain ⟨e, he, -⟩ := children_ok_iff.mp h
    exact (hnone id e he).elim

lemma set (ho : m.InOrder) {v old : ν} (h : m.set id a v = .ok (old, m')) : m'.InOrder := by
  constructor
  · intro i parent hc
    rw [container_set h] at hc
    exact ho.container_lt i parent hc
  · intro i cs hcs
    rw [children_set h] at hcs
    exact ho.children_sorted i cs hcs

variable [Number ν] {kind : EntityKind} {container : Option EntityId}

lemma lt_of_insert (h : m.insert kind container = .ok (id, m')) (hi : m.entity i = .ok e) : i.index < id.index := by
  apply UInt32.lt_iff_toNat_lt.mpr
  rw [index_insert h]
  exact lt_size_of_entity hi

lemma insert (ho : m.InOrder) (ht : m.Tidy) (h : m.insert kind container = .ok (id, m')) : m'.InOrder := by
  constructor
  · intro i parent hc
    rw [container_insert h] at hc
    split at hc
    · rename_i hi
      obtain rfl := Except.ok.inj hc
      rcases checkPlacement_ok (insert_ok h).1 with ⟨-, ⟨⟩⟩ | ⟨-, _, ⟨⟩, hkind⟩
      obtain ⟨e, he, -⟩ := kind_ok_iff.mp hkind
      rw [hi]
      exact lt_of_insert h he
    · exact ho.container_lt i parent hc
  · intro i cs hcs
    rw [children_insert h] at hcs
    split at hcs
    · cases hcs
      exact .nil
    · obtain ⟨old, hold, rfl⟩ := Except.map_eq_ok.mp hcs
      have hsorted := ho.children_sorted i old hold
      split
      · refine List.pairwise_append.mpr ⟨hsorted, List.pairwise_singleton _ _, ?_⟩
        intro c hc d hd
        obtain ⟨e, he, -⟩ := container_ok_iff.mp (ht.container_of_child hold hc)
        rw [List.mem_singleton.mp hd]
        exact lt_of_insert h he
      · exact hsorted

lemma perform (ho : m.InOrder) (ht : m.Tidy) (call : ModelCall ν) : (call.perform m).InOrder := by
  rcases m.perform_cases call with hsame | ⟨_, _, _, hinsert⟩ | ⟨_, _, _, _, -, hset⟩
  · rwa [hsame]
  · exact ho.insert ht hinsert
  · exact ho.set hset

lemma performAll (ho : m.InOrder) (ht : m.Tidy) (calls : List (ModelCall ν)) :
    (ModelCall.performAll calls m).InOrder := by
  induction calls generalizing m with
  | nil => exact ho
  | cons call calls ih => exact ih (ho.perform ht call) (ht.perform call)

end InOrder

section Walking

variable {ids order : List EntityId} {cs : List EntityId}

lemma Walk.endsWith (h : m.Walk ids order) (a : Attribute) :
    EndsWith (m.look a) ids (.ok (order.find? (m.supports · a))) := by
  induction h with
  | done => exact .now rfl
  | @visit id children below rest after hchildren _ _ ihbelow ihafter =>
    obtain ⟨e, he, rfl⟩ := children_ok_iff.mp hchildren
    have hsupports : m.supports id a = e.kind.supports a := by rw [supports, kind_of_entity he]
    rw [List.cons_append, List.find?_cons, hsupports]
    cases hs : e.kind.supports a with
    | true => exact .now (by simp [look, he, hs])
    | false =>
      refine .later (by simp [look, he, hs]; rfl) (endsWith_append ihbelow (fun hnone => ?_) fun hsome => ?_)
      · rw [List.find?_append, Except.ok.inj hnone]
        exact ihafter
      · rw [List.find?_append, Option.or_of_isSome]
        exact Option.isSome_iff_ne_none.mpr fun hnone => hsome (congrArg Except.ok hnone)

namespace Tidy

variable (ht : m.Tidy)
include ht

lemma findHolder_eq (hcs : m.children id = .ok cs) (a : Attribute) :
    EndsWith (m.look a) [id] (.ok ((id :: cs).find? (m.supports · a))) ∧
      m.findHolder id a = .ok ((id :: cs).find? (m.supports · a)) := by
  have hends := (ht.walk hcs).endsWith a
  exact ⟨hends, (endsWith_look_iff.mp hends).1⟩

lemma exists_rootOf (he : m.entity id = .ok e) : ∃ system, EndsWith m.climb id (.ok system) ∧
    m.rootOf id = .ok system ∧ m.kind system = .ok .damperSystem ∧ system = e.container.getD id := by
  have hends {system : EntityId} (hroot : m.rootOf id = .ok system) : EndsWith m.climb id (.ok system) :=
    endsWith_climb_iff.mpr ⟨hroot, not_givesUp_ok⟩
  have hc : m.container id = .ok e.container := container_of_entity he
  cases hcontainer : e.container with
  | some system =>
    rw [hcontainer] at hc
    have hroot := ht.rootOf_of_container hc
    exact ⟨system, hends hroot, hroot, ht.above id system hc, rfl⟩
  | none =>
    rw [hcontainer] at hc
    have hkind : m.kind id = .ok e.kind := kind_of_entity he
    have hroot : m.rootOf id = .ok id := by
      rw [rootOf, rootWithin, hc]
      rfl
    refine ⟨id, hends hroot, hroot, ?_, rfl⟩
    rw [hkind, (ht.root id e.kind hkind).mp hc]

lemma exists_get_iff (he : m.entity id = .ok e) : (∃ v, m.get id a = .ok v) ↔ e.kind.supports a = true := by
  have hkind := kind_of_entity he
  constructor
  · rintro ⟨v, hv⟩
    obtain ⟨k, hk, hs⟩ := ht.supports_of_get hv
    obtain rfl := Except.ok.inj (hkind.symm.trans hk)
    exact hs
  · exact ht.get_of_supports hkind

lemma exists_set_iff (he : m.entity id = .ok e) (v : ν) : (∃ x, m.set id a v = .ok x) ↔ e.kind.supports a = true := by
  rw [← ht.exists_get_iff he]
  constructor
  · rintro ⟨⟨old, m'⟩, hset⟩
    exact ⟨old, get_of_set hset⟩
  · rintro ⟨old, hold⟩
    obtain ⟨m', hset⟩ := set_of_get hold v
    exact ⟨_, hset⟩

lemma placed (ho : m.InOrder) (he : m.entity id = .ok e) : e.kind = .damperSystem ∧ e.container = none ∨
    e.kind ≠ .damperSystem ∧ ∃ system, e.container = some system ∧ m.kind system = .ok .damperSystem ∧
      system.index < id.index := by
  have hcontainer := container_of_entity he
  have hroot := ht.root id e.kind (kind_of_entity he)
  cases hc : e.container with
  | none =>
    rw [hc] at hcontainer
    exact .inl ⟨hroot.mp hcontainer, rfl⟩
  | some system =>
    rw [hc] at hcontainer
    refine .inr ⟨fun hsystem => ?_, system, rfl, ht.above id system hcontainer, ho.container_lt id system hcontainer⟩
    cases hcontainer.symm.trans (hroot.mpr hsystem)

end Tidy

end Walking

/-- After any calls, systems are on their own, and each part is in one system that is older than it and lists its parts
once each, by age. Entities have the attributes of their kind. The climb from an entity comes to an end at its system,
and the search below it at the first holder of the attribute in pre-order, if there is one. -/
theorem built_model_is_in_order [Number ν] (calls : List (ModelCall ν)) :
    let m := ModelCall.performAll calls (Registry.empty : Registry ν)
    ∀ id e, m.entity id = .ok e →
      (e.kind = .damperSystem ∧ e.container = none ∨
        e.kind ≠ .damperSystem ∧ ∃ system, e.container = some system ∧ m.kind system = .ok .damperSystem ∧
          system.index < id.index) ∧
      (e.children.Pairwise (fun c d => c.index < d.index) ∧ ∀ c, c ∈ e.children ↔ m.container c = .ok (some id)) ∧
      (∀ a, ((∃ v, m.get id a = .ok v) ↔ e.kind.supports a = true) ∧
        ∀ v, (∃ x, m.set id a v = .ok x) ↔ e.kind.supports a = true) ∧
      (∃ system, EndsWith m.climb id (.ok system) ∧ m.rootOf id = .ok system ∧ m.kind system = .ok .damperSystem ∧
        system = e.container.getD id) ∧
      ∃ order, m.Walk [id] order ∧ (∀ i, i ∈ order ↔ i = id ∨ m.container i = .ok (some id)) ∧
        ∀ a, EndsWith (m.look a) [id] (.ok (order.find? (m.supports · a))) ∧
          m.findHolder id a = .ok (order.find? (m.supports · a)) := by
  intro m id e he
  have ht : m.Tidy := .performAll .empty calls
  have ho : m.InOrder := .performAll .empty .empty calls
  have hchildren := children_of_entity he
  have hbelow := ht.below id e he
  refine ⟨ht.placed ho he, ⟨ho.children_sorted id _ hchildren, hbelow⟩,
    fun a => ⟨ht.exists_get_iff he, ht.exists_set_iff he⟩, ht.exists_rootOf he, id :: e.children, ht.walk hchildren,
    fun i => ?_, ht.findHolder_eq hchildren⟩
  rw [List.mem_cons, hbelow]

def twoSystems : List (ModelCall Float) :=
  [.insert .damperSystem none, .insert .upperTruss (some ⟨0⟩), .insert .springDamper (some ⟨1⟩),
    .insert .damperSystem none, .insert .springDamper (some ⟨0⟩), .set ⟨3⟩ .stiffness 27000, .set ⟨3⟩ .armMass 1]

theorem twoSystems_is_in_order :
    let m := ModelCall.performAll twoSystems (Registry.empty : Registry Float)
    m.size = 4 ∧ m.children ⟨0⟩ = .ok [⟨1⟩, ⟨3⟩] ∧ m.container ⟨3⟩ = .ok (some ⟨0⟩) ∧
      (∃ v, m.get ⟨3⟩ .stiffness = .ok v) ∧ ¬ (∃ v, m.get ⟨3⟩ .armMass = .ok v) ∧
      EndsWith m.climb ⟨3⟩ (.ok ⟨0⟩) ∧ EndsWith (m.look .stiffness) [⟨0⟩] (.ok (some ⟨3⟩)) ∧
      EndsWith (m.look .armMass) [⟨0⟩] (.ok none) := by
  intro m
  have hsize : m.size = 4 := by decide +kernel
  have hchildren : m.children ⟨0⟩ = .ok [⟨1⟩, ⟨3⟩] := by decide +kernel
  have htruss : m.children ⟨1⟩ = .ok [] := by decide +kernel
  have hspring : m.children ⟨3⟩ = .ok [] := by decide +kernel
  have hkind : m.kind ⟨3⟩ = .ok .springDamper := by decide +kernel
  have hcontainer : m.container ⟨3⟩ = .ok (some ⟨0⟩) := by decide +kernel
  have hfound : [⟨0⟩, ⟨1⟩, ⟨3⟩].find? (m.supports · .stiffness) = some ⟨3⟩ := by decide +kernel
  have hnone : [⟨0⟩, ⟨1⟩, ⟨3⟩].find? (m.supports · .armMass) = none := by decide +kernel
  have hwalk : m.Walk [⟨0⟩] [⟨0⟩, ⟨1⟩, ⟨3⟩] := .visit hchildren (.visit htruss .done (.visit hspring .done .done)) .done
  obtain ⟨root, hroot, -⟩ := children_ok_iff.mp hchildren
  obtain ⟨spring, hentity, hk⟩ := kind_ok_iff.mp hkind
  have hc : spring.container = some ⟨0⟩ :=
    Except.ok.inj ((container_of_entity hentity).symm.trans hcontainer)
  obtain ⟨-, -, -, -, order, horder, -, hsearch⟩ := built_model_is_in_order twoSystems ⟨0⟩ root hroot
  obtain rfl := hwalk.unique horder
  obtain ⟨-, -, hsupported, ⟨system, hclimb, -, -, rfl⟩, -⟩ := built_model_is_in_order twoSystems ⟨3⟩ spring hentity
  rw [hk] at hsupported
  rw [hc] at hclimb
  refine ⟨hsize, hchildren, hcontainer, (hsupported _).1.mpr rfl, fun hv => ?_, hclimb, hfound ▸ (hsearch _).1,
    hnone ▸ (hsearch _).1⟩
  cases (hsupported .armMass).1.mp hv

end Registry

end Uncertainty
