import Mathlib.Data.List.Nodup
import Uncertainty.Proofs.Attempt
import Uncertainty.Proofs.Model.Registry

namespace Uncertainty

variable {ν : Type}

lemma EntityKind.supports_damperSystem (a : Attribute) : damperSystem.supports a = a.isDerived := by
  cases a <;> rfl

namespace Registry

variable {m m' : Registry ν} {id i c : EntityId} {e : Entity ν} {a : Attribute} {v old : ν}

lemma entity_ok_iff : m.entity id = .ok e ↔ m.entities[id.index.toNat]? = some e := by
  rw [entity]
  cases m.entities[id.index.toNat]? with
  | none => simp
  | some e' => exact ⟨fun h => congrArg some (Except.ok.inj h), fun h => congrArg Except.ok (Option.some.inj h)⟩

lemma kind_ok_iff {k : EntityKind} : m.kind id = .ok k ↔ ∃ e, m.entity id = .ok e ∧ e.kind = k :=
  Except.map_eq_ok

lemma children_ok_iff {cs : List EntityId} : m.children id = .ok cs ↔ ∃ e, m.entity id = .ok e ∧ e.children = cs :=
  Except.map_eq_ok

lemma container_ok_iff {o : Option EntityId} : m.container id = .ok o ↔ ∃ e, m.entity id = .ok e ∧ e.container = o :=
  Except.map_eq_ok

section Known

variable (he : m.entity id = .ok e)
include he

lemma kind_of_entity : m.kind id = .ok e.kind := kind_ok_iff.mpr ⟨e, he, rfl⟩

lemma children_of_entity : m.children id = .ok e.children := children_ok_iff.mpr ⟨e, he, rfl⟩

lemma container_of_entity : m.container id = .ok e.container := container_ok_iff.mpr ⟨e, he, rfl⟩

lemma lt_size_of_entity : id.index.toNat < m.size := (Array.getElem?_eq_some_iff.mp (entity_ok_iff.mp he)).1

end Known

lemma exists_children {k : EntityKind} (hk : m.kind id = .ok k) : ∃ cs, m.children id = .ok cs := by
  obtain ⟨e, he, -⟩ := kind_ok_iff.mp hk
  exact ⟨e.children, children_of_entity he⟩

lemma entity_set (h : m.set id a v = .ok (old, m')) (i : EntityId) :
    m'.entity i = (m.entity i).map fun e => if i = id then e.setValue a v else e := by
  obtain ⟨e, he, -, rfl⟩ := set_ok h
  by_cases hi : i = id
  · subst hi
    obtain ⟨hlt, -⟩ := Array.getElem?_eq_some_iff.mp he
    rw [entity, entity, he]
    simp [hlt, Except.map]
  · have hne : id.index.toNat ≠ i.index.toNat := fun hn => hi (index_injective hn.symm)
    rw [entity, entity, Array.getElem?_setIfInBounds_ne hne]
    cases m.entities[i.index.toNat]? with
    | none => rfl
    | some e => exact congrArg Except.ok (if_neg hi).symm

lemma get_eq_bind (m : Registry ν) (i : EntityId) (b : Attribute) :
    m.get i b = ((m.entity i).map fun e => (e.value? b, e.kind)).bind fun x =>
      match x.1 with
      | some v => .ok v
      | none => .error (.attributeNotSupported x.2 b) := by
  rw [get]
  cases m.entity i with
  | error f => rfl
  | ok e =>
    change (match e.value? b with | some v => _ | none => _) = (match e.value? b with | some v => _ | none => _)
    cases e.value? b <;> rfl

section Inserting

variable {kind : EntityKind} {container : Option EntityId}

lemma checkPlacement_ok (h : m.checkPlacement kind container = .ok ()) :
    kind = .damperSystem ∧ container = none ∨
      kind ≠ .damperSystem ∧ ∃ parent, container = some parent ∧ m.kind parent = .ok .damperSystem := by
  cases container with
  | none => cases kind <;> first | exact .inl ⟨rfl, rfl⟩ | cases h
  | some parent =>
    have hparent (h : (do
        let parentKind ← m.kind parent
        if parentKind.isRoot then return () else throw (.invalidContainer kind (.notASystem parent parentKind))) =
        Except.ok ()) : m.kind parent = .ok .damperSystem := by
      cases hk : m.kind parent with
      | error f =>
        rw [hk] at h
        cases h
      | ok k =>
        rw [hk] at h
        cases k <;> first | rfl | cases h
    cases kind with
    | damperSystem => cases h
    | upperTruss | lowerTruss | guidanceElement | springDamper => exact .inr ⟨nofun, parent, rfl, hparent h⟩

variable [Number ν]

lemma insert_ok (h : m.insert kind container = .ok (id, m')) :
    m.checkPlacement kind container = .ok () ∧ m.size < UInt32.size ∧ id = ⟨UInt32.ofNat m.size⟩ ∧
      m'.entities = match container with
        | none => m.entities.push (Entity.new kind container)
        | some parent => (m.entities.push (Entity.new kind container)).modify parent.index.toNat (addChild id) := by
  rw [insert] at h
  cases hc : m.checkPlacement kind container with
  | error f =>
    rw [hc] at h
    cases h
  | ok u =>
    rw [hc] at h
    change (if m.size < UInt32.size then _ else _) = _ at h
    by_cases hs : m.size < UInt32.size
    · rw [if_pos hs] at h
      cases container <;> cases h <;> exact ⟨rfl, hs, rfl, rfl⟩
    · rw [if_neg hs] at h
      cases h

lemma index_insert (h : m.insert kind container = .ok (id, m')) : id.index.toNat = m.size := by
  obtain ⟨-, hs, rfl, -⟩ := insert_ok h
  exact UInt32.toNat_ofNat_of_lt hs

lemma entity_insert (h : m.insert kind container = .ok (id, m')) (i : EntityId) :
    m'.entity i = if i = id then .ok (Entity.new kind container) else
      (m.entity i).map fun e => if container = some i then addChild id e else e := by
  have hindex := index_insert h
  obtain ⟨hplace, -, -, hentities⟩ := insert_ok h
  have hpush : (m.entities.push (Entity.new kind container))[i.index.toNat]? =
      if i = id then some (Entity.new kind container) else m.entities[i.index.toNat]? := by
    rw [Array.getElem?_push]
    by_cases hi : i = id
    · rw [if_pos hi, if_pos (hi ▸ hindex)]
    · rw [if_neg hi, if_neg fun hn => hi (index_injective (hn.trans hindex.symm))]
  cases container with
  | none =>
    rw [entity, entity, hentities]
    dsimp only
    rw [hpush]
    by_cases hi : i = id
    · rw [if_pos hi, if_pos hi]
    · rw [if_neg hi, if_neg hi]
      cases m.entities[i.index.toNat]? <;> rfl
  | some parent =>
    have hparent : parent ≠ id := by
      rintro rfl
      rcases checkPlacement_ok hplace with ⟨-, hc⟩ | ⟨-, _, ⟨⟩, hkind⟩
      · cases hc
      · obtain ⟨e, he, -⟩ := kind_ok_iff.mp hkind
        exact absurd hindex (Nat.ne_of_lt (lt_size_of_entity he))
    rw [entity, entity, hentities]
    dsimp only
    rw [Array.getElem?_modify, hpush]
    by_cases hi : i = id
    · subst hi
      have hne : parent.index.toNat ≠ i.index.toNat := fun hn => hparent (index_injective hn)
      rw [if_neg hne, if_pos rfl, if_pos rfl]
    · rw [if_neg hi, if_neg hi]
      by_cases hp : parent = i
      · subst hp
        rw [if_pos rfl]
        cases m.entities[parent.index.toNat]? with
        | none => rfl
        | some e => exact congrArg Except.ok (if_pos rfl).symm
      · have hne : parent.index.toNat ≠ i.index.toNat := fun hn => hp (index_injective hn)
        rw [if_neg hne]
        cases m.entities[i.index.toNat]? with
        | none => rfl
        | some e => exact congrArg Except.ok (if_neg fun h => hp (Option.some.inj h)).symm

lemma entity_fresh (h : m.insert kind container = .ok (id, m')) : m.entity id = .error (.entityNotFound id) := by
  rw [entity, Array.getElem?_eq_none]
  exact Nat.le_of_eq (index_insert h).symm

lemma entity_ne_fresh (h : m.insert kind container = .ok (id, m')) (he : m.entity i = .ok e) : i ≠ id := by
  rintro rfl
  cases (entity_fresh h).symm.trans he

lemma entity_insert_ok (h : m.insert kind container = .ok (id, m')) (he : m'.entity i = .ok e) :
    i = id ∧ e = Entity.new kind container ∨
      i ≠ id ∧ ∃ e', m.entity i = .ok e' ∧ e = if container = some i then addChild id e' else e' := by
  rw [entity_insert h] at he
  by_cases hi : i = id
  · rw [if_pos hi] at he
    exact .inl ⟨hi, (Except.ok.inj he).symm⟩
  · rw [if_neg hi] at he
    obtain ⟨e', he', rfl⟩ := Except.map_eq_ok.mp he
    exact .inr ⟨hi, e', he', rfl⟩

lemma map_entity_insert {α : Type} {f : Entity ν → α} (h : m.insert kind container = .ok (id, m'))
    (hf : ∀ e, f (addChild id e) = f e) (i : EntityId) :
    (m'.entity i).map f = if i = id then .ok (f (Entity.new kind container)) else (m.entity i).map f := by
  rw [entity_insert h]
  split
  · rfl
  · cases m.entity i with
    | error f => rfl
    | ok e =>
      refine congrArg Except.ok ?_
      dsimp only
      split
      · exact hf e
      · rfl

lemma container_insert (h : m.insert kind container = .ok (id, m')) (i : EntityId) :
    m'.container i = if i = id then .ok container else m.container i :=
  map_entity_insert h (fun _ => rfl) i

lemma kind_insert (h : m.insert kind container = .ok (id, m')) (i : EntityId) :
    m'.kind i = if i = id then .ok kind else m.kind i :=
  map_entity_insert h (fun _ => rfl) i

lemma children_insert (h : m.insert kind container = .ok (id, m')) (i : EntityId) :
    m'.children i = if i = id then .ok [] else
      (m.children i).map fun cs => if container = some i then cs ++ [id] else cs := by
  change (m'.entity i).map _ = if i = id then _ else ((m.entity i).map _).map _
  rw [entity_insert h]
  split
  · rfl
  · cases m.entity i with
    | error f => rfl
    | ok e =>
      refine congrArg Except.ok ?_
      dsimp only
      split <;> rfl

lemma get_insert_eq (h : m.insert kind container = .ok (id, m')) (i : EntityId) (b : Attribute) :
    m'.get i b = if i = id then
      (if kind.supports b then .ok Number.zero else .error (.attributeNotSupported kind b)) else m.get i b := by
  rw [get_eq_bind, map_entity_insert h (fun _ => rfl)]
  split
  · cases kind <;> cases b <;> rfl
  · exact (get_eq_bind m i b).symm

end Inserting

section Setting

lemma map_entity_set {α : Type} {f : Entity ν → α} (h : m.set id a v = .ok (old, m'))
    (hf : ∀ e, f (e.setValue a v) = f e) (i : EntityId) : (m'.entity i).map f = (m.entity i).map f := by
  rw [entity_set h]
  cases m.entity i with
  | error f => rfl
  | ok e =>
    refine congrArg Except.ok ?_
    dsimp only
    split
    · exact hf e
    · rfl

lemma kind_set (h : m.set id a v = .ok (old, m')) (i : EntityId) : m'.kind i = m.kind i :=
  map_entity_set h (fun _ => rfl) i

lemma container_set (h : m.set id a v = .ok (old, m')) (i : EntityId) : m'.container i = m.container i :=
  map_entity_set h (fun _ => rfl) i

lemma children_set (h : m.set id a v = .ok (old, m')) (i : EntityId) : m'.children i = m.children i :=
  map_entity_set h (fun _ => rfl) i

lemma holderWithin_succ (m : Registry ν) (a : Attribute) (levels : Nat) (id : EntityId) :
    m.holderWithin a (levels + 1) id = (do
      let k ← m.kind id
      let cs ← m.children id
      if k.supports a then return some id else firstAnswer (m.holderWithin a levels) cs) := by
  rw [holderWithin, kind, children]
  cases m.entity id <;> rfl

structure SameBut (apart : EntityId → Attribute → Prop) (m m' : Registry ν) : Prop where
  size : m'.size = m.size
  kind : ∀ i, m'.kind i = m.kind i
  container : ∀ i, m'.container i = m.container i
  children : ∀ i, m'.children i = m.children i
  get : ∀ i b, ¬ apart i b → m'.get i b = m.get i b

namespace SameBut

variable {m'' : Registry ν} {apart apart' : EntityId → Attribute → Prop}

lemma of_eq (h : m' = m) : SameBut apart m m' := by
  subst h
  exact ⟨rfl, fun _ => rfl, fun _ => rfl, fun _ => rfl, fun _ _ _ => rfl⟩

lemma of_set (h : m.set id a v = .ok (old, m')) : SameBut (fun i b => i = id ∧ b = a) m m' := by
  refine ⟨?_, kind_set h, container_set h, children_set h, fun _ _ hne => get_set_ne h hne⟩
  obtain ⟨e, -, -, rfl⟩ := set_ok h
  exact Array.size_setIfInBounds

lemma mono (h : SameBut apart m m') (hsub : ∀ i b, apart i b → apart' i b) : SameBut apart' m m' :=
  ⟨h.size, h.kind, h.container, h.children, fun i b hne => h.get i b fun hb => hne (hsub i b hb)⟩

lemma trans (h : SameBut apart m m') (h' : SameBut apart m' m'') : SameBut apart m m'' where
  size := h'.size.trans h.size
  kind i := (h'.kind i).trans (h.kind i)
  container i := (h'.container i).trans (h.container i)
  children i := (h'.children i).trans (h.children i)
  get i b hne := (h'.get i b hne).trans (h.get i b hne)

lemma symm (h : SameBut apart m m') : SameBut apart m' m where
  size := h.size.symm
  kind i := (h.kind i).symm
  container i := (h.container i).symm
  children i := (h.children i).symm
  get i b hb := (h.get i b hb).symm

lemma findHolder (h : SameBut apart m m') (root : EntityId) (a : Attribute) :
    m'.findHolder root a = m.findHolder root a := by
  have hwithin (levels : Nat) : m'.holderWithin a levels = m.holderWithin a levels := by
    induction levels with
    | zero => rfl
    | succ levels ih =>
      funext id
      rw [holderWithin_succ, holderWithin_succ, h.kind, h.children, ih]
  rw [Registry.findHolder, Registry.findHolder, h.size, hwithin]

end SameBut

end Setting

/-- What every model is like that is built entity by entity. -/
structure Tidy (m : Registry ν) : Prop where
  supported : ∀ id e, m.entity id = .ok e → ∀ a, (e.value? a).isSome = e.kind.supports a
  nodup : ∀ id e, m.entity id = .ok e → e.children.Nodup
  below : ∀ id e, m.entity id = .ok e → ∀ c, c ∈ e.children ↔ m.container c = .ok (some id)
  above : ∀ id parent, m.container id = .ok (some parent) → m.kind parent = .ok .damperSystem
  root : ∀ id k, m.kind id = .ok k → (m.container id = .ok none ↔ k = .damperSystem)

namespace Tidy

lemma empty : Tidy (Registry.empty : Registry ν) := by
  have hnone (id : EntityId) (e : Entity ν) : (Registry.empty : Registry ν).entity id ≠ .ok e := by
    intro h
    exact absurd (entity_ok_iff.mp h) nofun
  refine ⟨?_, ?_, ?_, ?_, ?_⟩
  · intro id e he
    exact absurd he (hnone id e)
  · intro id e he
    exact absurd he (hnone id e)
  · intro id e he
    exact absurd he (hnone id e)
  · intro id parent h
    obtain ⟨e, he, -⟩ := container_ok_iff.mp h
    exact absurd he (hnone id e)
  · intro id k h
    obtain ⟨e, he, -⟩ := kind_ok_iff.mp h
    exact absurd he (hnone id e)

lemma set (ht : m.Tidy) (h : m.set id a v = .ok (old, m')) : m'.Tidy := by
  refine ⟨?_, ?_, ?_, ?_, ?_⟩
  · intro i e he b
    rw [entity_set h] at he
    obtain ⟨e', he', rfl⟩ := Except.map_eq_ok.mp he
    have hsome := ht.supported i e' he'
    by_cases hi : i = id
    · subst hi
      obtain ⟨e'', he'', hold, -⟩ := set_ok h
      obtain rfl : e' = e'' := Except.ok.inj (he'.symm.trans (entity_ok_iff.mpr he''))
      rw [if_pos rfl, Entity.value?_setValue hold]
      by_cases hb : b = a
      · rw [if_pos hb, hb]
        exact (congrArg Option.isSome hold).symm.trans (hsome a)
      · rw [if_neg hb]
        exact hsome b
    · rw [if_neg hi]
      exact hsome b
  · intro i e he
    obtain ⟨e', he', hchildren⟩ := children_ok_iff.mp ((children_set h i).symm.trans (children_of_entity he))
    rw [← hchildren]
    exact ht.nodup i e' he'
  · intro i e he c
    obtain ⟨e', he', hchildren⟩ := children_ok_iff.mp ((children_set h i).symm.trans (children_of_entity he))
    rw [← hchildren, container_set h]
    exact ht.below i e' he' c
  · intro i parent hp
    rw [container_set h] at hp
    rw [kind_set h]
    exact ht.above i parent hp
  · intro i k hk
    rw [kind_set h] at hk
    rw [container_set h]
    exact ht.root i k hk

variable [Number ν] {kind : EntityKind} {container : Option EntityId}

lemma insert (ht : m.Tidy) (h : m.insert kind container = .ok (id, m')) : m'.Tidy := by
  have hfresh (e : Entity ν) : m.entity id ≠ .ok e := fun he => entity_ne_fresh h he rfl
  have hchild (i : EntityId) : m.container i ≠ .ok (some id) := by
    intro hc
    obtain ⟨e, he, -⟩ := kind_ok_iff.mp (ht.above i id hc)
    exact hfresh e he
  have hplace := checkPlacement_ok (insert_ok h).1
  have hparent : ∀ parent, container = some parent → parent ≠ id ∧ m.kind parent = .ok .damperSystem := by
    rintro parent rfl
    rcases hplace with ⟨-, ⟨⟩⟩ | ⟨-, _, ⟨⟩, hk⟩
    obtain ⟨e, he, -⟩ := kind_ok_iff.mp hk
    exact ⟨fun hp => hfresh e (hp ▸ he), hk⟩
  refine ⟨?_, ?_, ?_, ?_, ?_⟩
  · intro i e he b
    rcases entity_insert_ok h he with ⟨-, rfl⟩ | ⟨-, e', he', rfl⟩
    · cases kind <;> cases b <;> rfl
    · have hsome := ht.supported i e' he' b
      split <;> exact hsome
  · intro i e he
    rcases entity_insert_ok h he with ⟨-, rfl⟩ | ⟨-, e', he', rfl⟩
    · exact List.nodup_nil
    · split
      · refine List.nodup_append.mpr ⟨ht.nodup i e' he', List.nodup_singleton id, ?_⟩
        rintro c hc _ hid rfl
        obtain ⟨e'', he'', -⟩ := container_ok_iff.mp ((ht.below i e' he' c).mp hc)
        exact hfresh e'' (List.mem_singleton.mp hid ▸ he'')
      · exact ht.nodup i e' he'
  · intro i e he c
    rw [container_insert h]
    rcases entity_insert_ok h he with ⟨rfl, rfl⟩ | ⟨hi, e', he', rfl⟩
    · refine ⟨nofun, fun hc => ?_⟩
      split at hc
      · exact absurd rfl (hparent i (Except.ok.inj hc)).1
      · exact absurd hc (hchild c)
    · have hold := ht.below i e' he' c
      have hnot : c = id → c ∉ e'.children := by
        rintro rfl hc
        obtain ⟨e'', he'', -⟩ := container_ok_iff.mp (hold.mp hc)
        exact hfresh e'' he''
      by_cases hc : c = id
      · rw [if_pos hc]
        by_cases hcontainer : container = some i
        · rw [if_pos hcontainer, hcontainer]
          exact ⟨fun _ => rfl, fun _ => List.mem_append_right _ (List.mem_singleton.mpr hc)⟩
        · rw [if_neg hcontainer]
          exact ⟨fun hmem => absurd hmem (hnot hc), fun he => absurd (Except.ok.inj he) hcontainer⟩
      · rw [if_neg hc, ← hold]
        split
        · simp [addChild, hc]
        · rfl
  · intro i parent hp
    rw [container_insert h] at hp
    have hkind : parent ≠ id ∧ m.kind parent = .ok .damperSystem := by
      split at hp
      · exact hparent parent (Except.ok.inj hp)
      · refine ⟨fun he => hchild i (he ▸ hp), ht.above i parent hp⟩
    rw [kind_insert h, if_neg hkind.1]
    exact hkind.2
  · intro i k hk
    rw [kind_insert h] at hk
    rw [container_insert h]
    split at hk
    · obtain rfl := Except.ok.inj hk
      rw [if_pos ‹_›]
      rcases hplace with ⟨rfl, rfl⟩ | ⟨hne, parent, rfl, -⟩
      · exact ⟨fun _ => rfl, fun _ => rfl⟩
      · refine ⟨fun he => ?_, fun he => absurd he hne⟩
        cases he
    · rw [if_neg ‹_›]
      exact ht.root i k hk

omit [Number ν]

lemma supports_of_get (ht : m.Tidy) (h : m.get id a = .ok v) : ∃ k, m.kind id = .ok k ∧ k.supports a = true := by
  obtain ⟨e, he, hv⟩ := get_ok_iff.mp h
  have he := entity_ok_iff.mpr he
  refine ⟨e.kind, kind_of_entity he, ?_⟩
  rw [← ht.supported id e he, hv]
  rfl

lemma get_of_supports (ht : m.Tidy) {k : EntityKind} (hk : m.kind id = .ok k) (ha : k.supports a = true) :
    ∃ v, m.get id a = .ok v := by
  obtain ⟨e, he, rfl⟩ := kind_ok_iff.mp hk
  rw [← ht.supported id e he] at ha
  obtain ⟨v, hv⟩ := Option.isSome_iff_exists.mp ha
  exact ⟨v, get_ok_iff.mpr ⟨e, entity_ok_iff.mp he, hv⟩⟩

lemma container_of_rootOf (ht : m.Tidy) {system : EntityId} (h : m.rootOf id = .ok system) :
    m.container id = .ok (some system) ∨ m.container id = .ok none ∧ system = id := by
  rw [rootOf, rootWithin] at h
  obtain ⟨o, ho, h⟩ := exists_of_bind_ok h
  cases o with
  | none =>
    cases h
    exact .inr ⟨ho, rfl⟩
  | some parent =>
    dsimp only at h
    have hroot : m.container parent = .ok none := (ht.root parent _ (ht.above id parent ho)).mpr rfl
    cases hn : m.size with
    | zero =>
      rw [hn] at h
      cases h
    | succ n =>
      rw [hn, rootWithin, hroot] at h
      cases h
      exact .inl ho

lemma container_of_get (ht : m.Tidy) {system : EntityId} (h : m.rootOf id = .ok system) (hv : m.get id a = .ok v)
    (ha : a.isDerived = false) : m.container id = .ok (some system) := by
  rcases ht.container_of_rootOf h with hc | ⟨hc, -⟩
  · exact hc
  · obtain ⟨k, hk, hs⟩ := ht.supports_of_get hv
    obtain rfl := (ht.root id k hk).mp hc
    rw [EntityKind.supports_damperSystem, ha] at hs
    cases hs

end Tidy

end Registry

end Uncertainty
