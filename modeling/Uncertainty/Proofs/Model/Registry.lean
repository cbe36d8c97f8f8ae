import Mathlib.Tactic.Lemma
import Uncertainty.Model.Registry

namespace Uncertainty

variable {ν : Type}

lemma Entity.value?_setValue {e : Entity ν} {a : Attribute} {old : ν} (h : e.value? a = some old) (v : ν)
    (b : Attribute) : (e.setValue a v).value? b = if b = a then some v else e.value? b := by
  obtain ⟨kind, container, children, values⟩ := e
  change (values.map _).lookup b = if b = a then some v else values.lookup b
  change values.lookup a = some old at h
  induction values with
  | nil => cases h
  | cons entry values ih =>
    obtain ⟨c, w⟩ := entry
    by_cases hc : c = a
    · subst hc
      by_cases hb : b = c
      · simp [hb]
      · have hne : (b == c) = false := by simpa using hb
        have hl : ∀ vs : List (Attribute × ν),
            (vs.map fun entry => if entry.1 = c then (c, v) else entry).lookup b = vs.lookup b := by
          intro vs
          induction vs with
          | nil => rfl
          | cons entry vs ih =>
            obtain ⟨d, u⟩ := entry
            by_cases hd : d = c
            · simp [hd, List.lookup_cons, hne, ih]
            · simp [hd, List.lookup_cons, ih]
        simp [hb, List.lookup_cons, hne, hl]
    · have hne : (a == c) = false := by simpa using Ne.symm hc
      rw [List.lookup_cons, hne] at h
      by_cases hb : b = c
      · subst hb
        simp [hc]
      · have hbc : (b == c) = false := by simpa using hb
        simpa [hc, List.lookup_cons, hbc] using ih h

lemma Entity.setValue_setValue (e : Entity ν) (a : Attribute) (v w : ν) :
    (e.setValue a v).setValue a w = e.setValue a w := by
  refine congrArg (Entity.mk e.kind e.container e.children) ?_
  simp only [setValue, List.map_map]
  refine List.map_congr_left fun entry _ => ?_
  by_cases h : entry.1 = a <;> simp [h]

namespace Registry

variable {m m' : Registry ν} {id : EntityId} {a : Attribute} {v old : ν}

lemma index_injective {i j : EntityId} (h : i.index.toNat = j.index.toNat) : i = j := by
  obtain ⟨i⟩ := i
  obtain ⟨j⟩ := j
  exact congrArg EntityId.mk (UInt32.toNat_inj.mp h)

lemma get_congr {i : EntityId} (h : m'.entities[i.index.toNat]? = m.entities[i.index.toNat]?) (b : Attribute) :
    m'.get i b = m.get i b := by
  rw [get, get, entity, entity, h]

lemma set_ok (h : m.set id a v = .ok (old, m')) :
    ∃ e, m.entities[id.index.toNat]? = some e ∧ e.value? a = some old ∧
      m' = ⟨m.entities.setIfInBounds id.index.toNat (e.setValue a v)⟩ := by
  rw [set, entity] at h
  cases he : m.entities[id.index.toNat]? with
  | none =>
    rw [he] at h
    cases h
  | some e =>
    rw [he] at h
    dsimp only [bind, Except.bind] at h
    cases hv : e.value? a with
    | none =>
      rw [hv] at h
      cases h
    | some w =>
      rw [hv] at h
      cases h
      exact ⟨e, rfl, hv, rfl⟩

lemma get_set (h : m.set id a v = .ok (old, m')) (i : EntityId) (b : Attribute) :
    m'.get i b = if i = id ∧ b = a then .ok v else m.get i b := by
  obtain ⟨e, he, hv, rfl⟩ := set_ok h
  by_cases hi : i = id
  · subst hi
    obtain ⟨hlt, -⟩ := Array.getElem?_eq_some_iff.mp he
    have hn : (m.entities.setIfInBounds i.index.toNat (e.setValue a v))[i.index.toNat]? = some (e.setValue a v) := by
      simp [hlt]
    rw [get, get, entity, entity, hn, he]
    dsimp only [bind, Except.bind]
    rw [Entity.value?_setValue hv]
    by_cases hb : b = a
    · rw [if_pos hb, if_pos ⟨rfl, hb⟩]
      rfl
    · rw [if_neg hb, if_neg fun h => hb h.2]
      rfl
  · have hne : id.index.toNat ≠ i.index.toNat := fun hn => hi (index_injective hn.symm)
    rw [if_neg fun hb => hi hb.1]
    exact get_congr (Array.getElem?_setIfInBounds_ne hne) b

lemma get_set_self (h : m.set id a v = .ok (old, m')) : m'.get id a = .ok v := by
  rw [get_set h, if_pos ⟨rfl, rfl⟩]

lemma get_set_ne (h : m.set id a v = .ok (old, m')) {i : EntityId} {b : Attribute} (hne : ¬ (i = id ∧ b = a)) :
    m'.get i b = m.get i b := by
  rw [get_set h, if_neg hne]

lemma get_ok_iff : m.get id a = .ok v ↔ ∃ e, m.entities[id.index.toNat]? = some e ∧ e.value? a = some v := by
  rw [get, entity]
  cases m.entities[id.index.toNat]? with
  | none =>
    constructor
    · intro h
      cases h
    · rintro ⟨e, he, -⟩
      cases he
  | some e =>
    dsimp only [bind, Except.bind]
    cases hv : e.value? a with
    | none =>
      constructor
      · intro h
        cases h
      · rintro ⟨f, hf, hw⟩
        cases hf
        cases hv.symm.trans hw
    | some w =>
      constructor
      · intro h
        cases h
        exact ⟨e, rfl, hv⟩
      · rintro ⟨f, hf, hw⟩
        cases hf
        cases hv.symm.trans hw
        rfl

lemma get_of_set (h : m.set id a v = .ok (old, m')) : m.get id a = .ok old := by
  obtain ⟨e, he, hold, -⟩ := set_ok h
  exact get_ok_iff.mpr ⟨e, he, hold⟩

lemma set_of_get (h : m.get id a = .ok old) (v : ν) : ∃ m', m.set id a v = .ok (old, m') := by
  obtain ⟨e, he, hold⟩ := get_ok_iff.mp h
  refine ⟨⟨m.entities.setIfInBounds id.index.toNat (e.setValue a v)⟩, ?_⟩
  rw [set, entity, he]
  dsimp only [bind, Except.bind]
  rw [hold]
  rfl

lemma set_set (h : m.set id a v = .ok (old, m')) : m'.set id a v = .ok (v, m') := by
  obtain ⟨m'', hset⟩ := set_of_get (get_set_self h) v
  obtain ⟨e, he, -, rfl⟩ := set_ok h
  obtain ⟨e', he', -, rfl⟩ := set_ok hset
  obtain ⟨hlt, -⟩ := Array.getElem?_eq_some_iff.mp he
  rw [Array.getElem?_setIfInBounds_self_of_lt hlt] at he'
  cases he'
  rw [hset]
  simp only [Entity.setValue_setValue, Array.setIfInBounds_setIfInBounds]

lemma set_error_iff {e : ModelError} : m.set id a v = .error e ↔ m.get id a = .error e := by
  rw [set, get]
  cases m.entity id with
  | error f =>
    exact (Except.error.injEq f e).to_iff.trans (Except.error.injEq f e).symm.to_iff
  | ok f =>
    dsimp only [bind, Except.bind]
    cases f.value? a with
    | some w => exact iff_of_false nofun nofun
    | none =>
      constructor
      · rintro ⟨⟩
        rfl
      · rintro ⟨⟩
        rfl

lemma get_insert [Number ν] {kind : EntityKind} {container : Option EntityId}
    (h : m.insert kind container = .ok (id, m')) {i : EntityId} {b : Attribute} (hv : m.get i b = .ok v) :
    m'.get i b = .ok v := by
  obtain ⟨e, he, hvalue⟩ := get_ok_iff.mp hv
  have hpush : (m.entities.push (Entity.new kind container))[i.index.toNat]? = some e := by
    rw [Array.getElem?_push, if_neg, he]
    obtain ⟨hlt, -⟩ := Array.getElem?_eq_some_iff.mp he
    omega
  rw [insert] at h
  cases hc : m.checkPlacement kind container with
  | error f =>
    rw [hc] at h
    cases h
  | ok u =>
    rw [hc] at h
    change (if m.size < UInt32.size then _ else _) = _ at h
    by_cases hs : m.size < UInt32.size
    · rw [if_pos hs] at h
      cases container with
      | none =>
        cases h
        exact get_ok_iff.mpr ⟨e, hpush, hvalue⟩
      | some parent =>
        cases h
        refine get_ok_iff.mpr ?_
        change ∃ f, (Array.modify _ _ _)[_]? = some f ∧ _
        rw [Array.getElem?_modify, hpush]
        by_cases hp : parent.index.toNat = i.index.toNat
        · exact ⟨_, if_pos hp, hvalue⟩
        · exact ⟨e, if_neg hp, hvalue⟩
    · rw [if_neg hs] at h
      cases h

end Registry

end Uncertainty
