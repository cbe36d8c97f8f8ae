import Mathlib.Data.List.Nodup
import Mathlib.Data.List.Perm.Subperm
import Uncertainty.Model.Search
import Uncertainty.Proofs.Model.Walk

/-! The bound of the walks through a model is exact: they give up where the loops without a bound go on for ever, and
have the same answers where those come to an end. -/

namespace Uncertainty

section Loops

variable {σ α : Type} {turn : σ → α ⊕ σ} {s : σ} {x y : α} {n k : Nat}

lemma EndsAfter.unique (h : EndsAfter turn n s x) (h' : EndsAfter turn k s y) : k = n ∧ y = x := by
  induction h generalizing k with
  | now hs =>
    cases h' with
    | now hs' => exact ⟨rfl, Sum.inl.inj (hs'.symm.trans hs)⟩
    | later hs' _ => cases hs'.symm.trans hs
  | later hs _ ih =>
    cases h' with
    | now hs' => cases hs'.symm.trans hs
    | later hs' h' =>
      cases hs'.symm.trans hs
      exact ⟨congrArg (· + 1) (ih h').1, (ih h').2⟩

lemma EndsWith.now (h : turn s = .inl x) : EndsWith turn s x := ⟨0, .now h⟩

lemma EndsWith.later {t : σ} (hs : turn s = .inr t) (h : EndsWith turn t x) : EndsWith turn s x := by
  obtain ⟨n, h⟩ := h
  exact ⟨n + 1, .later hs h⟩

end Loops

namespace Registry

variable {ν : Type} {m : Registry ν} {a : Attribute} {id : EntityId} {e : Entity ν} {n k levels : Nat}

section Failures

lemma entity_eq_error {f : ModelError} (h : m.entity id = .error f) : f = .entityNotFound id := by
  rw [entity] at h
  split at h
  · cases h
  · exact (Except.error.inj h).symm

lemma not_givesUp_of_entity {α : Type} {f : ModelError} (h : m.entity id = .error f) :
    ¬ GivesUp (.error f : Except ModelError α) := by
  rintro ⟨i, hi⟩
  cases (Except.error.inj hi).symm.trans (entity_eq_error h)

lemma not_givesUp_ok {α : Type} {x : α} : ¬ GivesUp (.ok x : Except ModelError α) := nofun

lemma container_eq_error {f : ModelError} (h : m.container id = .error f) : m.entity id = .error f := by
  rw [container] at h
  cases he : m.entity id with
  | ok e =>
    rw [he] at h
    cases h
  | error g =>
    rw [he] at h
    exact congrArg Except.error (Except.error.inj h)

end Failures

section Bound

lemma length_le_size {ids : List EntityId} (hn : ids.Nodup) (h : ∀ i ∈ ids, ∃ e, m.entity i = .ok e) :
    ids.length ≤ m.size := by
  have hsub : ids.map (·.index.toNat) ⊆ List.range m.size := by
    intro n hmem
    obtain ⟨i, hi, rfl⟩ := List.mem_map.mp hmem
    obtain ⟨e, he⟩ := h i hi
    exact List.mem_range.mpr (lt_size_of_entity he)
  have hnodup : (ids.map (·.index.toNat)).Nodup := hn.map fun _ _ => index_injective
  simpa using (hnodup.subperm hsub).length_le

/-- The entities that a walk has come through before it has `n` more turns to take: it takes longer from each of them,
so that no two are the same. -/
structure Above {σ α : Type} (m : Registry ν) (turn : σ → α ⊕ σ) (start : EntityId → σ) (n : Nat)
    (above : List EntityId) : Prop where
  nodup : above.Nodup
  known : ∀ i ∈ above, ∃ e, m.entity i = .ok e
  longer : ∀ i ∈ above, ∃ k x, n < k ∧ EndsAfter turn k (start i) x

namespace Above

variable {σ α : Type} {turn : σ → α ⊕ σ} {start : EntityId → σ} {above : List EntityId} {x : α}

lemma nil : m.Above turn start n [] := ⟨List.nodup_nil, nofun, nofun⟩

lemma cons (h : m.Above turn start n above) (he : m.entity id = .ok e)
    (hid : EndsAfter turn n (start id) x) (hk : k < n) : m.Above turn start k (id :: above) := by
  refine ⟨List.nodup_cons.mpr ⟨fun hmem => ?_, h.nodup⟩, ?_, ?_⟩
  · obtain ⟨l, y, hl, hlong⟩ := h.longer id hmem
    exact absurd (hid.unique hlong).1 (Nat.ne_of_gt hl)
  · exact List.forall_mem_cons.mpr ⟨⟨e, he⟩, h.known⟩
  · refine List.forall_mem_cons.mpr ⟨⟨n, x, hk, hid⟩, fun i hi => ?_⟩
    obtain ⟨l, y, hl, hlong⟩ := h.longer i hi
    exact ⟨l, y, hk.trans hl, hlong⟩

lemma levels_pos (h : m.Above turn start n above) (hs : m.size < levels + above.length) : levels ≠ 0 := by
  rintro rfl
  have hle := length_le_size h.nodup h.known
  omega

end Above

end Bound

section Climbing

variable {x : Except ModelError EntityId}

lemma rootWithin_of_endsAfter {above : List EntityId} (h : EndsAfter m.climb n id x)
    (habove : m.Above m.climb (fun i => i) n above) (hs : m.size < levels + above.length) :
    m.rootWithin levels id = x ∧ ¬ GivesUp x := by
  obtain ⟨levels, rfl⟩ := Nat.exists_eq_add_one_of_ne_zero (habove.levels_pos hs)
  induction h generalizing above levels with
  | @now id x hid =>
    rw [climb] at hid
    rw [rootWithin]
    cases hc : m.container id with
    | error f =>
      rw [hc] at hid
      cases hid
      exact ⟨rfl, not_givesUp_of_entity (container_eq_error hc)⟩
    | ok o =>
      rw [hc] at hid
      cases o <;> cases hid
      exact ⟨rfl, not_givesUp_ok⟩
  | @later n id parent x hid h ih =>
    rw [climb] at hid
    rw [rootWithin]
    cases hc : m.container id with
    | error f =>
      rw [hc] at hid
      cases hid
    | ok o =>
      rw [hc] at hid
      cases o with
      | none => cases hid
      | some p =>
        cases hid
        obtain ⟨e, he, -⟩ := container_ok_iff.mp hc
        have hnext : m.Above m.climb (fun i => i) n (id :: above) :=
          habove.cons he (.later (by rw [climb, hc]) h) (Nat.lt_succ_self n)
        have hlevels : m.size < levels + (id :: above).length := by
          rw [List.length_cons]
          omega
        obtain ⟨levels, rfl⟩ := Nat.exists_eq_add_one_of_ne_zero (hnext.levels_pos hlevels)
        exact ih hnext levels hlevels

lemma endsWith_of_rootWithin (h : m.rootWithin levels id = x) (hx : ¬ GivesUp x) : EndsWith m.climb id x := by
  induction levels generalizing id with
  | zero => exact absurd ⟨id, h.symm⟩ hx
  | succ levels ih =>
    rw [rootWithin] at h
    cases hc : m.container id with
    | error f =>
      rw [hc] at h
      exact .now (by rw [climb, hc, ← h]; rfl)
    | ok o =>
      rw [hc] at h
      cases o with
      | none => exact .now (by rw [climb, hc, ← h]; rfl)
      | some parent => exact .later (by rw [climb, hc]) (ih h)

lemma endsWith_climb_iff : EndsWith m.climb id x ↔ m.rootOf id = x ∧ ¬ GivesUp x := by
  constructor
  · rintro ⟨n, h⟩
    exact rootWithin_of_endsAfter h .nil (Nat.lt_succ_self m.size)
  · rintro ⟨h, hx⟩
    exact endsWith_of_rootWithin h hx

end Climbing

section Searching

variable {ids pending : List EntityId} {x y : Except ModelError (Option EntityId)}

lemma look_cons_ne (id : EntityId) (pending : List EntityId) : m.look a (id :: pending) ≠ .inl (.ok none) := by
  rw [look]
  split
  · split <;> nofun
  · nofun

lemma look_append (id : EntityId) (ids pending : List EntityId) :
    m.look a (id :: ids ++ pending) = (m.look a (id :: ids)).map (fun x => x) (· ++ pending) := by
  rw [List.cons_append, look, look]
  cases m.entity id with
  | error f => rfl
  | ok e =>
    dsimp only
    split
    · rfl
    · exact congrArg Sum.inr (List.append_assoc _ _ _).symm

lemma exists_of_endsAfter_append (h : EndsAfter (m.look a) n (ids ++ pending) x) :
    ∃ k ≤ n, ∃ y, EndsAfter (m.look a) k ids y ∧
      (y = .ok none → ∃ l ≤ n, EndsAfter (m.look a) l pending x) ∧ (y ≠ .ok none → x = y) := by
  generalize hs : ids ++ pending = s at h
  induction h generalizing ids with
  | @now s x hx =>
    cases ids with
    | nil =>
      obtain rfl : pending = s := hs
      exact ⟨0, le_rfl, .ok none, .now rfl, fun _ => ⟨0, le_rfl, .now hx⟩, absurd rfl⟩
    | cons id ids =>
      rw [← hs, look_append] at hx
      cases hlook : m.look a (id :: ids) with
      | inr t =>
        rw [hlook] at hx
        cases hx
      | inl y =>
        rw [hlook] at hx
        cases hx
        refine ⟨0, le_rfl, y, .now hlook, ?_, fun _ => rfl⟩
        rintro rfl
        exact absurd hlook (look_cons_ne id ids)
  | @later n s t x ht h ih =>
    cases ids with
    | nil =>
      obtain rfl : pending = s := hs
      exact ⟨0, Nat.zero_le _, .ok none, .now rfl, fun _ => ⟨n + 1, le_rfl, .later ht h⟩, absurd rfl⟩
    | cons id ids =>
      rw [← hs, look_append] at ht
      cases hlook : m.look a (id :: ids) with
      | inl y =>
        rw [hlook] at ht
        cases ht
      | inr t' =>
        rw [hlook] at ht
        obtain ⟨k, hk, y, hy, hnone, hsome⟩ := ih (Sum.inr.inj ht)
        refine ⟨k + 1, Nat.succ_le_succ hk, y, .later hlook hy, fun hy => ?_, hsome⟩
        obtain ⟨l, hl, hpending⟩ := hnone hy
        exact ⟨l, Nat.le_succ_of_le hl, hpending⟩

lemma endsWith_append (h : EndsWith (m.look a) ids y) (hnone : y = .ok none → EndsWith (m.look a) pending x)
    (hsome : y ≠ .ok none → x = y) : EndsWith (m.look a) (ids ++ pending) x := by
  obtain ⟨n, h⟩ := h
  induction h with
  | @now s y hy =>
    cases s with
    | nil =>
      cases hy
      exact hnone rfl
    | cons id ids =>
      have hne : y ≠ .ok none := by
        rintro rfl
        exact look_cons_ne id ids hy
      exact .now (by rw [look_append, hy, hsome hne]; rfl)
  | @later n s t y ht h ih =>
    cases s with
    | nil => cases ht
    | cons id ids => exact .later (by rw [look_append, ht]; rfl) (ih hnone hsome)

lemma firstAnswer_of_endsAfter {ask : EntityId → Except ModelError (Option EntityId)}
    (hask : ∀ i k y, k ≤ n → EndsAfter (m.look a) k [i] y → ask i = y ∧ ¬ GivesUp y)
    (h : EndsAfter (m.look a) k ids x) (hk : k ≤ n) : firstAnswer ask ids = x ∧ ¬ GivesUp x := by
  induction ids generalizing k with
  | nil =>
    cases h with
    | now h =>
      cases h
      exact ⟨rfl, not_givesUp_ok⟩
    | later h _ => cases h
  | cons i ids ih =>
    have hsplit : EndsAfter (m.look a) k ([i] ++ ids) x := h
    obtain ⟨l, hl, y, hy, hnone, hsome⟩ := exists_of_endsAfter_append hsplit
    obtain ⟨hi, hgives⟩ := hask i l y (hl.trans hk) hy
    rw [firstAnswer, hi]
    rcases y with f | _ | found
    · rw [hsome (by simp)]
      exact ⟨rfl, hgives⟩
    · obtain ⟨l', hl', hrest⟩ := hnone rfl
      exact ih hrest (hl'.trans hk)
    · rw [hsome (by simp)]
      exact ⟨rfl, hgives⟩

lemma look_singleton (he : m.entity id = .ok e) :
    m.look a [id] = if e.kind.supports a then .inl (.ok (some id)) else .inr e.children := by
  rw [look, he]
  simp

lemma holderWithin_of_endsAfter {above : List EntityId} (h : EndsAfter (m.look a) n [id] x)
    (habove : m.Above (m.look a) (fun i => [i]) n above) (hs : m.size < levels + above.length) :
    m.holderWithin a levels id = x ∧ ¬ GivesUp x := by
  induction levels generalizing id n above x with
  | zero => exact absurd rfl (habove.levels_pos hs)
  | succ levels ih =>
    rw [holderWithin]
    cases he : m.entity id with
    | error f =>
      have hlook : m.look a [id] = .inl (.error f) := by rw [look, he]
      obtain ⟨-, rfl⟩ := (EndsAfter.now hlook).unique h
      exact ⟨rfl, not_givesUp_of_entity he⟩
    | ok e =>
      have hlook := look_singleton (a := a) he
      dsimp only [bind, Except.bind]
      by_cases hsupports : e.kind.supports a = true
      · rw [if_pos hsupports] at hlook
        obtain ⟨-, rfl⟩ := (EndsAfter.now hlook).unique h
        rw [if_pos hsupports]
        exact ⟨rfl, not_givesUp_ok⟩
      · rw [if_neg hsupports] at hlook
        rw [if_neg hsupports]
        cases h with
        | now hx => cases hlook.symm.trans hx
        | @later n _ _ _ ht hchildren =>
          obtain rfl := Sum.inr.inj (hlook.symm.trans ht)
          refine firstAnswer_of_endsAfter (fun i k y hk hi => ?_) hchildren le_rfl
          apply ih hi (habove.cons he (.later ht hchildren) (Nat.lt_succ_of_le hk))
          rw [List.length_cons]
          omega

lemma endsWith_of_firstAnswer {ask : EntityId → Except ModelError (Option EntityId)}
    (hask : ∀ i y, ask i = y → ¬ GivesUp y → EndsWith (m.look a) [i] y) (h : firstAnswer ask ids = x)
    (hx : ¬ GivesUp x) : EndsWith (m.look a) ids x := by
  induction ids with
  | nil => exact .now (congrArg Sum.inl h)
  | cons i ids ih =>
    rw [firstAnswer] at h
    change EndsWith (m.look a) ([i] ++ ids) x
    cases hi : ask i with
    | error f =>
      rw [hi] at h
      obtain rfl : .error f = x := h
      exact endsWith_append (hask i _ hi hx) (by simp) fun _ => rfl
    | ok o =>
      rw [hi] at h
      have hends := hask i _ hi not_givesUp_ok
      cases o with
      | none => exact endsWith_append hends (fun _ => ih h) (absurd rfl)
      | some found => exact endsWith_append hends (by simp) fun _ => h.symm

lemma endsWith_of_holderWithin (h : m.holderWithin a levels id = x) (hx : ¬ GivesUp x) :
    EndsWith (m.look a) [id] x := by
  induction levels generalizing id x with
  | zero => exact absurd ⟨id, h.symm⟩ hx
  | succ levels ih =>
    rw [holderWithin] at h
    cases he : m.entity id with
    | error f =>
      rw [he] at h
      exact .now (by rw [look, he, ← h]; rfl)
    | ok e =>
      rw [he] at h
      dsimp only [bind, Except.bind] at h
      have hlook := look_singleton (a := a) he
      split at h
      · rw [if_pos ‹_›] at hlook
        exact .now (hlook.trans (congrArg Sum.inl h))
      · rw [if_neg ‹_›] at hlook
        exact .later hlook (endsWith_of_firstAnswer (fun i y hi hy => ih hi hy) h hx)

lemma endsWith_look_iff {root : EntityId} : EndsWith (m.look a) [root] x ↔ m.findHolder root a = x ∧ ¬ GivesUp x := by
  constructor
  · rintro ⟨n, h⟩
    exact holderWithin_of_endsAfter h .nil (Nat.lt_succ_self m.size)
  · rintro ⟨h, hx⟩
    exact endsWith_of_holderWithin h hx

end Searching

end Registry

end Uncertainty
