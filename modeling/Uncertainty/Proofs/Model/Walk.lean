import Uncertainty.Model.Walk
import Uncertainty.Proofs.Model.Ratio

namespace Uncertainty

variable {ν : Type}

namespace Registry

variable {m : Registry ν} {a : Attribute} {ids order order' : List EntityId} {id root : EntityId}

section Building

variable [Number ν]

lemma perform_cases (m : Registry ν) (call : ModelCall ν) : call.perform m = m ∨
    (∃ kind container id, m.insert kind container = .ok (id, call.perform m)) ∨
      ∃ id a v old, call = .set id a v ∧ m.set id a v = .ok (old, call.perform m) := by
  cases call with
  | insert kind container =>
    rw [ModelCall.perform]
    cases hm : m.insert kind container with
    | error e => exact .inl rfl
    | ok x => exact .inr (.inl ⟨kind, container, x.1, hm⟩)
  | set id a v =>
    rw [ModelCall.perform]
    cases hm : m.set id a v with
    | error e => exact .inl rfl
    | ok x => exact .inr (.inr ⟨id, a, v, x.1, rfl, hm⟩)

lemma Tidy.perform (ht : m.Tidy) (call : ModelCall ν) : (call.perform m).Tidy := by
  rcases m.perform_cases call with hsame | ⟨_, _, _, hinsert⟩ | ⟨_, _, _, _, -, hset⟩
  · rwa [hsame]
  · exact ht.insert hinsert
  · exact ht.set hset

lemma Tidy.performAll (ht : m.Tidy) (calls : List (ModelCall ν)) : (ModelCall.performAll calls m).Tidy := by
  induction calls generalizing m with
  | nil => exact ht
  | cons call calls ih => exact ih (ht.perform call)

end Building

lemma firstAnswer_cons_eq_ok {ask : EntityId → Except ModelError (Option EntityId)} {o : Option EntityId} :
    firstAnswer ask (id :: ids) = .ok o ↔ ∃ answer, ask id = .ok answer ∧
      (∀ found, answer = some found → o = some found) ∧ (answer = none → firstAnswer ask ids = .ok o) := by
  rw [firstAnswer]
  constructor
  · intro h
    obtain ⟨answer, hanswer, h⟩ := exists_of_bind_ok h
    refine ⟨answer, hanswer, ?_, ?_⟩
    · rintro found rfl
      exact (Except.ok.inj h).symm
    · rintro rfl
      exact h
  · rintro ⟨answer, hanswer, hsome, hnone⟩
    rw [hanswer]
    cases answer with
    | none => exact hnone rfl
    | some found => exact congrArg Except.ok (hsome found rfl).symm

namespace Walk

lemma unique (h : m.Walk ids order) (h' : m.Walk ids order') : order' = order := by
  induction h generalizing order' with
  | done =>
    cases h'
    rfl
  | visit hchildren _ _ ihbelow ihafter =>
    cases h' with
    | visit hchildren' hbelow' hafter' =>
      cases hchildren.symm.trans hchildren'
      rw [ihbelow hbelow', ihafter hafter']

lemma find?_of_firstAnswer (h : m.Walk ids order) {levels : Nat} {o : Option EntityId}
    (hfound : firstAnswer (m.holderWithin a levels) ids = .ok o) : order.find? (m.supports · a) = o := by
  induction h generalizing levels o with
  | done => exact Except.ok.inj hfound
  | @visit id children below rest after hchildren _ _ ihbelow ihafter =>
    obtain ⟨answer, hanswer, hsome, hnone⟩ := firstAnswer_cons_eq_ok.mp hfound
    cases levels with
    | zero => cases hanswer
    | succ levels =>
      rw [holderWithin_succ, hchildren] at hanswer
      obtain ⟨kind, hkind, hanswer⟩ := exists_of_bind_ok hanswer
      dsimp only [bind, Except.bind] at hanswer
      have hsupports : m.supports id a = kind.supports a := by rw [supports, hkind]
      rw [List.cons_append, List.find?_cons, hsupports]
      cases hs : kind.supports a with
      | true =>
        rw [hs] at hanswer
        cases hanswer
        exact (hsome id rfl).symm
      | false =>
        rw [hs] at hanswer
        rw [List.find?_append, ihbelow hanswer]
        cases answer with
        | none => exact ihafter (hnone rfl)
        | some found => exact (hsome found rfl).symm

lemma find?_of_findHolder (h : m.Walk [root] order) {o : Option EntityId} (hfound : m.findHolder root a = .ok o) :
    order.find? (m.supports · a) = o := by
  refine h.find?_of_firstAnswer (firstAnswer_cons_eq_ok.mpr ⟨o, hfound, fun _ => id, ?_⟩)
  rintro rfl
  rfl

lemma of_leaves (h : ∀ id ∈ ids, m.children id = .ok []) : m.Walk ids ids := by
  induction ids with
  | nil => exact .done
  | cons id ids ih =>
    obtain ⟨hid, hids⟩ := List.forall_mem_cons.mp h
    exact .visit hid .done (ih hids)

end Walk

lemma Tidy.walk (ht : m.Tidy) {cs : List EntityId} (hcs : m.children id = .ok cs) : m.Walk [id] (id :: cs) := by
  have hleaves : m.Walk cs cs := .of_leaves fun c hc => ht.children_of_child (ht.container_of_child hcs hc)
  simpa using Walk.visit hcs hleaves .done

lemma Tidy.exists_walk (ht : m.Tidy) {kind : EntityKind} (hk : m.kind root = .ok kind) :
    ∃ order, m.Walk [root] order := by
  obtain ⟨cs, hcs⟩ := exists_children hk
  exact ⟨root :: cs, ht.walk hcs⟩

lemma kind_of_findHolder {o : Option EntityId} (h : m.findHolder root a = .ok o) : ∃ kind, m.kind root = .ok kind := by
  rw [findHolder, holderWithin_succ] at h
  obtain ⟨kind, hkind, -⟩ := exists_of_bind_ok h
  exact ⟨kind, hkind⟩

end Registry

end Uncertainty
