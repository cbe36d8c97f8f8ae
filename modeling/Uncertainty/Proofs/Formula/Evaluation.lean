import Mathlib.Data.List.Forall2
import Uncertainty.Formula.Meaning
import Uncertainty.Formula.Printing
import Uncertainty.Proofs.Attempt
import Uncertainty.Proofs.Formula.Variables

namespace Uncertainty

open Formula Token

/-- Induction over formulas in which a chain and a list of arguments speak of each of their members. -/
@[elab_as_elim]
lemma Formula.memInduction {ν : Type} {P : Formula ν → Prop} (number : ∀ v, P (.number v))
    (named : ∀ name position, P (.named name position)) (negation : ∀ operand, P operand → P (.negation operand))
    (chain : ∀ head tail, P head → (∀ step ∈ tail, P step.2) → P (.chain head tail))
    (normal : ∀ mu sigma position, P mu → P sigma → P (.normal mu sigma position))
    (sampled : ∀ values position, (∀ value ∈ values, P value) → P (.sampled values position)) : ∀ f, P f
  | .number v => number v
  | .named name position => named name position
  | .negation operand => negation operand (memInduction number named negation chain normal sampled operand)
  | .chain head tail =>
    chain head tail (memInduction number named negation chain normal sampled head) fun step hstep => by
      have hlt : sizeOf step < sizeOf tail := List.sizeOf_lt_of_mem hstep
      exact memInduction number named negation chain normal sampled step.2
  | .normal mu sigma position =>
    normal mu sigma position (memInduction number named negation chain normal sampled mu)
      (memInduction number named negation chain normal sampled sigma)
  | .sampled values position =>
    sampled values position fun value hvalue => by
      have hlt : sizeOf value < sizeOf values := List.sizeOf_lt_of_mem hvalue
      exact memInduction number named negation chain normal sampled value
termination_by f => sizeOf f
decreasing_by
  all_goals simp_wf
  all_goals try omega
  · obtain ⟨op, operand⟩ := step
    simp at hlt ⊢
    omega

lemma Attribute.isIdentifier_name (a : Attribute) : isIdentifier a.name = true := by
  cases a <;> decide

lemma Environment.get?_bind {ν : Type} (env : Environment ν) (name other : String) (v : Value ν) :
    (env.bind name v).get? other = if other = name then some v else env.get? other := by
  have hrest (h : other ≠ name) (entries : List (String × Value ν)) :
      (entries.filter (·.1 ≠ name)).lookup other = entries.lookup other := by
    induction entries with
    | nil => rfl
    | cons entry entries ih =>
      obtain ⟨key, w⟩ := entry
      by_cases hk : key = name
      · subst hk
        simpa [List.lookup_cons, beq_eq_false_iff_ne.mpr h] using ih
      · rw [List.filter_cons_of_pos (by simpa using hk), List.lookup_cons, List.lookup_cons, ih]
  rw [get?, bind, get?, List.lookup_cons]
  by_cases h : other = name
  · subst h
    simp
  · rw [if_neg h, beq_eq_false_iff_ne.mpr h]
    exact hrest h env.entries

variable {ν : Type}

namespace Environment

def All (P : Expression ν → Prop) (env : Environment ν) : Prop := ∀ name e, env.get? name = some (.expression e) → P e

variable {P Q : Expression ν → Prop} {env : Environment ν}

lemma all_empty : (empty : Environment ν).All P := nofun

lemma All.imp (h : env.All P) (hPQ : ∀ e, P e → Q e) : env.All Q := fun name e he => hPQ e (h name e he)

lemma All.bind (h : env.All P) (name : String) {v : Value ν} (hv : ∀ e, v = .expression e → P e) :
    (env.bind name v).All P := by
  intro other e he
  rw [get?_bind] at he
  split at he
  · exact hv e (Option.some.inj he)
  · exact h other e he

lemma All.bind_scalar (h : env.All P) (name : String) (x : ν) : (env.bind name (.scalar x)).All P :=
  h.bind name (by rintro _ ⟨⟩)

lemma All.bind_expression (h : env.All P) (name : String) {e : Expression ν} (he : P e) :
    (env.bind name (.expression e)).All P :=
  h.bind name (by rintro _ ⟨⟩; exact he)

end Environment

def Value.folded : Value ν → Value ν
  | expression (.literal v) => scalar v
  | v => v

@[simp]
lemma Value.toExpression_folded (v : Value ν) : v.folded.toExpression = v.toExpression := by
  cases v with
  | scalar v => rfl
  | expression e => cases e <;> rfl

variable [Number ν] {env : Environment ν} {u v w : Value ν}

def Value.IsFinite (v : Value ν) : Prop := ∀ x, v.folded = .scalar x → Number.isFinite x = true

lemma Value.combine_cases {op : Operator} (h : v.combine op w = .ok u) :
    (∃ l r, v = .scalar l ∧ w = .scalar r ∧ Number.isFinite (op.apply l r) = true ∧ u = .scalar (op.apply l r)) ∨
      (v.isScalar && w.isScalar) = false ∧ u = .expression (.binary op v.toExpression w.toExpression) := by
  match v, w with
  | .scalar l, .scalar r =>
    rw [combine] at h
    split at h
    · cases h
      exact .inl ⟨l, r, rfl, rfl, ‹_›, rfl⟩
    · cases h
  | .scalar l, .expression r | .expression l, .scalar r | .expression l, .expression r =>
    cases h
    exact .inr ⟨rfl, rfl⟩

lemma Value.exists_combine {op : Operator}
    (h : ∀ l r, v = .scalar l → w = .scalar r → Number.isFinite (op.apply l r) = true) :
    ∃ u, v.combine op w = .ok u := by
  match v, w with
  | .scalar l, .scalar r => exact ⟨_, if_pos (h l r rfl rfl)⟩
  | .scalar l, .expression r | .expression l, .scalar r | .expression l, .expression r => exact ⟨_, rfl⟩

namespace Environment

variable {x : String}

lemma resolve_cases (h : env.resolve x = .ok u) :
    (∃ w, Number.isFinite w = true ∧ u = .scalar w ∧
      (env.get? x = some (.scalar w) ∨ env.get? x = some (.expression (.literal w)))) ∨
      ∃ e, e.literal? = none ∧ u = .expression e ∧ env.get? x = some (.expression e) := by
  have hnumber {w : ν} (hw : resolveNumber x w = .ok u) : Number.isFinite w = true ∧ u = .scalar w := by
    rw [resolveNumber] at hw
    split at hw
    · cases hw
      exact ⟨‹_›, rfl⟩
    · cases hw
  rw [resolve] at h
  split at h
  · cases h
  · obtain ⟨hf, rfl⟩ := hnumber h
    exact .inl ⟨_, hf, rfl, .inl ‹_›⟩
  · obtain ⟨hf, rfl⟩ := hnumber h
    exact .inl ⟨_, hf, rfl, .inr ‹_›⟩
  · rename_i e hne hx
    cases h
    refine .inr ⟨e, ?_, rfl, hx⟩
    cases e with
    | literal v => exact absurd rfl (hne v)
    | _ => rfl

lemma resolve_eq (hx : env.get? x = some v) (hv : v.IsFinite) : env.resolve x = .ok v.folded := by
  rw [resolve, hx]
  cases v with
  | scalar w => exact if_pos (hv w rfl)
  | expression e =>
    cases e with
    | literal w => exact if_pos (hv w rfl)
    | distribution d | binary op l r => rfl

lemma resolve_folded (hx : env.get? x = some v) (h : env.resolve x = .ok u) : u = v.folded := by
  rcases resolve_cases h with ⟨w, -, rfl, hw | hw⟩ | ⟨e, he, rfl, hw⟩ <;> cases hx.symm.trans hw
  · rfl
  · rfl
  · cases e with
    | literal w => cases he
    | _ => rfl

end Environment

namespace Formula

section Operators

variable {operand head : Formula ν} {op : Operator} {tail : List (Operator × Formula ν)}

lemma evaluate_negation_ok (h : (Formula.negation operand).evaluate env = .ok u) :
    ∃ v, operand.evaluate env = .ok v ∧ v.negate = u := by
  rw [evaluate] at h
  obtain ⟨v, hv, h⟩ := exists_of_bind_ok h
  cases h
  exact ⟨v, hv, rfl⟩

lemma evaluate_chain_ok (h : (Formula.chain head tail).evaluate env = .ok u) :
    ∃ v, head.evaluate env = .ok v ∧ evaluateTail env v tail = .ok u := by
  rw [evaluate] at h
  exact exists_of_bind_ok h

lemma evaluateTail_cons : evaluateTail env v ((op, operand) :: tail) = (do
    let w ← operand.evaluate env
    let x ← v.combine op w
    evaluateTail env x tail) := by
  rw [evaluateTail]
  cases operand.evaluate env with
  | error e => rfl
  | ok w =>
    dsimp only [bind, Except.bind]
    cases v.combine op w <;> rfl

lemma evaluateTail_cons_ok (h : evaluateTail env v ((op, operand) :: tail) = .ok u) :
    ∃ w x, operand.evaluate env = .ok w ∧ v.combine op w = .ok x ∧ evaluateTail env x tail = .ok u := by
  rw [evaluateTail_cons] at h
  obtain ⟨w, hw, h⟩ := exists_of_bind_ok h
  obtain ⟨x, hx, h⟩ := exists_of_bind_ok h
  exact ⟨w, x, hw, hx, h⟩

lemma evaluateTail_nil : evaluateTail env v [] = pure v := by
  rw [evaluateTail]
  rfl

lemma evaluateTail_nil_ok (h : evaluateTail env v [] = .ok u) : v = u := by
  rw [evaluateTail] at h
  cases h
  rfl

end Operators

section Calls

variable {mu sigma : Formula ν} {values : List (Formula ν)} {position : Nat} {call : String}

omit [Number ν] in
lemma constantAt_ok {x : ν} (h : constantAt position call v = .ok x) : v = .scalar x := by
  cases v with
  | scalar y =>
    cases h
    rfl
  | expression e => cases h

omit [Number ν] in
lemma leafAt_ok {leaf : Except (LeafError ν) (Expression ν)} (h : leafAt position leaf = .ok u) :
    ∃ e, leaf = .ok e ∧ u = .expression e := by
  cases leaf with
  | ok e =>
    cases h
    exact ⟨e, rfl, rfl⟩
  | error e => cases h

lemma ofNormal_cases {m s : ν} {e : Expression ν} (h : Expression.ofNormal m s = .ok e) :
    (Distribution.normal m s).IsValid ∧ e = .distribution (.normal m s) := by
  rw [Expression.ofNormal] at h
  split at h
  · cases h
  · rename_i hvalid
    cases h
    exact ⟨by simpa [Distribution.IsValid, and_assoc] using hvalid, rfl⟩

lemma ofSamples_cases {xs : List ν} {e : Expression ν} (h : Expression.ofSamples xs = .ok e) :
    (Distribution.sampled xs).IsValid ∧ e = .distribution (.sampled xs) := by
  rw [Expression.ofSamples] at h
  split at h
  · cases h
  · split at h
    · rename_i hne hfinite
      cases h
      exact ⟨⟨by simpa using hne, by simpa using hfinite⟩, rfl⟩
    · cases h

lemma evaluate_normal_ok (h : (Formula.normal mu sigma position).evaluate env = .ok u) :
    ∃ m s, mu.evaluate env = .ok (.scalar m) ∧ sigma.evaluate env = .ok (.scalar s) ∧
      (Distribution.normal m s).IsValid ∧ u = .expression (.distribution (.normal m s)) := by
  rw [evaluate] at h
  obtain ⟨a, ha, h⟩ := exists_of_bind_ok h
  obtain ⟨m, hm, h⟩ := exists_of_bind_ok h
  obtain ⟨b, hb, h⟩ := exists_of_bind_ok h
  obtain ⟨s, hs, h⟩ := exists_of_bind_ok h
  obtain ⟨e, he, rfl⟩ := leafAt_ok h
  obtain ⟨hvalid, rfl⟩ := ofNormal_cases he
  obtain rfl := constantAt_ok hm
  obtain rfl := constantAt_ok hs
  exact ⟨m, s, ha, hb, hvalid, rfl⟩

lemma evaluateConstants_cons {value : Formula ν} {done : List ν} :
    evaluateConstants env position done (value :: values) = (do
      let x ← constantAt position "sampled" (← value.evaluate env)
      evaluateConstants env position (x :: done) values) := by
  rw [evaluateConstants]
  cases value.evaluate env with
  | error e => rfl
  | ok v => cases v <;> rfl

lemma evaluateConstants_cases {done xs : List ν} (h : evaluateConstants env position done values = .ok xs) :
    ∃ ys, xs = done.reverse ++ ys ∧ List.Forall₂ (fun f y => f.evaluate env = .ok (.scalar y)) values ys := by
  induction values generalizing done with
  | nil =>
    rw [evaluateConstants] at h
    cases h
    exact ⟨[], (List.append_nil _).symm, .nil⟩
  | cons value rest ih =>
    rw [evaluateConstants_cons] at h
    obtain ⟨v, hv, h⟩ := exists_of_bind_ok h
    obtain ⟨y, hy, h⟩ := exists_of_bind_ok h
    obtain rfl := constantAt_ok hy
    obtain ⟨ys, rfl, hys⟩ := ih h
    exact ⟨y :: ys, by rw [List.reverse_cons, List.append_assoc]; rfl, .cons hv hys⟩

lemma evaluate_sampled_ok (h : (Formula.sampled values position).evaluate env = .ok u) :
    ∃ xs, List.Forall₂ (fun f y => f.evaluate env = .ok (.scalar y)) values xs ∧ (Distribution.sampled xs).IsValid ∧
      u = .expression (.distribution (.sampled xs)) := by
  rw [evaluate] at h
  obtain ⟨xs, hxs, h⟩ := exists_of_bind_ok h
  obtain ⟨ys, hys, hvalues⟩ := evaluateConstants_cases hxs
  obtain rfl : xs = ys := hys
  obtain ⟨e, he, rfl⟩ := leafAt_ok h
  obtain ⟨hvalid, rfl⟩ := ofSamples_cases he
  exact ⟨xs, hvalues, hvalid, rfl⟩

end Calls

end Formula

section Texts

variable {x y z : String}

lemma Environment.evaluateText_ok {source : String} (h : env.evaluateText source = .ok u) :
    ∃ f, Formula.parse source = .ok f ∧ f.evaluate env = .ok u :=
  exists_of_bind_ok h

lemma evaluateText_eq {source : String} {f : Formula ν}
    (h : (parse source : Except (ExpressionError ν) (Formula ν)) = .ok f) :
    env.evaluateText source = f.evaluate env := by
  rw [Environment.evaluateText, h]
  rfl

lemma evaluateText_operation_eq (op : Operator) (hx : isIdentifier x = true) (hy : isIdentifier y = true) :
    env.evaluateText (x ++ (" " ++ op.symbol ++ " " ++ y)) = (do
      let v ← env.resolve x
      let w ← env.resolve y
      v.combine op w) := by
  obtain ⟨i, j, hparse⟩ := parse_operation (ν := ν) hx hy op
  rw [evaluateText_eq hparse]
  simp only [evaluate, evaluateTail_cons, evaluateTail_nil, bind_pure]

lemma evaluateText_operations_eq (hx : isIdentifier x = true) (hy : isIdentifier y = true)
    (hz : isIdentifier z = true) : env.evaluateText (x ++ (" + " ++ y ++ " - " ++ z)) = (do
      let v ← env.resolve x
      let w ← env.resolve y
      let s ← v.combine .add w
      let t ← env.resolve z
      s.combine .sub t) := by
  obtain ⟨i, j, k, hparse⟩ := parse_operations (ν := ν) hx hy hz
  rw [evaluateText_eq hparse]
  simp only [evaluate, evaluateTail_cons, evaluateTail_nil, bind_pure]

section Bound

variable {t : Value ν} (hvx : env.get? x = some v) (hwy : env.get? y = some w) (hv : v.IsFinite) (hw : w.IsFinite)
include hvx hwy hv hw

lemma evaluateText_operation_of_bound (op : Operator) (hx : isIdentifier x = true) (hy : isIdentifier y = true) :
    env.evaluateText (x ++ (" " ++ op.symbol ++ " " ++ y)) = v.folded.combine op w.folded := by
  rw [evaluateText_operation_eq op hx hy, Environment.resolve_eq hvx hv, Environment.resolve_eq hwy hw]
  rfl

lemma evaluateText_operations_of_bound (htz : env.get? z = some t) (ht : t.IsFinite) (hx : isIdentifier x = true)
    (hy : isIdentifier y = true) (hz : isIdentifier z = true) :
    env.evaluateText (x ++ (" + " ++ y ++ " - " ++ z)) =
      v.folded.combine .add w.folded >>= fun s => s.combine .sub t.folded := by
  rw [evaluateText_operations_eq hx hy hz, Environment.resolve_eq hvx hv, Environment.resolve_eq hwy hw,
    Environment.resolve_eq htz ht]
  rfl

end Bound

lemma evaluateText_operation (op : Operator) (hx : isIdentifier x = true) (hy : isIdentifier y = true)
    (h : env.evaluateText (x ++ (" " ++ op.symbol ++ " " ++ y)) = .ok u) :
    ∃ v w, env.resolve x = .ok v ∧ env.resolve y = .ok w ∧ v.combine op w = .ok u := by
  rw [evaluateText_operation_eq op hx hy] at h
  obtain ⟨v, hv, h⟩ := exists_of_bind_ok h
  obtain ⟨w, hw, hu⟩ := exists_of_bind_ok h
  exact ⟨v, w, hv, hw, hu⟩

lemma evaluateText_operations (hx : isIdentifier x = true) (hy : isIdentifier y = true) (hz : isIdentifier z = true)
    (h : env.evaluateText (x ++ (" + " ++ y ++ " - " ++ z)) = .ok u) :
    ∃ v w s t, env.resolve x = .ok v ∧ env.resolve y = .ok w ∧ env.resolve z = .ok t ∧ v.combine .add w = .ok s ∧
      s.combine .sub t = .ok u := by
  rw [evaluateText_operations_eq hx hy hz] at h
  obtain ⟨v, hv, h⟩ := exists_of_bind_ok h
  obtain ⟨w, hw, h⟩ := exists_of_bind_ok h
  obtain ⟨s, hs, h⟩ := exists_of_bind_ok h
  obtain ⟨t, ht, hu⟩ := exists_of_bind_ok h
  exact ⟨v, w, s, t, hv, hw, ht, hs, hu⟩

end Texts

end Uncertainty
