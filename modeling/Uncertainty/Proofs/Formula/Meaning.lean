import Uncertainty.Number.Binary64
import Uncertainty.Proofs.Formula.Evaluation

/-! Replacing variables and folding constants keeps what a formula means. -/

namespace Uncertainty

open Formula

variable {ν : Type} [Number ν] {env : Environment ν}

namespace Value

variable {u v w : Value ν}

lemma draw_toExpression (v : Value ν) (s : Random.Stream) : v.toExpression.draw s = v.draw s := by
  cases v <;> rfl

lemma draw_negate (v : Value ν) (s : Random.Stream) :
    v.negate.draw s = (if v.isScalar then -(v.draw s).1 else Number.zero - (v.draw s).1, (v.draw s).2) := by
  cases v <;> rfl

lemma isScalar_negate (v : Value ν) : v.negate.isScalar = v.isScalar := by
  cases v <;> rfl

lemma draw_combine {op : Operator} (h : v.combine op w = .ok u) (s : Random.Stream) :
    u.draw s = (op.apply (v.draw s).1 (w.draw (v.draw s).2).1, (w.draw (v.draw s).2).2) := by
  rcases combine_cases h with ⟨l, r, rfl, rfl, -, rfl⟩ | ⟨-, rfl⟩
  · rfl
  · rw [draw, Expression.draw]
    simp only [draw_toExpression]

lemma isScalar_combine {op : Operator} (h : v.combine op w = .ok u) : u.isScalar = (v.isScalar && w.isScalar) := by
  rcases combine_cases h with ⟨l, r, rfl, rfl, -, rfl⟩ | ⟨hne, rfl⟩
  · rfl
  · exact hne.symm

end Value

namespace Formula

structure Means (env : Environment ν) (f : Formula ν) (u : Value ν) : Prop where
  draw : ∀ s, f.draw env s = u.draw s
  constant : f.isConstant env = u.isScalar

namespace Means

variable {u v : Value ν}

lemma number (x : ν) : Means env (.number x) (.scalar x) := ⟨fun _ => by rw [Formula.draw]; rfl, rfl⟩

lemma named {name : String} {position : Nat} (h : env.resolve name = .ok u) : Means env (.named name position) u := by
  rcases Environment.resolve_cases h with ⟨w, -, rfl, hw | hw⟩ | ⟨e, he, rfl, hw⟩
  · exact ⟨fun s => by rw [Formula.draw, hw]; rfl, by rw [isConstant, hw]; rfl⟩
  · exact ⟨fun s => by rw [Formula.draw, hw]; rfl, by rw [isConstant, hw]; rfl⟩
  · refine ⟨fun s => by rw [Formula.draw, hw]; rfl, ?_⟩
    rw [isConstant, hw]
    change e.literal?.isSome = false
    rw [he]
    rfl

lemma negation {operand : Formula ν} (h : Means env operand v) : Means env (.negation operand) v.negate := by
  refine ⟨fun s => ?_, ?_⟩
  · rw [Formula.draw, Value.draw_negate, h.draw, h.constant]
  · rw [isConstant, h.constant, Value.isScalar_negate]

lemma chain {head : Formula ν} {tail : List (Operator × Formula ν)}
    (htail : ∀ step ∈ tail, ∀ w, step.2.evaluate env = .ok w → Means env step.2 w) (hv : Means env head v)
    (h : evaluateTail env v tail = .ok u) : Means env (.chain head tail) u := by
  -- The value so far is what has been drawn so far, so it is what the induction carries.
  have hrest : (∀ s, drawTail env (v.draw s).1 tail (v.draw s).2 = u.draw s) ∧
      (v.isScalar && areConstant env tail) = u.isScalar := by
    clear hv
    induction tail generalizing v with
    | nil =>
      obtain rfl := evaluateTail_nil_ok h
      exact ⟨fun s => by rw [drawTail], by rw [areConstant, Bool.and_true]⟩
    | cons step rest ih =>
      obtain ⟨op, operand⟩ := step
      obtain ⟨w, x, hw, hx, h⟩ := evaluateTail_cons_ok h
      have hm := htail _ List.mem_cons_self w hw
      obtain ⟨hdraw, hconstant⟩ := ih (fun step hstep => htail step (List.mem_cons_of_mem _ hstep)) h
      refine ⟨fun s => ?_, ?_⟩
      · rw [drawTail, hm.draw, ← hdraw s, Value.draw_combine hx]
      · rw [areConstant, hm.constant, ← Bool.and_assoc, ← Value.isScalar_combine hx, hconstant]
  refine ⟨fun s => ?_, ?_⟩
  · rw [Formula.draw, hv.draw]
    exact hrest.1 s
  · rw [isConstant, hv.constant]
    exact hrest.2

lemma normal {mu sigma : Formula ν} {position : Nat} {m d : ν} (hm : Means env mu (.scalar m))
    (hd : Means env sigma (.scalar d)) :
    Means env (.normal mu sigma position) (.expression (.distribution (.normal m d))) := by
  refine ⟨fun s => ?_, rfl⟩
  rw [Formula.draw, hm.draw]
  dsimp only [Value.draw]
  rw [hd.draw]
  rfl

lemma sampled {values : List (Formula ν)} {position : Nat} {xs : List ν}
    (h : List.Forall₂ (fun value x => Means env value (.scalar x)) values xs) :
    Means env (.sampled values position) (.expression (.distribution (.sampled xs))) := by
  have hall (s : Random.Stream) : drawAll env values s = (xs, s) := by
    induction h with
    | nil => rw [drawAll]
    | cons hx _ ih =>
      rw [drawAll, hx.draw]
      dsimp only [Value.draw]
      rw [ih]
  refine ⟨fun s => ?_, rfl⟩
  rw [Formula.draw, hall]
  rfl

end Means

lemma means_of_evaluate {f : Formula ν} {u : Value ν} (h : f.evaluate env = .ok u) : Means env f u := by
  induction f using memInduction generalizing u with
  | number v =>
    rw [evaluate] at h
    cases h
    exact .number v
  | named name position =>
    rw [evaluate] at h
    exact .named h
  | negation operand ih =>
    obtain ⟨v, hv, rfl⟩ := evaluate_negation_ok h
    exact (ih hv).negation
  | chain head tail hhead htail =>
    obtain ⟨v, hv, h⟩ := evaluate_chain_ok h
    exact .chain (fun step hstep w hw => htail step hstep hw) (hhead hv) h
  | normal mu sigma position hmu hsigma =>
    obtain ⟨m, d, hm, hd, -, rfl⟩ := evaluate_normal_ok h
    exact .normal (hmu hm) (hsigma hd)
  | sampled values position ih =>
    obtain ⟨xs, hxs, -, rfl⟩ := evaluate_sampled_ok h
    refine .sampled ?_
    clear h
    induction hxs with
    | nil => exact .nil
    | cons hx _ ihxs =>
      exact .cons (ih _ List.mem_cons_self hx) (ihxs fun value hvalue => ih value (List.mem_cons_of_mem _ hvalue))

theorem trial_of_evaluated_text {source : String} {v : Value ν} (h : env.evaluateText source = .ok v) :
    ∃ f, parse source = .ok f ∧ ∀ s, v.toExpression.trial s = f.draw env s := by
  obtain ⟨f, hf, hv⟩ := Environment.evaluateText_ok h
  refine ⟨f, hf, fun s => ?_⟩
  rw [Expression.trial, Expression.runTasks_visit, Expression.runTasks, Value.draw_toExpression,
    (means_of_evaluate hv).draw]
  rfl

def lengths : Environment Float :=
  ((Environment.empty.bind "x" (.expression (.distribution (.normal 2 0.5)))).bind "c" (.expression (.literal 3))).bind
    "d" (.scalar 4)

theorem trial_of_lengths :
    (Expression.binary .sub (.binary .add (.binary .sub (.literal 0)
        (.binary .pow (.distribution (.normal 2 0.5)) (.literal 3))) (.literal (3 * -4)))
      (.distribution (.normal 2 0.5))).trial =
      Formula.draw lengths (.chain (.negation (.chain (.named "x" 1) [(.pow, .named "c" 5)]))
        [(.add, .chain (.named "c" 9) [(.mul, .negation (.named "d" 14))]), (.sub, .named "x" 18)]) := by
  have hparse : parse "-x ^ c + c * -d - x" = .ok (.chain (.negation (.chain (.named "x" 1) [(.pow, .named "c" 5)]))
      [(.add, .chain (.named "c" 9) [(.mul, .negation (.named "d" 14))]), (.sub, (.named "x" 18 : Formula Float))]) := by
    cbv
  have hvalue : lengths.evaluateText "-x ^ c + c * -d - x" =
      .ok (.expression (.binary .sub (.binary .add (.binary .sub (.literal 0)
        (.binary .pow (.distribution (.normal 2 0.5)) (.literal 3))) (.literal (3 * -4)))
          (.distribution (.normal 2 0.5)))) := by
    rw [evaluateText_eq hparse]
    rfl
  obtain ⟨f, hf, hdraw⟩ := trial_of_evaluated_text hvalue
  obtain rfl := Except.ok.inj (hparse.symm.trans hf)
  exact funext hdraw

end Formula

end Uncertainty
