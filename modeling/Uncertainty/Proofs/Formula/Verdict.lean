import Uncertainty.Formula.Grammar
import Uncertainty.Proofs.Formula.Evaluation

/-! What a sentence comes to, read off its tree. Where in the text it stands makes no difference to that. -/

namespace Uncertainty

open Formula

variable {ν α β : Type}

abbrev Verdict (α : Type) := Except ExpressionError.Kind α

def kinds (r : Except (ExpressionError ν) α) : Verdict α := r.mapError ExpressionError.kind

@[simp]
lemma kinds_bind (r : Except (ExpressionError ν) α) (f : α → Except (ExpressionError ν) β) :
    kinds (r >>= f) = kinds r >>= fun x => kinds (f x) := by
  cases r <;> rfl

namespace SyntaxTree

def constant : Value ν → Verdict ν
  | .scalar v => .ok v
  | .expression _ => .error .malformed

def constants : List (Verdict (Value ν)) → Verdict (List ν)
  | [] => .ok []
  | r :: rest => do
    let x ← constant (← r)
    let xs ← constants rest
    return x :: xs

def leaf (r : Except (LeafError ν) (Expression ν)) : Verdict (Value ν) :=
  (r.mapError fun _ => .malformed).map .expression

variable [Number ν]

mutual

def verdict (env : Environment ν) : SyntaxTree ν → Verdict (Value ν)
  | .number v => .ok (.scalar v)
  | .named name _ => kinds (env.resolve name)
  | .negation operand => do
    let v ← verdict env operand
    return v.negate
  | .operation op l r => do
    let v ← verdict env l
    let w ← verdict env r
    kinds (v.combine op w)
  | .normal mu sigma _ => do
    let m ← constant (← verdict env mu)
    let s ← constant (← verdict env sigma)
    leaf (Expression.ofNormal m s)
  | .sampled values _ => do
    let xs ← constants (verdicts env values)
    leaf (Expression.ofSamples xs)

def verdicts (env : Environment ν) : List (SyntaxTree ν) → List (Verdict (Value ν))
  | [] => []
  | t :: ts => verdict env t :: verdicts env ts

end

lemma verdicts_eq_map {env : Environment ν} {ts : List (SyntaxTree ν)} : verdicts env ts = ts.map (verdict env) := by
  induction ts with
  | nil => rw [verdicts, List.map_nil]
  | cons t ts ih => rw [verdicts, List.map_cons, ih]

end SyntaxTree

open SyntaxTree

section Calls

variable {position : Nat} {call : String}

lemma kinds_constantAt (v : Value ν) : kinds (constantAt position call v) = constant v := by
  cases v <;> rfl

lemma kinds_leafAt (r : Except (LeafError ν) (Expression ν)) : kinds (leafAt position r) = leaf r := by
  cases r <;> rfl

end Calls

variable [Number ν] {env : Environment ν}

lemma verdict_treeFrom {left : SyntaxTree ν} {tail : List (Operator × Formula ν)}
    (h : ∀ step ∈ tail, kinds (step.2.evaluate env) = step.2.tree.verdict env) :
    (treeFrom left tail).verdict env = left.verdict env >>= fun v => kinds (evaluateTail env v tail) := by
  induction tail generalizing left with
  | nil =>
    simp only [treeFrom, evaluateTail_nil]
    exact (bind_pure _).symm
  | cons step rest ih =>
    obtain ⟨op, operand⟩ := step
    rw [List.forall_mem_cons] at h
    rw [treeFrom, ih h.2, verdict]
    simp only [evaluateTail_cons, kinds_bind, h.1, bind_assoc]

lemma constants_verdicts {position : Nat} {values : List (Formula ν)} {done : List ν}
    (h : ∀ value ∈ values, kinds (value.evaluate env) = value.tree.verdict env) :
    kinds (evaluateConstants env position done values) =
      constants (verdicts env (trees values)) >>= fun xs => .ok (done.reverse ++ xs) := by
  induction values generalizing done with
  | nil =>
    rw [evaluateConstants, trees, verdicts, constants]
    exact congrArg Except.ok (List.append_nil _).symm
  | cons value rest ih =>
    rw [List.forall_mem_cons] at h
    rw [evaluateConstants_cons, trees, verdicts, constants]
    simp only [kinds_bind, kinds_constantAt, h.1, ih h.2, bind_assoc, List.reverse_cons, List.append_assoc,
      pure_bind, List.singleton_append]

lemma kinds_evaluate (f : Formula ν) : kinds (f.evaluate env) = f.tree.verdict env := by
  induction f using memInduction with
  | number v => rw [evaluate, tree, verdict]; rfl
  | named name position => rw [evaluate, tree, verdict]
  | negation operand ih =>
    rw [evaluate, tree, verdict, kinds_bind, ih]
    rfl
  | chain head tail ihhead ihtail => rw [evaluate, tree, verdict_treeFrom ihtail, kinds_bind, ihhead]
  | normal mu sigma position ihmu ihsigma =>
    rw [evaluate, tree, verdict]
    simp only [kinds_bind, kinds_constantAt, kinds_leafAt, ihmu, ihsigma]
  | sampled values position ih =>
    rw [evaluate, tree, verdict]
    simp only [kinds_bind, kinds_leafAt, constants_verdicts ih, bind_assoc]
    rfl

end Uncertainty
