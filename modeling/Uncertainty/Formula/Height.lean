import Uncertainty.Formula.Evaluation

namespace Uncertainty.Formula

variable {ν : Type}

mutual

def height : Formula ν → Nat
  | .number _ => 1
  | .named _ _ => 1
  | .negation operand => 1 + height operand
  | .chain head tail => 1 + max (height head) (heightOfTail tail)
  | .normal mu sigma _ => 1 + max (height mu) (height sigma)
  | .sampled values _ => 1 + heightOfAll values

def heightOfTail : List (Operator × Formula ν) → Nat
  | [] => 0
  | (_, operand) :: rest => max (height operand) (heightOfTail rest)

def heightOfAll : List (Formula ν) → Nat
  | [] => 0
  | value :: rest => max (height value) (heightOfAll rest)

end

def ready {α : Type} (x : Except (ExpressionError ν) α) : ExceptT (ExpressionError ν) Option α := ExceptT.mk (some x)

variable [Number ν]

/-- Evaluation in which no more than so many calls are open at once. There is no answer if it takes more. -/
def evaluateWithin (env : Environment ν) : Nat → Formula ν → ExceptT (ExpressionError ν) Option (Value ν)
  | 0, _ => ExceptT.mk none
  | _ + 1, .number v => return .scalar v
  | _ + 1, .named name _ => ready (env.resolve name)
  | levels + 1, .negation operand => do
    let v ← evaluateWithin env levels operand
    return v.negate
  | levels + 1, .chain head tail => do
    let v ← evaluateWithin env levels head
    tail.foldlM (fun left step => do
      let right ← evaluateWithin env levels step.2
      ready (left.combine step.1 right)) v
  | levels + 1, .normal mu sigma position => do
    let m ← evaluateWithin env levels mu
    let m ← ready (constantAt position "normal" m)
    let s ← evaluateWithin env levels sigma
    let s ← ready (constantAt position "normal" s)
    ready (leafAt position (Expression.ofNormal m s))
  | levels + 1, .sampled values position => do
    let vs ← values.foldlM (fun done value => do
      let v ← evaluateWithin env levels value
      let v ← ready (constantAt position "sampled" v)
      return v :: done) []
    ready (leafAt position (Expression.ofSamples vs.reverse))

end Uncertainty.Formula
