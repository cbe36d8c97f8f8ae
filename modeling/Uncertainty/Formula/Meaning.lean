import Uncertainty.Expression.Trial
import Uncertainty.Formula.Evaluation
/-!
What a formula means, apart from any expression that it evaluates to: the value of one trial of the formula itself.
-/
namespace Uncertainty

variable {ν : Type}

namespace Value

def isScalar : Value ν → Bool
  | scalar _ => true
  | expression _ => false

def isNumber : Value ν → Bool
  | scalar _ => true
  | expression e => e.literal?.isSome

def draw [Number ν] : Value ν → Random.Stream → ν × Random.Stream
  | scalar v, s => (v, s)
  | expression e, s => e.draw s

end Value

namespace Formula

mutual

def isConstant (env : Environment ν) : Formula ν → Bool
  | .number _ => true
  | .named name _ => (env.get? name).any Value.isNumber
  | .negation operand => isConstant env operand
  | .chain head tail => isConstant env head && areConstant env tail
  | .normal _ _ _ => false
  | .sampled _ _ => false

def areConstant (env : Environment ν) : List (Operator × Formula ν) → Bool
  | [] => true
  | (_, operand) :: rest => isConstant env operand && areConstant env rest

end

variable [Number ν]

mutual

/-- The value of one trial. Operators apply from left to right, a call draws from its distribution once, and a minus
takes what is not constant from zero. -/
def draw (env : Environment ν) : Formula ν → Random.Stream → ν × Random.Stream
  | .number v, s => (v, s)
  | .named name _, s => ((env.get? name).getD (.scalar Number.undefined)).draw s
  | .negation operand, s =>
    let (v, s) := draw env operand s
    (if isConstant env operand then -v else Number.zero - v, s)
  | .chain head tail, s =>
    let (v, s) := draw env head s
    drawTail env v tail s
  | .normal mu sigma _, s =>
    let (m, s) := draw env mu s
    let (d, s) := draw env sigma s
    (Distribution.normal m d).draw s
  | .sampled values _, s =>
    let (vs, s) := drawAll env values s
    (Distribution.sampled vs).draw s

def drawTail (env : Environment ν) (left : ν) : List (Operator × Formula ν) → Random.Stream → ν × Random.Stream
  | [], s => (left, s)
  | (op, operand) :: rest, s =>
    let (right, s) := draw env operand s
    drawTail env (op.apply left right) rest s

def drawAll (env : Environment ν) : List (Formula ν) → Random.Stream → List ν × Random.Stream
  | [], s => ([], s)
  | value :: rest, s =>
    let (v, s) := draw env value s
    let (vs, s) := drawAll env rest s
    (v :: vs, s)

end

end Formula

end Uncertainty
