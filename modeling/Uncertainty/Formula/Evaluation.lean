import Uncertainty.Expression.Text
import Uncertainty.Formula.Parser

namespace Uncertainty

inductive Value (ν : Type) where
  | scalar (value : ν)
  | expression (expr : Expression ν)
deriving Inhabited

variable {ν : Type}

namespace Value

def toExpression : Value ν → Expression ν
  | scalar v => .literal v
  | expression e => e

variable [Number ν]

/-- An expression has no sign to change, so it is taken from zero. -/
def negate : Value ν → Value ν
  | scalar v => scalar (-v)
  | expression e => expression (.binary .sub (.literal Number.zero) e)

def combine (op : Operator) : Value ν → Value ν → Except (ExpressionError ν) (Value ν)
  | scalar l, scalar r =>
    let v := op.apply l r
    if Number.isFinite v then .ok (scalar v) else .error (.invalidResult (.operation l op r))
  | l, r => .ok (expression (.binary op l.toExpression r.toExpression))

end Value

structure Environment (ν : Type) where
  entries : List (String × Value ν)
deriving Inhabited

namespace Environment

def empty : Environment ν := ⟨[]⟩

def bind (env : Environment ν) (name : String) (value : Value ν) : Environment ν :=
  ⟨(name, value) :: env.entries.filter (·.1 ≠ name)⟩

def get? (env : Environment ν) (name : String) : Option (Value ν) := env.entries.lookup name

def size (env : Environment ν) : Nat := env.entries.length

def ofList (bindings : List (String × Value ν)) : Environment ν :=
  bindings.foldl (fun env b => env.bind b.1 b.2) empty

variable [Number ν]

def resolveNumber (name : String) (v : ν) : Except (ExpressionError ν) (Value ν) :=
  if Number.isFinite v then .ok (.scalar v) else .error (.invalidResult (.boundVariable name v))

def resolve (env : Environment ν) (name : String) : Except (ExpressionError ν) (Value ν) :=
  match env.get? name with
  | none => .error (.unboundVariable name)
  | some (.scalar v) => resolveNumber name v
  | some (.expression (.literal v)) => resolveNumber name v
  | some (.expression e) => .ok (.expression e)

end Environment

namespace Formula

variable [Number ν]

def leafAt (position : Nat) (leaf : Except (LeafError ν) (Expression ν)) : Except (ExpressionError ν) (Value ν) :=
  match leaf with
  | .ok e => .ok (.expression e)
  | .error e => .error (.malformed position (.leaf e))

def constantAt (position : Nat) (call : String) : Value ν → Except (ExpressionError ν) ν
  | .scalar v => .ok v
  | .expression _ => .error (.malformed position (.argumentNotConstant call))

mutual

def evaluate (env : Environment ν) : Formula ν → Except (ExpressionError ν) (Value ν)
  | .number v => .ok (.scalar v)
  | .named name _ => env.resolve name
  | .negation operand => do
    let v ← evaluate env operand
    return v.negate
  | .chain head tail => do
    let v ← evaluate env head
    evaluateTail env v tail
  | .normal mu sigma position => do
    let m ← constantAt position "normal" (← evaluate env mu)
    let s ← constantAt position "normal" (← evaluate env sigma)
    leafAt position (Expression.ofNormal m s)
  | .sampled values position => do
    let vs ← evaluateConstants env position [] values
    leafAt position (Expression.ofSamples vs)

def evaluateTail (env : Environment ν) (left : Value ν) :
    List (Operator × Formula ν) → Except (ExpressionError ν) (Value ν)
  | [] => .ok left
  | (op, operand) :: rest =>
    match evaluate env operand with
    | .error e => .error e
    | .ok right =>
      match left.combine op right with
      | .error e => .error e
      | .ok v => evaluateTail env v rest

def evaluateConstants (env : Environment ν) (position : Nat) (done : List ν) :
    List (Formula ν) → Except (ExpressionError ν) (List ν)
  | [] => .ok done.reverse
  | value :: rest =>
    match evaluate env value with
    | .error e => .error e
    | .ok v =>
      match constantAt position "sampled" v with
      | .error e => .error e
      | .ok v => evaluateConstants env position (v :: done) rest

end

end Formula

namespace Environment

variable [Number ν]

def evaluateText (env : Environment ν) (source : String) : Except (ExpressionError ν) (Value ν) := do
  (← Formula.parse source).evaluate env

end Environment

namespace Expression

variable [Number ν]

def parse (source : String) : Except (ExpressionError ν) (Expression ν) := do
  return (← Environment.empty.evaluateText source).toExpression

end Expression

end Uncertainty
