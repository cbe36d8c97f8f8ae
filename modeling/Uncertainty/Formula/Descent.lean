import Uncertainty.Formula.Parser
/-!
The reading of a formula turn by turn, with the calls that are open meanwhile. A count goes up and down with them, and
by this count a call is refused.
-/
namespace Uncertainty.Formula

variable {ν : Type}

inductive Purpose (ν : Type) where
  | negation
  | group
  | argument (name : String) (position : Nat) (done : List (Formula ν))
  | operand (op : Operator) (head : Formula ν) (done : List (Operator × Formula ν))

structure OpenCall (ν : Type) where
  least : Nat
  purpose : Purpose ν

inductive Stage (ν : Type) where
  /-- A call has been opened that has yet to see whether it is one too many. -/
  | asked (least : Nat) (ts : List (Lexeme ν))
  | chain (least : Nat) (head : Formula ν) (done : List (Operator × Formula ν)) (ts : List (Lexeme ν))
  | answered (f : Formula ν) (ts : List (Lexeme ν))
  | failed (e : ExpressionError ν)

structure Descent (ν : Type) where
  stage : Stage ν
  depth : Nat
  waiting : List (OpenCall ν)

namespace Descent

/-- The open calls that were not one too many. -/
def entered (q : Descent ν) : Nat :=
  match q.stage with
  | .chain _ _ _ _ => q.waiting.length + 1
  | _ => q.waiting.length

def openCalls (q : Descent ν) : Nat :=
  match q.stage with
  | .asked _ _ => q.entered + 1
  | _ => q.entered

def onward (least depth : Nat) (waiting : List (OpenCall ν)) :
    Except (ExpressionError ν) (Formula ν × List (Lexeme ν)) → Descent ν
  | .ok (head, rest) => ⟨.chain least head [] rest, depth, waiting⟩
  | .error e => ⟨.failed e, depth - 1, waiting⟩

def enter (stop least depth : Nat) (waiting : List (OpenCall ν)) : List (Lexeme ν) → Descent ν
  | ⟨.operator .sub, _, _⟩ :: rest => ⟨.asked negationPrecedence rest, depth, ⟨least, .negation⟩ :: waiting⟩
  | ⟨.number v, _, _⟩ :: rest => onward least depth waiting (.ok (.number v, rest))
  | ⟨.identifier name, start, _⟩ :: ⟨.openParen, _, _⟩ :: ⟨.closeParen, _, _⟩ :: rest =>
    onward least depth waiting ((call name start []).map fun f => (f, rest))
  | ⟨.identifier name, start, _⟩ :: ⟨.openParen, _, _⟩ :: rest =>
    ⟨.asked 0 rest, depth, ⟨least, .argument name start []⟩ :: waiting⟩
  | ⟨.identifier name, start, _⟩ :: rest => onward least depth waiting (.ok (.named name start, rest))
  | ⟨.openParen, _, _⟩ :: rest => ⟨.asked 0 rest, depth, ⟨least, .group⟩ :: waiting⟩
  | ts => onward least depth waiting (.error (unexpected stop .expression ts))

def resume (stop depth : Nat) (waiting : List (OpenCall ν)) (f : Formula ν) (ts : List (Lexeme ν)) :
    OpenCall ν → Descent ν
  | ⟨least, .negation⟩ => onward least depth waiting (.ok (.negation f, ts))
  | ⟨least, .group⟩ => onward least depth waiting ((close stop ts).map fun p => (f, p.rest))
  | ⟨least, .argument name position done⟩ =>
    match afterComma? ts with
    | some rest => ⟨.asked 0 rest, depth, ⟨least, .argument name position (f :: done)⟩ :: waiting⟩
    | none => onward least depth waiting
        ((close stop ts).bind fun p => (call name position (f :: done).reverse).map fun g => (g, p.rest))
  | ⟨least, .operand op head done⟩ => ⟨.chain least head ((op, f) :: done) ts, depth, waiting⟩

/-- One turn. The count goes up when a call finds itself not to be one too many, and down when such a call is left, be
it with a formula or with an error. -/
def step (stop : Nat) : Descent ν → Option (Descent ν)
  | ⟨.asked least ts, depth, waiting⟩ =>
    if depth = maxNesting then some ⟨.failed (.malformed (offset stop ts) .tooDeep), depth, waiting⟩
    else some (enter stop least (depth + 1) waiting ts)
  | ⟨.chain least head done (⟨.operator op, start, stop'⟩ :: rest), depth, waiting⟩ =>
    if op.precedence < least then
      some ⟨.answered (ofChain head done.reverse) (⟨.operator op, start, stop'⟩ :: rest), depth - 1, waiting⟩
    else some ⟨.asked (operandPrecedence op) rest, depth, ⟨least, .operand op head done⟩ :: waiting⟩
  | ⟨.chain _ head done ts, depth, waiting⟩ => some ⟨.answered (ofChain head done.reverse) ts, depth - 1, waiting⟩
  | ⟨.answered f ts, depth, c :: waiting⟩ => some (resume stop depth waiting f ts c)
  | ⟨.failed e, depth, _ :: waiting⟩ => some ⟨.failed e, depth - 1, waiting⟩
  | ⟨.answered _ _, _, []⟩ => none
  | ⟨.failed _, _, []⟩ => none

def start [Number ν] (source : String) : Descent ν :=
  match Token.tokenize source with
  | .error e => ⟨.failed e, 0, []⟩
  | .ok ts => ⟨.asked 0 ts, 0, []⟩

def outcome? (stop : Nat) (q : Descent ν) : Option (Except (ExpressionError ν) (Formula ν)) :=
  match q.stage, q.waiting with
  | .answered f ts, [] => some (if ts.isEmpty then .ok f else .error (unexpected stop .operatorOrEnd ts))
  | .failed e, [] => some (.error e)
  | _, _ => none

end Descent

end Uncertainty.Formula
