import Uncertainty.Formula.Basic
import Uncertainty.Formula.Lexer
/-!
Tokens into formulas. Operators climb by precedence; a minus in front covers a whole power and no more.
-/
namespace Uncertainty.Formula

variable {ν : Type}

/-- What was read, and the tokens after it, of which there are fewer than `bound`. -/
structure Parsed (ν α : Type) (bound : Nat) where
  value : α
  rest : List (Lexeme ν)
  shorter : rest.length < bound

abbrev Result (ν α : Type) (bound : Nat) := Except (ExpressionError ν) (Parsed ν α bound)

abbrev OperandParser (ν : Type) := (least : Nat) → (ts : List (Lexeme ν)) → Result ν (Formula ν) ts.length

def offset (stop : Nat) : List (Lexeme ν) → Nat
  | [] => stop
  | t :: _ => t.start

def unexpected (stop : Nat) (wanted : Expectation) (ts : List (Lexeme ν)) : ExpressionError ν :=
  .malformed (offset stop ts) (.unexpected wanted (ts.head?.map (·.token)))

def negationPrecedence : Nat := 25

def operandPrecedence (op : Operator) : Nat :=
  if op.groupsRight then op.precedence else op.precedence + 1

def close (stop : Nat) : (ts : List (Lexeme ν)) → Result ν Unit ts.length
  | ⟨.closeParen, _, _⟩ :: rest => .ok ⟨(), rest, by simp⟩
  | ts => .error (unexpected stop .closeParen ts)

def chainTail (operand : OperandParser ν) (least : Nat) (done : List (Operator × Formula ν))
    (ts : List (Lexeme ν)) {bound : Nat} (h : ts.length < bound) : Result ν (List (Operator × Formula ν)) bound :=
  match ts with
  | ⟨.operator op, start, stop⟩ :: rest =>
    if op.precedence < least then .ok ⟨done.reverse, ⟨.operator op, start, stop⟩ :: rest, h⟩
    else
      match operand (operandPrecedence op) rest with
      | .error e => .error e
      | .ok p => chainTail operand least ((op, p.value) :: done) p.rest
          (Nat.lt_trans p.shorter (Nat.lt_of_succ_lt h))
  | ts => .ok ⟨done.reverse, ts, h⟩
termination_by ts.length
decreasing_by have := p.shorter; simp; omega

def afterComma? : List (Lexeme ν) → Option (List (Lexeme ν))
  | ⟨.comma, _, _⟩ :: rest => some rest
  | _ => none

theorem length_of_afterComma? {ts rest : List (Lexeme ν)} (h : afterComma? ts = some rest) :
    ts.length = rest.length + 1 := by
  unfold afterComma? at h
  split at h <;> simp_all

def arguments (operand : OperandParser ν) (done : List (Formula ν)) (ts : List (Lexeme ν)) {bound : Nat}
    (h : ts.length ≤ bound) : Result ν (List (Formula ν)) bound :=
  match operand 0 ts with
  | .error e => .error e
  | .ok p =>
    match hc : afterComma? p.rest with
    | some rest => arguments operand (p.value :: done) rest
        (by have := p.shorter; have := length_of_afterComma? hc; omega)
    | none => .ok ⟨(p.value :: done).reverse, p.rest, Nat.lt_of_lt_of_le p.shorter h⟩
termination_by ts.length
decreasing_by have := p.shorter; have := length_of_afterComma? hc; omega

def callArguments (stop : Nat) (operand : OperandParser ν) (ts : List (Lexeme ν)) :
    Result ν (List (Formula ν)) ts.length :=
  match ts with
  | ⟨.closeParen, _, _⟩ :: rest => .ok ⟨[], rest, by simp⟩
  | ts =>
    match arguments operand [] ts (Nat.le_refl _) with
    | .error e => .error e
    | .ok p =>
      match close stop p.rest with
      | .error e => .error e
      | .ok q => .ok ⟨p.value, q.rest, Nat.lt_trans q.shorter p.shorter⟩

def call (name : String) (position : Nat) (values : List (Formula ν)) : Except (ExpressionError ν) (Formula ν) :=
  if name = "normal" then
    match values with
    | [mu, sigma] => .ok (.normal mu sigma position)
    | _ => .error (.malformed position (.normalArity values.length))
  else if name = "sampled" then
    if values.isEmpty then .error (.malformed position (.leaf .noSamples))
    else .ok (.sampled values position)
  else .error (.malformed position (.unknownDistribution name))

def atom (stop : Nat) (operand : OperandParser ν) : (ts : List (Lexeme ν)) → Result ν (Formula ν) ts.length
  | ⟨.number v, _, _⟩ :: rest => .ok ⟨.number v, rest, by simp⟩
  | ⟨.identifier name, start, _⟩ :: ⟨.openParen, _, _⟩ :: rest =>
    match callArguments stop operand rest with
    | .error e => .error e
    | .ok p =>
      match call name start p.value with
      | .error e => .error e
      | .ok f => .ok ⟨f, p.rest, by have := p.shorter; simp; omega⟩
  | ⟨.identifier name, start, _⟩ :: rest => .ok ⟨.named name start, rest, by simp⟩
  | ⟨.openParen, _, _⟩ :: rest =>
    match operand 0 rest with
    | .error e => .error e
    | .ok p =>
      match close stop p.rest with
      | .error e => .error e
      | .ok q => .ok ⟨p.value, q.rest, by have := p.shorter; have := q.shorter; simp; omega⟩
  | ts => .error (unexpected stop .expression ts)

def signed (stop : Nat) (operand : OperandParser ν) : (ts : List (Lexeme ν)) → Result ν (Formula ν) ts.length
  | ⟨.operator .sub, _, _⟩ :: rest =>
    match operand negationPrecedence rest with
    | .error e => .error e
    | .ok p => .ok ⟨.negation p.value, p.rest, by have := p.shorter; simp; omega⟩
  | ts => atom stop operand ts

def ofChain (head : Formula ν) (tail : List (Operator × Formula ν)) : Formula ν :=
  if tail.isEmpty then head else .chain head tail

/-- A formula whose operators bind at least as tightly as `least`, nesting at most `levels` deep. -/
def level (stop : Nat) : (levels : Nat) → OperandParser ν
  | 0, _, ts => .error (.malformed (offset stop ts) .tooDeep)
  | levels + 1, least, ts =>
    match signed stop (level stop levels) ts with
    | .error e => .error e
    | .ok head =>
      match chainTail (level stop levels) least [] head.rest head.shorter with
      | .error e => .error e
      | .ok p => .ok ⟨ofChain head.value p.value, p.rest, p.shorter⟩

def ofTokens (stop : Nat) (ts : List (Lexeme ν)) : Except (ExpressionError ν) (Formula ν) :=
  match level stop maxNesting 0 ts with
  | .error e => .error e
  | .ok p => if p.rest.isEmpty then .ok p.value else .error (unexpected stop .operatorOrEnd p.rest)

def parse [Number ν] (source : String) : Except (ExpressionError ν) (Formula ν) :=
  match Token.tokenize source with
  | .error e => .error e
  | .ok ts => ofTokens source.utf8ByteSize ts

end Uncertainty.Formula
