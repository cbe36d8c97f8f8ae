import Uncertainty.Formula.Evaluation
import Uncertainty.Proofs.Formula.Beginning

namespace Uncertainty

open Formula

variable {ν : Type}

namespace Expression

def asValue : Expression ν → Value ν
  | literal v => .scalar v
  | e => .expression e

lemma toExpression_asValue (e : Expression ν) : e.asValue.toExpression = e := by
  cases e <;> rfl

end Expression

variable [Number ν] {env : Environment ν} {stop : Nat}

namespace Expression

lemma combine_asValue (op : Operator) {l r : Expression ν} (h : (l.literal?.isSome && r.literal?.isSome) = false) :
    l.asValue.combine op r.asValue = .ok (binary op l r).asValue := by
  cases l with
  | literal v =>
    cases r with
    | literal w => cases h
    | distribution d => rfl
    | binary op' l' r' => rfl
  | distribution d => cases r <;> rfl
  | binary op' l' r' => cases r <;> rfl

end Expression

def Yields (env : Environment ν) (head : Formula ν) (tail : List (Operator × Formula ν)) (e : Expression ν) : Prop :=
  ∃ v, head.evaluate env = .ok v ∧ evaluateTail env v tail = .ok e.asValue

/-- The tokens are read as the beginning of a chain that comes to the expression, where no operator tighter
than `tightness` is asked for and none as tight as `follow` follows. -/
structure Opens (env : Environment ν) (stop : Nat) (ts : List (Lexeme ν)) (e : Expression ν)
    (tightness follow levels : Nat) : Prop where
  pos : 0 < levels
  reads : ∃ head tail, Yields env head tail e ∧ ∀ n least rest, least ≤ tightness → Closed follow rest →
    Within levels (n + 1) (resumed stop n least head tail.reverse rest) (view (level stop (n + 1) least (ts ++ rest)))

lemma evaluateTail_append {v w : Value ν} {tail tail' : List (Operator × Formula ν)}
    (h : evaluateTail env v tail = .ok w) : evaluateTail env v (tail ++ tail') = evaluateTail env w tail' := by
  induction tail generalizing v with
  | nil =>
    rw [evaluateTail] at h
    cases h
    rfl
  | cons step tail ih =>
    obtain ⟨op, f⟩ := step
    rw [evaluateTail] at h
    rw [List.cons_append, evaluateTail]
    split at h
    · cases h
    · split at h
      · cases h
      · exact ih h

namespace Yields

variable {head f : Formula ν} {tail : List (Operator × Formula ν)} {e l r : Expression ν} {op : Operator}

lemma single (h : f.evaluate env = .ok e.asValue) : Yields env f [] e := ⟨e.asValue, h, by rw [evaluateTail]⟩

lemma evaluate_ofChain (h : Yields env head tail e) : (ofChain head tail).evaluate env = .ok e.asValue := by
  obtain ⟨v, hv, ht⟩ := h
  cases tail with
  | nil =>
    rw [evaluateTail] at ht
    cases ht
    exact hv
  | cons step tail =>
    rw [ofChain, List.isEmpty_cons, if_neg Bool.false_ne_true, evaluate, hv]
    exact ht

lemma snoc (h : Yields env head tail l) (hf : f.evaluate env = .ok r.asValue)
    (hlr : (l.literal?.isSome && r.literal?.isSome) = false) :
    Yields env head (tail ++ [(op, f)]) (.binary op l r) := by
  obtain ⟨v, hv, ht⟩ := h
  refine ⟨v, hv, ?_⟩
  rw [evaluateTail_append ht, evaluateTail, hf]
  dsimp only
  rw [Expression.combine_asValue op hlr]
  dsimp only
  rw [evaluateTail]

end Yields

namespace Opens

variable {ts ts' : List (Lexeme ν)} {e l r : Expression ν} {p p' q q' k k' : Nat}

lemma begins (h : Opens env stop ts e p q k) :
    ∃ head tail, Yields env head tail e ∧ Begins stop ts head tail p (Closed q) k := by
  obtain ⟨head, tail, hy, hr⟩ := h.reads
  exact ⟨head, tail, hy, h.pos, hr⟩

lemma of_begins {head : Formula ν} {tail : List (Operator × Formula ν)} (hy : Yields env head tail e)
    (h : Begins stop ts head tail p (Closed q) k) : Opens env stop ts e p q k :=
  ⟨h.pos, head, tail, hy, h.reads⟩

lemma operand (h : Opens env stop ts e p q k) : ∃ f : Formula ν, f.evaluate env = .ok e.asValue ∧
    ∀ n least rest, least ≤ p → Closed q rest → Closed least rest →
      Within k n (.ok (f, rest)) (view (level stop n least (ts ++ rest))) := by
  obtain ⟨head, tail, hy, hb⟩ := h.begins
  exact ⟨ofChain head tail, hy.evaluate_ofChain, fun n least rest hp hq hleast => hb.operand hp hq hleast⟩

lemma single {f : Formula ν} (hk : 0 < k) (hf : f.evaluate env = .ok e.asValue)
    (h : ∀ n rest, Closed q rest → Within k (n + 1) (.ok (f, rest)) (view (signed stop (level stop n) (ts ++ rest)))) :
    Opens env stop ts e p q k := by
  exact of_begins (.single hf) (.single hk h)

lemma paren {start stop₁ start' stop₁' : Nat} (h : Opens env stop ts e p q k) :
    Opens env stop (⟨.openParen, start, stop₁⟩ :: (ts ++ [⟨.closeParen, start', stop₁'⟩])) e p' q' (1 + k) := by
  obtain ⟨head, tail, hy, hb⟩ := h.begins
  exact of_begins (.single hy.evaluate_ofChain) (hb.paren fun rest => closed_of_not_operator nofun)

lemma chain {op : Operator} {start stop₁ : Nat} (hl : Opens env stop ts l p q k) (hr : Opens env stop ts' r p' q' k')
    (hlr : (l.literal?.isSome && r.literal?.isSome) = false) (hp : op.precedence ≤ p) (hq : op.precedence < q)
    (hp' : operandPrecedence op ≤ p') (hq' : operandPrecedence op ≤ q') :
    Opens env stop (ts ++ ⟨.operator op, start, stop₁⟩ :: ts') (.binary op l r) op.precedence (operandPrecedence op)
      (max k (1 + k')) := by
  obtain ⟨head, tail, hy, hb⟩ := hl.begins
  obtain ⟨head', tail', hy', hb'⟩ := hr.begins
  refine of_begins (hy.snoc hy'.evaluate_ofChain hlr) (hb.chain hb' hp ?_ hp' ?_)
  · intro rest
    exact closed_operator hq
  · intro rest hrest
    exact ⟨hrest.mono hq', hrest⟩

section Numbers

variable {x : ν} {start stop' : Nat}

lemma number : Opens env stop [⟨.number x, start, stop'⟩] (.literal x) p q 1 := by
  exact of_begins (.single (f := .number x) (by rw [evaluate]; rfl)) .number

lemma minus (h : Opens env stop ts (.literal x) p q k) (hp : negationPrecedence ≤ p) (hq : negationPrecedence ≤ q) :
    Opens env stop (⟨.operator .sub, start, stop'⟩ :: ts) (.literal (-x)) p negationPrecedence (1 + k) := by
  obtain ⟨head, tail, hy, hb⟩ := h.begins
  have hnegation : (Formula.negation (ofChain head tail)).evaluate env = .ok (Expression.literal (-x)).asValue := by
    rw [evaluate, hy.evaluate_ofChain]
    rfl
  exact of_begins (.single hnegation) (hb.minus hp fun rest hrest => ⟨hrest.mono hq, hrest⟩)

end Numbers

end Opens

end Uncertainty
