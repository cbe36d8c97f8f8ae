import Uncertainty.Formula.Grammar
import Uncertainty.Number.Laws
import Uncertainty.Proofs.Formula.Evaluation
import Uncertainty.Proofs.Formula.Exactness
import Uncertainty.Proofs.Formula.Tiling

namespace Uncertainty

open Formula

variable {ν : Type}

inductive SyntaxTree.All (P : ν → Prop) : SyntaxTree ν → Prop
  | number {v} : P v → All P (.number v)
  | named {name position} : All P (.named name position)
  | negation {t} : All P t → All P (.negation t)
  | operation {op l r} : All P l → All P r → All P (.operation op l r)
  | normal {mu sigma position} : All P mu → All P sigma → All P (.normal mu sigma position)
  | sampled {values position} : (∀ t ∈ values, All P t) → All P (.sampled values position)

namespace Formula

variable {P : ν → Prop}

lemma all_treeFrom {left : SyntaxTree ν} {tail : List (Operator × Formula ν)} (h : (treeFrom left tail).All P) :
    left.All P ∧ ∀ step ∈ tail, step.2.tree.All P := by
  induction tail generalizing left with
  | nil =>
    rw [treeFrom] at h
    exact ⟨h, by simp⟩
  | cons step rest ih =>
    rw [treeFrom] at h
    obtain ⟨hstep, hrest⟩ := ih h
    cases hstep with
    | operation hl hr => exact ⟨hl, by simpa [hr] using hrest⟩

def Numbers (P : ν → Prop) (ts : List (Lexeme ν)) : Prop := ∀ t ∈ ts, ∀ v, t.token = .number v → P v

lemma Derives.all {c : Category} {ts : List (Lexeme ν)} {values : List (SyntaxTree ν)} {n : Nat}
    (h : Derives c ts values n) (hts : Numbers P ts) : ∀ t ∈ values, t.All P := by
  have hinside {first second last : Lexeme ν} {us : List (Lexeme ν)}
      (hus : Numbers P (first :: second :: (us ++ [last]))) : Numbers P us :=
    fun t ht => hus t (by simp [ht])
  induction h with
  | sum _ ih | product _ ih | factor _ ih | argument _ ih => exact ih hts
  | additive _ _ _ ihl ihr | multiplicative _ _ _ ihl ihr | power _ _ ihl ihr =>
    simp only [List.forall_mem_singleton] at ihl ihr ⊢
    exact .operation (ihl fun t ht => hts t (by simp [ht])) (ihr fun t ht => hts t (by simp [ht]))
  | negation _ ih =>
    simp only [List.forall_mem_singleton] at ih ⊢
    exact .negation (ih fun t ht => hts t (by simp [ht]))
  | number => simpa using SyntaxTree.All.number (hts _ (List.mem_singleton_self _) _ rfl)
  | named => simpa using SyntaxTree.All.named
  | group _ ih => exact ih fun t ht => hts t (by simp [ht])
  | normal _ ih =>
    have hall := ih (hinside hts)
    simp only [List.forall_mem_cons] at hall
    simpa using SyntaxTree.All.normal hall.1 hall.2.1
  | sampled _ ih => simpa using SyntaxTree.All.sampled (ih (hinside hts))
  | comma _ _ ih ihs =>
    simp only [List.forall_mem_singleton, List.forall_mem_cons] at ih ⊢
    exact ⟨ih fun t ht => hts t (by simp [ht]), ihs fun t ht => hts t (by simp [ht])⟩

variable [Number ν]

lemma isFinite_of_ofText? {cs : List Char} {v : ν} (h : Token.ofText? cs = some (.number v)) :
    Number.isFinite v = true := by
  cases cs with
  | nil => cases h
  | cons c cs =>
    rw [Token.ofText?] at h
    split at h
    · dsimp only at h
      split at h
      · cases h
        assumption
      · cases h
    · split at h
      · cases h
      · unfold Token.ofChar? at h
        split at h <;> simp at h

lemma numbers_of_tiles {p q : Nat} {cs rest : List Char} {ts : List (Lexeme ν)} (h : Token.Tiles p cs ts q rest) :
    Numbers (Number.isFinite · = true) ts := by
  induction h with
  | nil => exact nofun
  | blank _ _ ih => exact ih
  | token _ _ htext _ ih =>
    intro t ht v hv
    rcases List.mem_cons.mp ht with rfl | ht
    · obtain rfl : _ = Token.number v := hv
      exact isFinite_of_ofText? htext
    · exact ih t ht v hv

lemma all_of_parse {source : String} {f : Formula ν} (h : parse source = .ok f) :
    f.tree.All (Number.isFinite · = true) := by
  obtain ⟨ts, n, htokens, hn, -⟩ := derives_of_parse h
  obtain ⟨q, htiles⟩ := Token.tiles_of_tokenize htokens
  exact hn.all (numbers_of_tiles htiles) _ (List.mem_singleton_self _)

end Formula

namespace Value

variable [Number ν] {u v w : Value ν}

def IsReduced : Value ν → Prop
  | scalar v => Number.isFinite v = true
  | expression e => e.IsReduced ∧ e.literal? = none

namespace IsReduced

lemma toExpression (h : v.IsReduced) : v.toExpression.IsReduced := by
  cases v with
  | scalar v => exact h
  | expression e => exact h.1

lemma isSome_literal? (h : v.IsReduced) : v.toExpression.literal?.isSome = v.isScalar := by
  cases v with
  | scalar v => rfl
  | expression e => exact congrArg Option.isSome h.2

lemma folded_toExpression (h : v.IsReduced) : (expression v.toExpression).folded = v := by
  match v, h with
  | scalar x, _ => rfl
  | expression (.distribution d), _ | expression (.binary op l r), _ => rfl

lemma isFinite (h : v.IsReduced) : (expression v.toExpression).IsFinite := by
  intro x hx
  rw [h.folded_toExpression] at hx
  subst hx
  exact h

lemma combine {op : Operator} (hv : v.IsReduced) (hw : w.IsReduced) (h : v.combine op w = .ok u) : u.IsReduced := by
  rcases combine_cases h with ⟨l, r, rfl, rfl, hf, rfl⟩ | ⟨hne, rfl⟩
  · exact hf
  · refine ⟨⟨hv.toExpression, hw.toExpression, ?_⟩, rfl⟩
    rw [hv.isSome_literal?, hw.isSome_literal?]
    exact hne

lemma negate [LawfulNegation ν] (h : v.IsReduced) : v.negate.IsReduced := by
  cases v with
  | scalar v => exact LawfulNegation.isFinite_neg h
  | expression e => exact ⟨⟨LawfulNegation.isFinite_zero, h.1, by rw [h.2, Option.isSome_none, Bool.and_false]⟩, rfl⟩

end IsReduced

end Value

section Evaluating

variable [Number ν] {env : Environment ν} {u : Value ν}

lemma Environment.isReduced_resolve (henv : env.All (·.IsReduced)) {name : String} (h : env.resolve name = .ok u) :
    u.IsReduced := by
  rcases resolve_cases h with ⟨w, hf, rfl, -⟩ | ⟨e, he, rfl, hget⟩
  · exact hf
  · exact ⟨henv name e hget, he⟩

variable [LawfulNegation ν]

lemma Formula.isReduced_of_evaluate (henv : env.All (·.IsReduced)) {f : Formula ν}
    (hf : f.tree.All (Number.isFinite · = true)) (h : f.evaluate env = .ok u) : u.IsReduced := by
  induction f using memInduction generalizing u with
  | number v =>
    rw [evaluate] at h
    rw [tree] at hf
    cases h
    cases hf
    assumption
  | named name position =>
    rw [evaluate] at h
    exact Environment.isReduced_resolve henv h
  | negation operand ih =>
    rw [tree] at hf
    cases hf with
    | negation hoperand =>
      obtain ⟨v, hv, rfl⟩ := evaluate_negation_ok h
      exact (ih hoperand hv).negate
  | chain head tail ihhead ihtail =>
    rw [tree] at hf
    obtain ⟨hhead, htail⟩ := all_treeFrom hf
    obtain ⟨v, hv, hrest⟩ := evaluate_chain_ok h
    have hreduced := ihhead hhead hv
    clear h hv hf ihhead
    induction tail generalizing v with
    | nil =>
      obtain rfl := evaluateTail_nil_ok hrest
      exact hreduced
    | cons step rest ih =>
      obtain ⟨op, operand⟩ := step
      rw [List.forall_mem_cons] at htail ihtail
      obtain ⟨w, x, hw, hx, hrest⟩ := evaluateTail_cons_ok hrest
      exact ih ihtail.2 htail.2 x hrest (hreduced.combine (ihtail.1 htail.1 hw) hx)
  | normal mu sigma position _ _ =>
    obtain ⟨m, s, -, -, hvalid, rfl⟩ := evaluate_normal_ok h
    exact ⟨hvalid, rfl⟩
  | sampled values position _ =>
    obtain ⟨xs, -, hvalid, rfl⟩ := evaluate_sampled_ok h
    exact ⟨hvalid, rfl⟩

lemma Environment.isReduced_of_evaluateText (henv : env.All (·.IsReduced)) {source : String}
    (h : env.evaluateText source = .ok u) : u.IsReduced := by
  obtain ⟨f, hf, hu⟩ := Environment.evaluateText_ok h
  exact isReduced_of_evaluate henv (all_of_parse hf) hu

lemma Expression.isReduced_of_parse {source : String} {e : Expression ν} (h : parse source = .ok e) : e.IsReduced := by
  obtain ⟨u, hu, h⟩ := exists_of_bind_ok h
  cases h
  exact (Environment.isReduced_of_evaluateText Environment.all_empty hu).toExpression

end Evaluating

section Numbers

variable [Number ν]

lemma Distribution.IsValid.isFinite {d : Distribution ν} (h : d.IsValid) {v : ν} (hv : v ∈ d.numbers) :
    Number.isFinite v = true := by
  cases d with
  | normal mu sigma =>
    rcases List.mem_pair.mp hv with rfl | rfl
    · exact h.1
    · exact h.2.1
  | sampled values => exact h.2 v hv

lemma Expression.IsReduced.isFinite {e : Expression ν} (h : e.IsReduced) {v : ν} (hv : v ∈ e.numbers) :
    Number.isFinite v = true := by
  induction e with
  | literal w =>
    obtain rfl := List.mem_singleton.mp hv
    exact h
  | distribution d => exact Distribution.IsValid.isFinite h hv
  | binary op l r ihl ihr => exact (List.mem_append.mp hv).elim (ihl h.1) (ihr h.2.1)

end Numbers

end Uncertainty
