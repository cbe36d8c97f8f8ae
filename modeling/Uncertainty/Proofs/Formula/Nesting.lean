import Uncertainty.Formula.Grammar
import Uncertainty.Proofs.Expression.Nesting
import Uncertainty.Proofs.Formula.Exactness
import Uncertainty.Proofs.Formula.Tiling

namespace Uncertainty

open Formula

variable {ν : Type}

/-- The operators and prefix minus signs of the tree. Those in arguments of calls are left out, for they fold. -/
def SyntaxTree.signs : SyntaxTree ν → Nat
  | number _ | named _ _ | normal _ _ _ | sampled _ _ => 0
  | negation operand => operand.signs + 1
  | operation _ l r => l.signs + r.signs + 1

namespace Token

def isSign : Token ν → Bool
  | operator _ => true
  | _ => false

def isSignChar (c : Char) : Bool := (Operator.ofChar? c).isSome

lemma isSignChar_of_ofText? [Number ν] {cs : List Char} {t : Token ν} (h : ofText? cs = some t)
    (ht : t.isSign = true) : 0 < cs.countP isSignChar := by
  cases cs with
  | nil => cases h
  | cons c cs =>
    have hc : ofChar? c = some t := by
      rw [ofText?] at h
      split at h
      · dsimp only at h
        split at h
        · cases h
          cases ht
        · cases h
      · split at h
        · cases h
          cases ht
        · exact h
    have hsign : isSignChar c = true := by
      unfold ofChar? at hc
      split at hc
      · cases hc
        cases ht
      · cases hc
        cases ht
      · cases hc
        cases ht
      · obtain ⟨op, hop, -⟩ := Option.map_eq_some_iff.mp hc
        exact Option.isSome_of_eq_some hop
    exact List.countP_pos_iff.mpr ⟨c, List.mem_cons_self, hsign⟩

end Token

namespace Formula

def signs (ts : List (Lexeme ν)) : Nat := ts.countP (·.token.isSign)

section Counting

variable {t : Lexeme ν} {ts us : List (Lexeme ν)}

@[simp]
lemma signs_nil : signs ([] : List (Lexeme ν)) = 0 := rfl

@[simp]
lemma signs_cons : signs (t :: ts) = signs ts + if t.token.isSign then 1 else 0 := List.countP_cons

@[simp]
lemma signs_append : signs (ts ++ us) = signs ts + signs us := List.countP_append

end Counting

lemma Derives.signs_le {c : Category} {ts : List (Lexeme ν)} {values : List (SyntaxTree ν)} {n : Nat}
    (h : Derives c ts values n) : (values.map SyntaxTree.signs).sum ≤ signs ts := by
  induction h with
  | sum _ ih | product _ ih | factor _ ih | argument _ ih => exact ih
  | number | named | normal | sampled => exact Nat.zero_le _
  | additive _ _ _ ihl ihr | multiplicative _ _ _ ihl ihr | power _ _ ihl ihr =>
    simp [SyntaxTree.signs, Token.isSign] at ihl ihr ⊢
    omega
  | negation _ ih => simpa [SyntaxTree.signs, Token.isSign] using ih
  | group _ ih => simpa [Token.isSign] using ih
  | comma _ _ ih ihs =>
    simp [Token.isSign] at ih ihs ⊢
    omega

variable [Number ν]

lemma signs_of_tiles {p q : Nat} {cs rest : List Char} {ts : List (Lexeme ν)} (h : Token.Tiles p cs ts q rest) :
    signs ts ≤ cs.countP Token.isSignChar := by
  induction h with
  | nil => exact Nat.zero_le _
  | blank _ _ ih =>
    rw [List.countP_cons]
    omega
  | @token _ text t _ _ _ _ _ _ htext _ ih =>
    have hsign : (if t.isSign then 1 else 0) ≤ text.countP Token.isSignChar := by
      split
      · exact Token.isSignChar_of_ofText? htext ‹_›
      · exact Nat.zero_le _
    rw [signs_cons, List.countP_append]
    dsimp only
    omega

lemma signs_of_parse {source : String} {f : Formula ν} (h : parse source = .ok f) :
    f.tree.signs ≤ source.toList.countP Token.isSignChar := by
  obtain ⟨ts, n, htokens, hn, -⟩ := derives_of_parse h
  obtain ⟨q, htiles⟩ := Token.tiles_of_tokenize htokens
  have hsigns := hn.signs_le
  rw [List.map_singleton, List.sum_singleton] at hsigns
  exact hsigns.trans (signs_of_tiles htiles)

section Evaluating

variable {env : Environment ν} {N : Nat} {u v : Value ν} (hN : 3 ≤ N)
  (henv : env.All (·.nesting ≤ N))
include hN henv

lemma nesting_resolve_le {name : String} (h : env.resolve name = .ok u) : u.toExpression.nesting ≤ N := by
  rcases Environment.resolve_cases h with ⟨w, -, rfl, -⟩ | ⟨e, -, rfl, hget⟩
  · exact (Expression.nesting_literal_le w).trans (by omega)
  · exact henv name e hget

lemma nesting_evaluate_le {f : Formula ν} (h : f.evaluate env = .ok u) :
    u.toExpression.nesting ≤ N + 2 * f.tree.signs := by
  induction f using memInduction generalizing u with
  | number v =>
    rw [evaluate] at h
    cases h
    exact (Expression.nesting_literal_le v).trans (by omega)
  | named name position =>
    rw [evaluate] at h
    exact nesting_resolve_le hN henv h
  | negation operand ih =>
    obtain ⟨v, hv, rfl⟩ := evaluate_negation_ok h
    have hoperand := ih hv
    rw [tree, SyntaxTree.signs]
    cases v with
    | scalar v => exact (Expression.nesting_literal_le _).trans (by omega)
    | expression e =>
      have hzero := Expression.nesting_literal_le (Number.zero : ν)
      refine Expression.nesting_binary_le.trans ?_
      change e.nesting ≤ _ at hoperand
      omega
  | chain head tail ihhead ihtail =>
    obtain ⟨v, hv, hrest⟩ := evaluate_chain_ok h
    have hhead := ihhead hv
    rw [tree]
    -- The tree of the chain so far is the left operand of what follows.
    generalize head.tree = left at hhead
    clear h hv ihhead
    induction tail generalizing v left with
    | nil =>
      obtain rfl := evaluateTail_nil_ok hrest
      exact hhead
    | cons step rest ih =>
      obtain ⟨op, operand⟩ := step
      rw [List.forall_mem_cons] at ihtail
      obtain ⟨w, x, hw, hx, hrest⟩ := evaluateTail_cons_ok hrest
      have hoperand : w.toExpression.nesting ≤ N + 2 * operand.tree.signs := ihtail.1 hw
      rw [treeFrom]
      refine ih ihtail.2 x hrest _ ((Value.nesting_combine_le hx).trans ?_)
      rw [SyntaxTree.signs]
      omega
  | normal mu sigma position _ _ =>
    obtain ⟨m, s, -, -, -, rfl⟩ := evaluate_normal_ok h
    exact (Expression.nesting_distribution_le _).trans (by omega)
  | sampled values position _ =>
    obtain ⟨xs, -, -, rfl⟩ := evaluate_sampled_ok h
    exact (Expression.nesting_distribution_le _).trans (by omega)

lemma nesting_evaluateText_le {source : String} (h : env.evaluateText source = .ok u) :
    u.toExpression.nesting ≤ N + 2 * source.toList.countP Token.isSignChar := by
  obtain ⟨f, hf, hu⟩ := Environment.evaluateText_ok h
  have hsigns := signs_of_parse hf
  have hnesting := nesting_evaluate_le hN henv hu
  omega

end Evaluating

end Formula

lemma Expression.nesting_of_parse_le [Number ν] {source : String} {e : Expression ν} (h : parse source = .ok e) :
    e.nesting ≤ 3 + 2 * source.toList.countP Token.isSignChar := by
  obtain ⟨u, hu, h⟩ := exists_of_bind_ok h
  cases h
  exact Formula.nesting_evaluateText_le (le_refl 3) Environment.all_empty hu

end Uncertainty
