import Mathlib
import Uncertainty.Expression.Shared
import Uncertainty.Formula.Printing
import Uncertainty.Number.Binary64

/-! Comparing expressions by their shared nodes is comparing them as trees, unless what is shared holds something that
is no number. -/

namespace Uncertainty

open StateTransition

variable {ν : Type} [Number ν]

inductive Distribution.Matches : Distribution ν → Distribution ν → Prop
  | normal {mu sigma mu' sigma' : ν} : (mu == mu') = true → (sigma == sigma') = true →
    Matches (.normal mu sigma) (.normal mu' sigma')
  | sampled {values values' : List ν} : List.Forall₂ (fun v w => (v == w) = true) values values' →
    Matches (.sampled values) (.sampled values')

inductive Expression.Matches : Expression ν → Expression ν → Prop
  | literal {v w : ν} : (v == w) = true → Matches (.literal v) (.literal w)
  | distribution {d d' : Distribution ν} : d.Matches d' → Matches (.distribution d) (.distribution d')
  | binary {op : Operator} {l r l' r' : Expression ν} : Matches l l' → Matches r r' →
    Matches (.binary op l r) (.binary op l' r')

section Trees

lemma Distribution.listBeq_iff {values values' : List ν} :
    listBeq values values' = true ↔ List.Forall₂ (fun v w => (v == w) = true) values values' := by
  induction values generalizing values' with
  | nil => cases values' <;> simp [listBeq]
  | cons v values ih => cases values' <;> simp [listBeq, ih]

lemma Distribution.beq_iff_matches {d d' : Distribution ν} : (d == d') = true ↔ d.Matches d' := by
  change d.beq d' = true ↔ _
  constructor
  · intro h
    cases d <;> cases d'
    · rw [beq, Bool.and_eq_true] at h
      exact .normal h.1 h.2
    · cases h
    · cases h
    · exact .sampled (listBeq_iff.mp h)
  · intro h
    cases h with
    | normal hmu hsigma => rw [beq, hmu, hsigma, Bool.and_true]
    | sampled h => exact listBeq_iff.mpr h

lemma Expression.beq_iff_matches {e e' : Expression ν} : (e == e') = true ↔ e.Matches e' := by
  change e.beq e' = true ↔ _
  constructor
  · intro h
    induction e generalizing e' with
    | literal v =>
      cases e' with
      | literal w => exact .literal h
      | distribution d' | binary op' l' r' => cases h
    | distribution d =>
      cases e' with
      | distribution d' => exact .distribution (Distribution.beq_iff_matches.mp h)
      | literal w | binary op' l' r' => cases h
    | binary op l r ihl ihr =>
      cases e' with
      | binary op' l' r' =>
        simp only [beq, Bool.and_eq_true, decide_eq_true_eq] at h
        obtain ⟨⟨rfl, hl⟩, hr⟩ := h
        exact .binary (ihl hl) (ihr hr)
      | literal w | distribution d' => cases h
  · intro h
    induction h with
    | literal h => exact h
    | distribution h => exact Distribution.beq_iff_matches.mpr h
    | binary _ _ ihl ihr => simp [beq, ihl, ihr]

end Trees

section Laws

variable [PartialEquivBEq ν]

lemma Distribution.Matches.symm {d d' : Distribution ν} (h : d.Matches d') : d'.Matches d := by
  cases h with
  | normal hmu hsigma => exact .normal (BEq.symm hmu) (BEq.symm hsigma)
  | sampled h => exact .sampled (h.flip.imp fun _ _ hv => BEq.symm hv)

lemma Distribution.Matches.trans {d d' d'' : Distribution ν} (h : d.Matches d') (h' : d'.Matches d'') :
    d.Matches d'' := by
  cases h with
  | normal hmu hsigma =>
    cases h' with
    | normal hmu' hsigma' => exact .normal (BEq.trans hmu hmu') (BEq.trans hsigma hsigma')
  | sampled h =>
    cases h' with
    | @sampled _ values'' h' =>
      refine .sampled ?_
      induction h generalizing values'' with
      | nil =>
        cases h'
        exact .nil
      | cons hv _ ih =>
        cases h' with
        | cons hv' h' => exact .cons (BEq.trans hv hv') (ih h')

lemma Expression.Matches.trans {e e' e'' : Expression ν} (h : e.Matches e') (h' : e'.Matches e'') : e.Matches e'' := by
  induction h generalizing e'' with
  | literal h =>
    cases h' with
    | literal h' => exact .literal (BEq.trans h h')
  | distribution h =>
    cases h' with
    | distribution h' => exact .distribution (h.trans h')
  | binary _ _ ihl ihr =>
    cases h' with
    | binary hl hr => exact .binary (ihl hl) (ihr hr)

end Laws

namespace SharedExpression

def HasNaN (e : SharedExpression ν) : Prop := ∃ v ∈ e.forget.numbers, Number.isNaN v = true

omit [Number ν] in
def nodes : SharedExpression ν → List (SharedExpression ν)
  | literal _ => []
  | distribution i d => [distribution i d]
  | binary i op l r => binary i op l r :: (l.nodes ++ r.nodes)

/-- Expressions over one set of nodes: under an address there is one node, with the operands that it was made with. -/
structure Graph (ν : Type) where
  Holds : SharedExpression ν → Prop
  operands {i : Nat} {op : Operator} {l r : SharedExpression ν} : Holds (binary i op l r) → Holds l ∧ Holds r
  eq_of_sameNode {a b : SharedExpression ν} : Holds a → Holds b → a.sameNode b = true → a = b

section Loop

def agrees : SharedExpression ν → SharedExpression ν → Bool
  | literal v, literal w => v == w
  | distribution i d, distribution j d' => i = j || d == d'
  | binary i op l r, binary j op' l' r' => i = j || op = op' && agrees l l' && agrees r r'
  | _, _ => false

def next (pending : List (SharedExpression ν × SharedExpression ν)) :
    Option (List (SharedExpression ν × SharedExpression ν)) :=
  (turn pending).getRight?

lemma all_agrees_eq (pending : List (SharedExpression ν × SharedExpression ν)) :
    pending.all (fun p => p.1.agrees p.2) = (turn pending).elim id fun rest => rest.all fun p => p.1.agrees p.2 := by
  match pending with
  | [] => rfl
  | (literal v, literal w) :: rest =>
    rw [turn, List.all_cons, agrees]
    cases v == w <;> rfl
  | (distribution i d, distribution j d') :: rest =>
    rw [turn, List.all_cons, agrees]
    cases decide (i = j) || d == d' <;> rfl
  | (binary i op l r, binary j op' l' r') :: rest =>
    rw [turn, List.all_cons, agrees]
    split
    · simp [*]
    · split <;> simp [*, Bool.and_assoc]
  | (literal _, distribution _ _) :: _ | (literal _, binary _ _ _ _) :: _ | (distribution _ _, literal _) :: _
  | (distribution _ _, binary _ _ _ _) :: _ | (binary _ _ _ _, literal _) :: _
  | (binary _ _ _ _, distribution _ _) :: _ => rfl

lemma exists_reaches_turn (pending : List (SharedExpression ν × SharedExpression ν)) :
    ∃ last, Reaches next pending last ∧ turn last = .inl (compareAll pending) := by
  induction pending using compareAll.induct with
  | case1 pending equal h =>
    refine ⟨pending, .refl, ?_⟩
    rw [compareAll, h]
  | case2 pending rest h ih =>
    obtain ⟨last, hlast, hturn⟩ := ih
    refine ⟨last, .head ?_ hlast, ?_⟩
    · rw [next, h]
      rfl
    · rw [hturn, compareAll.eq_def pending, h]

lemma compareAll_eq (pending : List (SharedExpression ν × SharedExpression ν)) :
    compareAll pending = pending.all fun p => p.1.agrees p.2 := by
  induction pending using compareAll.induct with
  | case1 pending equal h =>
    rw [all_agrees_eq, compareAll, h]
    rfl
  | case2 pending rest h ih =>
    rw [all_agrees_eq, compareAll, h]
    exact ih

lemma beq_eq_agrees (a b : SharedExpression ν) : (a == b) = a.agrees b := by
  change compareAll [(a, b)] = _
  rw [compareAll_eq, List.all_cons, List.all_nil, Bool.and_true]

end Loop

section Nodes

variable {a b e node : SharedExpression ν}

lemma HasNaN.binary {i : Nat} {op : Operator} {l r : SharedExpression ν} (h : l.HasNaN ∨ r.HasNaN) :
    (binary i op l r).HasNaN := by
  rcases h with ⟨v, hv, hnan⟩ | ⟨v, hv, hnan⟩
  · exact ⟨v, List.mem_append_left _ hv, hnan⟩
  · exact ⟨v, List.mem_append_right _ hv, hnan⟩

lemma HasNaN.of_mem_nodes (h : node.HasNaN) (hmem : node ∈ e.nodes) : e.HasNaN := by
  induction e with
  | literal v => cases hmem
  | distribution i d =>
    obtain rfl := List.mem_singleton.mp hmem
    exact h
  | binary i op l r ihl ihr =>
    rcases List.mem_cons.mp hmem with rfl | hmem
    · exact h
    · rcases List.mem_append.mp hmem with hl | hr
      · exact .binary (.inl (ihl hl))
      · exact .binary (.inr (ihr hr))

lemma matches_self (h : ¬ e.HasNaN) : e.forget.Matches e.forget := by
  have hnumber {v : ν} (hv : v ∈ e.forget.numbers) : (v == v) = true := by
    cases hself : v == v with
    | true => rfl
    | false => exact absurd ⟨v, hv, by rw [Number.isNaN, hself, Bool.not_false]⟩ h
  induction e with
  | literal v => exact .literal (hnumber (List.mem_singleton_self v))
  | distribution i d =>
    cases d with
    | normal mu sigma => exact .distribution (.normal (hnumber (by simp [forget, Expression.numbers,
        Distribution.numbers])) (hnumber (by simp [forget, Expression.numbers, Distribution.numbers])))
    | sampled values => exact .distribution (.sampled (List.forall₂_same.mpr fun v hv => hnumber hv))
  | binary i op l r ihl ihr =>
    exact .binary (ihl (fun hl => h (.binary (.inl hl))) fun hv => hnumber (List.mem_append_left _ hv))
      (ihr (fun hr => h (.binary (.inr hr))) fun hv => hnumber (List.mem_append_right _ hv))

lemma agrees_of_matches (h : a.forget.Matches b.forget) : a.agrees b = true := by
  induction a generalizing b with
  | literal v =>
    cases b with
    | literal w =>
      cases h with
      | literal h => exact h
    | distribution j d' | binary j op' l' r' => cases h
  | distribution i d =>
    cases b with
    | distribution j d' =>
      cases h with
      | distribution h => rw [agrees, Distribution.beq_iff_matches.mpr h, Bool.or_true]
    | literal w | binary j op' l' r' => cases h
  | binary i op l r ihl ihr =>
    cases b with
    | binary j op' l' r' =>
      cases h with
      | binary hl hr => simp [agrees, ihl hl, ihr hr]
    | literal w | distribution j d' => cases h

lemma agrees_symm [PartialEquivBEq ν] (h : a.agrees b = true) : b.agrees a = true := by
  induction a generalizing b with
  | literal v =>
    cases b with
    | literal w => exact BEq.symm h
    | distribution j d' | binary j op' l' r' => cases h
  | distribution i d =>
    cases b with
    | distribution j d' =>
      simp only [agrees, Bool.or_eq_true, decide_eq_true_eq, Distribution.beq_iff_matches] at h ⊢
      exact h.imp Eq.symm .symm
    | literal w | binary j op' l' r' => cases h
  | binary i op l r ihl ihr =>
    cases b with
    | binary j op' l' r' =>
      simp only [agrees, Bool.or_eq_true, Bool.and_eq_true, decide_eq_true_eq] at h ⊢
      exact h.imp Eq.symm fun ⟨⟨hop, hl⟩, hr⟩ => ⟨⟨hop.symm, ihl hl⟩, ihr hr⟩
    | literal w | distribution j d' => cases h

/-- A node that is passed over is on both sides, so only what differs from itself can be missed. -/
lemma exists_shared_nan (g : Graph ν) (ha : g.Holds a) (hb : g.Holds b) (h : a.agrees b = true)
    (hne : ¬ a.forget.Matches b.forget) : ∃ node ∈ a.nodes, node ∈ b.nodes ∧ node.HasNaN := by
  have hsame {x y : SharedExpression ν} (hx : g.Holds x) (hy : g.Holds y) (hxy : x.sameNode y = true)
      (hne : ¬ x.forget.Matches y.forget) (hmem : x ∈ x.nodes) : ∃ node ∈ x.nodes, node ∈ y.nodes ∧ node.HasNaN := by
    obtain rfl := g.eq_of_sameNode hx hy hxy
    exact ⟨x, hmem, hmem, Classical.not_not.mp fun hnan => hne (matches_self hnan)⟩
  induction a generalizing b with
  | literal v =>
    cases b with
    | literal w => exact absurd (.literal h) hne
    | distribution j d' | binary j op' l' r' => cases h
  | distribution i d =>
    cases b with
    | distribution j d' =>
      simp only [agrees, Bool.or_eq_true, decide_eq_true_eq, Distribution.beq_iff_matches] at h
      rcases h with hij | hd
      · exact hsame ha hb (decide_eq_true hij) hne (List.mem_singleton_self _)
      · exact absurd (.distribution hd) hne
    | literal w | binary j op' l' r' => cases h
  | binary i op l r ihl ihr =>
    cases b with
    | binary j op' l' r' =>
      simp only [agrees, Bool.or_eq_true, Bool.and_eq_true, decide_eq_true_eq] at h
      rcases h with hij | ⟨⟨rfl, hl⟩, hr⟩
      · exact hsame ha hb (decide_eq_true hij) hne List.mem_cons_self
      · obtain ⟨hal, har⟩ := g.operands ha
        obtain ⟨hbl, hbr⟩ := g.operands hb
        by_cases hleft : l.forget.Matches l'.forget
        · obtain ⟨node, hnode, hnode', hnan⟩ := ihr har hbr hr fun hright => hne (.binary hleft hright)
          exact ⟨node, List.mem_cons_of_mem _ (List.mem_append_right _ hnode),
            List.mem_cons_of_mem _ (List.mem_append_right _ hnode'), hnan⟩
        · obtain ⟨node, hnode, hnode', hnan⟩ := ihl hal hbl hl hleft
          exact ⟨node, List.mem_cons_of_mem _ (List.mem_append_left _ hnode),
            List.mem_cons_of_mem _ (List.mem_append_left _ hnode'), hnan⟩
    | literal w | distribution j d' => cases h

lemma beq_iff_matches (g : Graph ν) (ha : g.Holds a) (hb : g.Holds b) (hnan : ¬ a.HasNaN) :
    (a == b) = true ↔ a.forget.Matches b.forget := by
  rw [beq_eq_agrees]
  refine ⟨fun h => Classical.not_not.mp fun hne => ?_, agrees_of_matches⟩
  obtain ⟨node, hnode, -, hnode'⟩ := exists_shared_nan g ha hb h hne
  exact hnan (hnode'.of_mem_nodes hnode)

section Laws

variable [PartialEquivBEq ν]

lemma beq_symm (h : (a == b) = true) : (b == a) = true := by
  rw [beq_eq_agrees] at h ⊢
  exact agrees_symm h

lemma equivalence_beq (g : Graph ν) :
    Equivalence fun x y : {e : SharedExpression ν // g.Holds e ∧ ¬ e.HasNaN} => (x.val == y.val) = true where
  refl x := (beq_iff_matches g x.property.1 x.property.1 x.property.2).mpr (matches_self x.property.2)
  symm := beq_symm
  trans {x y z} hxy hyz := by
    rw [beq_iff_matches g x.property.1 y.property.1 x.property.2] at hxy
    rw [beq_iff_matches g y.property.1 z.property.1 y.property.2] at hyz
    exact (beq_iff_matches g x.property.1 z.property.1 x.property.2).mpr (hxy.trans hyz)

end Laws

end Nodes

theorem equality_looks_through_sharing [PartialEquivBEq ν] (g : Graph ν) {a b : SharedExpression ν} (ha : g.Holds a)
    (hb : g.Holds b) :
    (∃ last, Reaches next [(a, b)] last ∧ turn last = .inl (a == b)) ∧ (a == b) = (b == a) ∧
      (¬ a.HasNaN → ¬ b.HasNaN → ((a == b) = true ↔ a.forget.Matches b.forget)) ∧
      Equivalence (fun x y : {e : SharedExpression ν // g.Holds e ∧ ¬ e.HasNaN} => (x.val == y.val) = true) ∧
      ((a == b) ≠ (a.forget == b.forget) →
        (a == b) = true ∧ ∃ node ∈ a.nodes, node ∈ b.nodes ∧ node.HasNaN) := by
  refine ⟨exists_reaches_turn _, Bool.eq_iff_iff.mpr ⟨beq_symm, beq_symm⟩, fun hnan _ => beq_iff_matches g ha hb hnan,
    equivalence_beq g, ?_⟩
  intro hne
  rw [beq_eq_agrees] at hne ⊢
  by_cases hm : a.forget.Matches b.forget
  · exact absurd ((agrees_of_matches hm).trans (Expression.beq_iff_matches.mpr hm).symm) hne
  · have hplain : (a.forget == b.forget) = false := eq_false_of_ne_true (hm ∘ Expression.beq_iff_matches.mp)
    rw [hplain] at hne
    have hagrees := eq_true_of_ne_false hne
    exact ⟨hagrees, exists_shared_nan g ha hb hagrees hm⟩

def hollow : SharedExpression Float := distribution 0 (.normal (0 / 0) 1)

def hollowSums : Graph Float where
  Holds e := e = hollow ∨ e = binary 1 .add hollow hollow ∨ e = binary 2 .add hollow hollow
  operands h := by
    rcases h with h | h | h <;> cases h <;> exact ⟨.inl rfl, .inl rfl⟩
  eq_of_sameNode ha hb h := by
    rcases ha with rfl | rfl | rfl <;> rcases hb with rfl | rfl | rfl
    all_goals first | rfl | cases h

theorem hollow_sums_are_equal :
    hollowSums.Holds (binary 1 .add hollow hollow) ∧ hollowSums.Holds (binary 2 .add hollow hollow) ∧
      (binary 1 .add hollow hollow == binary 2 .add hollow hollow) = true ∧
      ∃ node ∈ (binary 1 .add hollow hollow).nodes, node ∈ (binary 2 .add hollow hollow).nodes ∧ node.HasNaN := by
  have ha : hollowSums.Holds (binary 1 .add hollow hollow) := .inr (.inl rfl)
  have hb : hollowSums.Holds (binary 2 .add hollow hollow) := .inr (.inr rfl)
  refine ⟨ha, hb, (equality_looks_through_sharing hollowSums ha hb).2.2.2.2 ?_⟩
  rw [beq_eq_agrees]
  decide +kernel

end SharedExpression

end Uncertainty
