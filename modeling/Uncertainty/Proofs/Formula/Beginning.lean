import Mathlib.Logic.Basic
import Uncertainty.Proofs.Formula.Reading

namespace Uncertainty

open Formula

variable {ν α β : Type}

/-- The outcome if there are levels enough, and a complaint about them if not. -/
def Within (needed levels : Nat) (outcome r : Except (ExpressionError ν) α) : Prop :=
  if needed ≤ levels then r = outcome else ∃ position, r = .error (.malformed position .tooDeep)

namespace Within

variable {m n levels : Nat} {r outcome : Except (ExpressionError ν) α}

lemma of_eq (hn : n ≤ levels) (h : r = outcome) : Within n levels outcome r := by
  rw [Within, if_pos hn]
  exact h

lemma succ (h : Within n levels outcome r) : Within (1 + n) (levels + 1) outcome r := by
  rw [Within] at h ⊢
  split at h
  · rw [if_pos (by omega)]
    exact h
  · rw [if_neg (by omega)]
    exact h

lemma bind_ok {x : α} {f : α → Except (ExpressionError ν) β} (h : Within n levels (.ok x) r) :
    Within n levels (f x) (r.bind f) := by
  rw [Within] at h ⊢
  split at h
  · subst h
    rw [if_pos ‹_›]
    rfl
  · obtain ⟨position, rfl⟩ := h
    rw [if_neg ‹_›]
    exact ⟨position, rfl⟩

lemma trans {middle : Except (ExpressionError ν) α} (h : Within m levels middle r)
    (hm : Within n levels outcome middle) : Within (max m n) levels outcome r := by
  rw [Within] at h hm ⊢
  split at h
  · subst h
    split at hm
    · rw [if_pos (by omega)]
      exact hm
    · rw [if_neg (by omega)]
      exact hm
  · rw [if_neg (by omega)]
    exact h

lemma bind {x : α} {next : Except (ExpressionError ν) β} {f : α → Except (ExpressionError ν) β}
    (h : Within m levels (.ok x) r) (hf : Within n levels next (f x)) : Within (max m n) levels next (r.bind f) :=
  h.bind_ok.trans hf

section Unique

variable {x y : α} {r : Nat → Except (ExpressionError ν) α}

lemma le (hx : ∀ levels, Within m levels (.ok x) (r levels)) (hy : ∀ levels, Within n levels (.ok y) (r levels)) :
    n ≤ m := by
  refine Nat.not_lt.mp fun hlt => ?_
  have hread := hx m
  have hdeep := hy m
  rw [Within, if_pos (Nat.le_refl m)] at hread
  rw [Within, if_neg (Nat.not_le.mpr hlt), hread] at hdeep
  obtain ⟨_, hdeep⟩ := hdeep
  cases hdeep

lemma unique (hx : ∀ levels, Within m levels (.ok x) (r levels)) (hy : ∀ levels, Within n levels (.ok y) (r levels)) :
    x = y ∧ m = n := by
  obtain rfl : m = n := Nat.le_antisymm (le hy hx) (le hx hy)
  have hxm := hx m
  have hym := hy m
  rw [Within, if_pos (Nat.le_refl m)] at hxm hym
  rw [hxm] at hym
  cases hym
  exact ⟨rfl, rfl⟩

end Unique

end Within

lemma closed_of_not_operator {least start stop : Nat} {t : Token ν} {rest : List (Lexeme ν)}
    (h : ∀ op, t ≠ .operator op) : Closed least (⟨t, start, stop⟩ :: rest) := by
  rintro op _ _ _ he
  exact absurd (congrArg Lexeme.token (List.cons.inj he).1) (h op)

lemma closed_operator {least start stop : Nat} {op : Operator} {rest : List (Lexeme ν)} (h : op.precedence < least) :
    Closed least (⟨.operator op, start, stop⟩ :: rest) := by
  rintro op' _ _ _ he
  cases he
  exact h

namespace Formula

section Calls

variable {stop n k m start stop₁ bound : Nat} {f : Formula ν} {fs done : List (Formula ν)} {ts rest : List (Lexeme ν)}
  {hb : ts.length ≤ bound}

lemma arguments_last (h : Within k n (.ok (f, ⟨.closeParen, start, stop₁⟩ :: rest)) (view (level stop n 0 ts))) :
    Within k n (.ok (done.reverse ++ [f], ⟨.closeParen, start, stop₁⟩ :: rest))
      (view (arguments (level stop n) done ts hb)) := by
  rw [arguments_step, ← List.reverse_cons]
  exact h.bind_ok

lemma arguments_more (h : Within k n (.ok (f, ⟨.comma, start, stop₁⟩ :: rest)) (view (level stop n 0 ts)))
    {outcome : Except (ExpressionError ν) (List (Formula ν) × List (Lexeme ν))}
    (hrest : Within m n outcome (view (arguments (level stop n) (f :: done) rest (Nat.le_refl _)))) :
    Within (max k m) n outcome (view (arguments (level stop n) done ts hb)) := by
  rw [arguments_step]
  exact h.bind hrest

lemma signed_call_within {name : String} {start' stop' start₂ stop₂ : Nat}
    (hfirst : ∀ a b us, ts ≠ ⟨.closeParen, a, b⟩ :: us)
    (h : Within k n (.ok (fs, ⟨.closeParen, start₂, stop₂⟩ :: rest))
      (view (arguments (level stop n) [] ts (Nat.le_refl _)))) (hcall : call name start fs = .ok f) :
    Within (1 + k) (n + 1) (.ok (f, rest))
      (view (signed stop (level stop n) (⟨.identifier name, start, stop₁⟩ :: ⟨.openParen, start', stop'⟩ :: ts))) := by
  have harguments : Within k n (.ok (fs, rest)) (view (callArguments stop (level stop n) ts)) := by
    rw [callArguments_some hfirst]
    exact h.bind_ok
  have hcalled : ((call name start fs).map fun f => (f, rest)) = .ok (f, rest) := by
    rw [hcall]
    rfl
  rw [signed_call, ← hcalled]
  exact harguments.succ.bind_ok

end Calls

/-- The tokens are read as the first operand and the operators with theirs, where no operator tighter than `tightness`
is asked for and what follows is of the kind that may. -/
structure Begins (stop : Nat) (ts : List (Lexeme ν)) (head : Formula ν) (tail : List (Operator × Formula ν))
    (tightness : Nat) (follow : List (Lexeme ν) → Prop) (levels : Nat) : Prop where
  pos : 0 < levels
  reads : ∀ n least rest, least ≤ tightness → follow rest →
    Within levels (n + 1) (resumed stop n least head tail.reverse rest) (view (level stop (n + 1) least (ts ++ rest)))

namespace Begins

variable {stop p p' k k' start stop₁ start' stop₁' : Nat} {ts ts' rest : List (Lexeme ν)} {head f : Formula ν}
  {tail : List (Operator × Formula ν)} {F F' : List (Lexeme ν) → Prop}

lemma mono (h : Begins stop ts head tail p F k) (hp : p' ≤ p) (hF : ∀ rest, F' rest → F rest) :
    Begins stop ts head tail p' F' k :=
  ⟨h.pos, fun n least rest hleast hrest => h.reads n least rest (Nat.le_trans hleast hp) (hF rest hrest)⟩

lemma operand {n least : Nat} (h : Begins stop ts head tail p F k) (hp : least ≤ p) (hF : F rest)
    (hleast : Closed least rest) :
    Within k n (.ok (ofChain head tail, rest)) (view (level stop n least (ts ++ rest))) := by
  cases n with
  | zero =>
    have hk : ¬ k ≤ 0 := Nat.not_le.mpr h.pos
    rw [Within, if_neg hk]
    exact ⟨_, rfl⟩
  | succ n =>
    have hw := h.reads n least rest hp hF
    rwa [resumed_closed hleast, List.reverse_reverse] at hw

lemma single (hk : 0 < k)
    (h : ∀ n rest, F rest → Within k (n + 1) (.ok (f, rest)) (view (signed stop (level stop n) (ts ++ rest)))) :
    Begins stop ts f [] p F k := by
  refine ⟨hk, ?_⟩
  intro n least rest _ hF
  rw [level_succ]
  exact (h n rest hF).bind_ok

lemma number {v : ν} : Begins stop [⟨.number v, start, stop₁⟩] (.number v) [] p F 1 := by
  refine single Nat.one_pos ?_
  intro n rest _
  exact .of_eq (Nat.le_add_left 1 n) signed_number

lemma minus (h : Begins stop ts head tail p F k) (hp : negationPrecedence ≤ p)
    (hF : ∀ rest, F' rest → F rest ∧ Closed negationPrecedence rest) :
    Begins stop (⟨.operator .sub, start, stop₁⟩ :: ts) (.negation (ofChain head tail)) [] p' F' (1 + k) := by
  refine single (by omega) ?_
  intro n rest hrest
  obtain ⟨hrest, hclosed⟩ := hF rest hrest
  rw [List.cons_append, signed_minus]
  exact ((h.operand hp hrest hclosed).succ).bind_ok

lemma paren (h : Begins stop ts head tail p F k) (hF : ∀ rest, F (⟨.closeParen, start', stop₁'⟩ :: rest)) :
    Begins stop (⟨.openParen, start, stop₁⟩ :: (ts ++ [⟨.closeParen, start', stop₁'⟩])) (ofChain head tail) [] p' F'
      (1 + k) := by
  refine single (by omega) ?_
  intro n rest _
  rw [List.cons_append, List.append_assoc, List.singleton_append, signed_paren]
  exact ((h.operand (Nat.zero_le p) (hF rest) (closed_of_not_operator nofun)).succ).bind_ok

lemma chain {op : Operator} {head' : Formula ν} {tail' : List (Operator × Formula ν)}
    (hl : Begins stop ts head tail p F k) (hr : Begins stop ts' head' tail' p' F' k') (hp : op.precedence ≤ p)
    (hF : ∀ rest, F (⟨.operator op, start, stop₁⟩ :: rest)) (hp' : operandPrecedence op ≤ p')
    {G : List (Lexeme ν) → Prop} (hG : ∀ rest, G rest → F' rest ∧ Closed (operandPrecedence op) rest) :
    Begins stop (ts ++ ⟨.operator op, start, stop₁⟩ :: ts') head (tail ++ [(op, ofChain head' tail')]) op.precedence G
      (max k (1 + k')) := by
  refine ⟨Nat.lt_of_lt_of_le hl.pos (Nat.le_max_left _ _), ?_⟩
  intro n least rest hleast hrest
  obtain ⟨hrest, hclosed⟩ := hG rest hrest
  have hleft := hl.reads n least (⟨.operator op, start, stop₁⟩ :: (ts' ++ rest)) (Nat.le_trans hleast hp) (hF _)
  have hright := (hr.operand hp' hrest hclosed (n := n)).succ
  rw [resumed_operator hleast] at hleft
  rw [List.append_assoc, List.cons_append, List.reverse_append]
  exact hleft.trans hright.bind_ok

end Begins

end Formula

end Uncertainty
