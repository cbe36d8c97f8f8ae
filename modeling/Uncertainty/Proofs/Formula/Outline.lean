import Mathlib.Data.List.Basic
import Uncertainty.Proofs.Formula.Completeness
import Uncertainty.Proofs.Formula.Places

/-! The phrases of the grammar are those of its outline in which the calls are known ones. -/

namespace Uncertainty.Formula

variable {ν : Type}

def isKnownCall (name : String) (count : Nat) : Bool :=
  decide (name = "normal" ∧ count = 2) || decide (name = "sampled" ∧ 0 < count)

lemma isKnownCall_iff {name : String} {count : Nat} :
    isKnownCall name count = true ↔ name = "normal" ∧ count = 2 ∨ name = "sampled" ∧ 0 < count := by
  rw [isKnownCall, Bool.or_eq_true, decide_eq_true_eq, decide_eq_true_eq]

section Splitting

/-! Tokens with their places are taken apart as the tokens are. -/

variable {ts : List (Lexeme ν)} {t : Token ν} {us vs : List (Token ν)}

lemma exists_of_tokens_cons (h : tokens ts = t :: us) :
    ∃ start stop ts', ts = ⟨t, start, stop⟩ :: ts' ∧ tokens ts' = us := by
  obtain ⟨⟨_, start, stop⟩, ts', rfl, rfl, hts'⟩ := List.map_eq_cons_iff.mp h
  exact ⟨start, stop, ts', rfl, hts'⟩

lemma exists_of_tokens_append (h : tokens ts = us ++ t :: vs) :
    ∃ ts₁ start stop ts₂, ts = ts₁ ++ ⟨t, start, stop⟩ :: ts₂ ∧ tokens ts₁ = us ∧ tokens ts₂ = vs := by
  obtain ⟨ts₁, ts₂, rfl, hts₁, hts₂⟩ := List.map_eq_append_iff.mp h
  obtain ⟨start, stop, ts₃, rfl, hts₃⟩ := exists_of_tokens_cons hts₂
  exact ⟨ts₁, start, stop, ts₃, rfl, hts₁, hts₃⟩

lemma exists_of_tokens_singleton (h : tokens ts = [t]) : ∃ start stop, ts = [⟨t, start, stop⟩] := by
  obtain ⟨start, stop, ts', rfl, hts'⟩ := exists_of_tokens_cons h
  obtain rfl := List.map_eq_nil_iff.mp hts'
  exact ⟨start, stop, rfl⟩

lemma exists_of_tokens_enclosed {t' : Token ν} (h : tokens ts = t :: (us ++ [t'])) :
    ∃ start stop ts' start' stop', ts = ⟨t, start, stop⟩ :: (ts' ++ [⟨t', start', stop'⟩]) ∧ tokens ts' = us := by
  obtain ⟨start, stop, ts₁, rfl, hts₁⟩ := exists_of_tokens_cons h
  obtain ⟨ts', start', stop', ts₂, rfl, hts', hts₂⟩ := exists_of_tokens_append hts₁
  obtain rfl := List.map_eq_nil_iff.mp hts₂
  exact ⟨start, stop, ts', start', stop', rfl, hts'⟩

end Splitting

lemma Derives.outline {c : Category} {ts : List (Lexeme ν)} {values : List (SyntaxTree ν)} {n : Nat}
    (h : Derives c ts values n) : Outline isKnownCall c (tokens ts) values.length := by
  induction h with
  | sum _ ih => exact .sum ih
  | product _ ih => exact .product ih
  | factor _ ih => exact .factor ih
  | argument _ ih => exact .argument ih
  | additive _ hop _ ihl ihr =>
    rw [tokens_append]
    exact .additive ihl hop ihr
  | multiplicative _ hop _ ihl ihr =>
    rw [tokens_append]
    exact .multiplicative ihl hop ihr
  | power _ _ ihl ihr =>
    rw [tokens_append]
    exact .power ihl ihr
  | negation _ ih => exact .negation ih
  | number => exact .number
  | named => exact .named
  | group _ ih =>
    rw [tokens_cons, tokens_append]
    exact .group ih
  | normal _ ih =>
    rw [tokens_cons, tokens_cons, tokens_append]
    exact .call ih (isKnownCall_iff.mpr (.inl ⟨rfl, rfl⟩))
  | sampled h ih =>
    rw [tokens_cons, tokens_cons, tokens_append]
    exact .call ih (isKnownCall_iff.mpr (.inr ⟨rfl, List.length_pos_iff.mpr h.values_ne_nil⟩))
  | comma _ _ ih ihs =>
    rw [tokens_append, List.length_cons, Nat.add_comm]
    exact .comma ih ihs

def Derivable (c : Category) (us : List (Token ν)) (count : Nat) : Prop :=
  ∀ ts, tokens ts = us → ∃ values n, values.length = count ∧ Derives c ts values n

namespace Derivable

variable {c c' d : Category} {us : List (Token ν)}

lemma single (h : Derivable c us 1) {ts : List (Lexeme ν)} (hts : tokens ts = us) : ∃ t n, Derives c ts [t] n := by
  obtain ⟨values, n, hlength, hn⟩ := h ts hts
  obtain ⟨t, rfl⟩ := List.length_eq_one_iff.mp hlength
  exact ⟨t, n, hn⟩

lemma of_single (h : ∀ ts, tokens ts = us → ∃ t n, Derives c ts [t] n) : Derivable c us 1 := by
  intro ts hts
  obtain ⟨t, n, hn⟩ := h ts hts
  exact ⟨[t], n, rfl, hn⟩

lemma promote (h : Derivable c us 1)
    (hd : ∀ {ts : List (Lexeme ν)} {t n}, Derives c ts [t] n → Derives d ts [t] n) : Derivable d us 1 := by
  refine of_single fun ts hts => ?_
  obtain ⟨t, n, hn⟩ := h.single hts
  exact ⟨t, n, hd hn⟩

lemma operation {op : Operator} {vs : List (Token ν)} (hl : Derivable c us 1) (hr : Derivable c' vs 1)
    (hd : ∀ {ts us : List (Lexeme ν)} {l r m n start stop}, Derives c ts [l] m → Derives c' us [r] n →
      Derives d (ts ++ ⟨.operator op, start, stop⟩ :: us) [.operation op l r] (max m (1 + n))) :
    Derivable d (us ++ .operator op :: vs) 1 := by
  refine of_single fun ts hts => ?_
  obtain ⟨ts₁, start, stop, ts₂, rfl, hts₁, hts₂⟩ := exists_of_tokens_append hts
  obtain ⟨l, m, hl⟩ := hl.single hts₁
  obtain ⟨r, n, hr⟩ := hr.single hts₂
  exact ⟨_, _, hd hl hr⟩

end Derivable

lemma Outline.derivable {c : Category} {us : List (Token ν)} {count : Nat} (h : Outline isKnownCall c us count) :
    Derivable c us count := by
  induction h with
  | sum _ ih => exact ih.promote .sum
  | product _ ih => exact ih.promote .product
  | factor _ ih => exact ih.promote .factor
  | argument _ ih => exact ih.promote .argument
  | additive _ hop _ ihl ihr => exact ihl.operation ihr fun hl hr => .additive hl hop hr
  | multiplicative _ hop _ ihl ihr => exact ihl.operation ihr fun hl hr => .multiplicative hl hop hr
  | power _ _ ihl ihr => exact ihl.operation ihr .power
  | negation _ ih =>
    refine .of_single fun ts hts => ?_
    obtain ⟨start, stop, ts', rfl, hts'⟩ := exists_of_tokens_cons hts
    obtain ⟨t, n, hn⟩ := ih.single hts'
    exact ⟨_, _, .negation hn⟩
  | number =>
    refine .of_single fun ts hts => ?_
    obtain ⟨start, stop, rfl⟩ := exists_of_tokens_singleton hts
    exact ⟨_, _, .number⟩
  | named =>
    refine .of_single fun ts hts => ?_
    obtain ⟨start, stop, rfl⟩ := exists_of_tokens_singleton hts
    exact ⟨_, _, .named⟩
  | group _ ih =>
    refine .of_single fun ts hts => ?_
    obtain ⟨start, stop, inside, start', stop', rfl, hinside⟩ := exists_of_tokens_enclosed hts
    obtain ⟨t, n, hn⟩ := ih.single hinside
    exact ⟨_, _, .group hn⟩
  | call _ hname ih =>
    refine .of_single fun ts hts => ?_
    obtain ⟨start, stop, ts', rfl, hts'⟩ := exists_of_tokens_cons hts
    obtain ⟨start₁, stop₁, inside, start₂, stop₂, rfl, hinside⟩ := exists_of_tokens_enclosed hts'
    obtain ⟨values, n, rfl, hn⟩ := ih inside hinside
    rcases isKnownCall_iff.mp hname with ⟨rfl, hcount⟩ | ⟨rfl, -⟩
    · obtain ⟨mu, sigma, rfl⟩ := List.length_eq_two.mp hcount
      exact ⟨_, _, .normal hn⟩
    · exact ⟨_, _, .sampled hn⟩
  | bareCall hname => rcases isKnownCall_iff.mp hname with ⟨-, h⟩ | ⟨-, h⟩ <;> cases h
  | comma _ _ ih ihs =>
    intro ts hts
    obtain ⟨ts₁, start, stop, ts₂, rfl, hts₁, hts₂⟩ := exists_of_tokens_append hts
    obtain ⟨t, m, hm⟩ := ih.single hts₁
    obtain ⟨values, n, rfl, hn⟩ := ihs ts₂ hts₂
    exact ⟨t :: values, _, by rw [List.length_cons, Nat.add_comm], .comma hm hn⟩

lemma exists_derives_iff {ts : List (Lexeme ν)} :
    (∃ t n, Derives .sum ts [t] n) ↔ Outline isKnownCall .sum (tokens ts) 1 := by
  constructor
  · rintro ⟨t, n, h⟩
    exact h.outline
  · intro h
    exact h.derivable.single rfl

end Uncertainty.Formula
