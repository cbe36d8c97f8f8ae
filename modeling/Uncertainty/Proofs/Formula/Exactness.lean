import Mathlib
import Uncertainty.Number.Binary64
import Uncertainty.Proofs.Formula.Completeness

/-! What is read is a phrase of the grammar, so formulas are exactly its sentences. -/

namespace Uncertainty.Formula

variable {ν α β : Type}

inductive Judged (P : α → Prop) : Except (ExpressionError ν) α → Prop
  | ok {x : α} : P x → Judged P (.ok x)
  | malformed {position : Nat} {fault : Fault ν} : Judged P (.error (.malformed position fault))

namespace Judged

variable {P Q : α → Prop} {R : β → Prop} {r : Except (ExpressionError ν) α}

lemma mono (h : Judged P r) (hPQ : ∀ x, P x → Q x) : Judged Q r := by
  cases h with
  | ok hx => exact .ok (hPQ _ hx)
  | malformed => exact .malformed

lemma bind {f : α → Except (ExpressionError ν) β} (h : Judged P r) (hf : ∀ x, P x → Judged R (f x)) :
    Judged R (r.bind f) := by
  cases h with
  | ok hx => exact hf _ hx
  | malformed => exact .malformed

lemma map {f : α → β} (h : Judged P r) (hf : ∀ x, P x → R (f x)) : Judged R (r.map f) := by
  cases h with
  | ok hx => exact .ok (hf _ hx)
  | malformed => exact .malformed

end Judged

namespace Category

def asked (least : Nat) : Category :=
  if least ≤ 10 then sum else if least ≤ 20 then product else factor

def made : Operator → Category
  | .add | .sub => sum
  | .mul | .div => product
  | .pow => factor

lemma rank_made (op : Operator) : (made op).rank = op.precedence := by
  cases op <;> rfl

end Category

namespace Derives

variable {c : Category} {ts us : List (Lexeme ν)} {t l r : SyntaxTree ν} {m n start stop : Nat}

lemma toFactor (h : Derives c ts [t] n) (hc : 20 < c.rank) : Derives .factor ts [t] n := by
  cases c with
  | factor => exact h
  | atom => exact .factor h
  | sum | product | arguments => exact absurd hc (by decide)

lemma toProduct (h : Derives c ts [t] n) (hc : 10 < c.rank) : Derives .product ts [t] n := by
  cases c with
  | product => exact h
  | factor | atom => exact .product (h.toFactor (by decide))
  | sum | arguments => exact absurd hc (by decide)

lemma toSum (h : Derives c ts [t] n) (hc : 0 < c.rank) : Derives .sum ts [t] n := by
  cases c with
  | sum => exact h
  | product | factor | atom => exact .sum (h.toProduct (by decide))
  | arguments => exact absurd hc (by decide)

lemma weaken {least : Nat} (h : Derives c ts [t] n) (hc : 0 < c.rank) (hleast : least ≤ c.rank) :
    Derives (.asked least) ts [t] n := by
  rw [Category.asked]
  split
  · exact h.toSum hc
  · split
    · exact h.toProduct (by omega)
    · exact h.toFactor (by omega)

lemma extend {op : Operator} (h : Derives c ts [l] m) (hc : 0 < c.rank) (hop : op.precedence < c.limit)
    (hr : Derives (.asked (operandPrecedence op)) us [r] n) :
    Derives (.made op) (ts ++ ⟨.operator op, start, stop⟩ :: us) [.operation op l r] (max m (1 + n)) := by
  cases op with
  | add => exact .additive (h.toSum hc) (.inl rfl) hr
  | sub => exact .additive (h.toSum hc) (.inr rfl) hr
  | mul => exact .multiplicative (h.toProduct (by revert hop; cases c <;> decide)) (.inl rfl) hr
  | div => exact .multiplicative (h.toProduct (by revert hop; cases c <;> decide)) (.inr rfl) hr
  | pow =>
    cases c with
    | atom => exact .power h hr
    | sum | product | factor | arguments => exact absurd hop (by decide)

end Derives

lemma Closed.made {op : Operator} {ts : List (Lexeme ν)} (h : Closed (operandPrecedence op) ts) :
    Closed (Category.made op).limit ts := by
  -- Only the limit of a factor differs, and no operator lies between the two.
  intro op' start stop rest he
  have hlt := h op' start stop rest he
  revert hlt
  cases op <;> cases op' <;> decide

lemma closed_atom {ts : List (Lexeme ν)} : Closed Category.atom.limit ts := by
  intro op _ _ _ _
  cases op <;> decide

/-- A beginning of the tokens, with the formula that it is read as and the tokens after it, is a phrase that nests
at most so deep. -/
def Phrase (c : Category) (levels : Nat) (ts : List (Lexeme ν)) (x : Formula ν × List (Lexeme ν)) : Prop :=
  ∃ us n, ts = us ++ x.2 ∧ n ≤ levels ∧ Derives c us [x.1.tree] n

def Sound (levels : Nat) (operand : OperandParser ν) : Prop :=
  ∀ least ts, least ≤ 30 →
    Judged (fun x => Phrase (.asked least) levels ts x ∧ Closed least x.2) (view (operand least ts))

variable {stop levels : Nat} {ts : List (Lexeme ν)} {operand : OperandParser ν}

lemma close_judged :
    Judged (fun x => ∃ start stop₁, ts = ⟨.closeParen, start, stop₁⟩ :: x.2) (view (close stop ts)) := by
  unfold close
  split
  · exact .ok ⟨_, _, rfl⟩
  · exact .malformed

lemma eq_of_afterComma? {rest : List (Lexeme ν)} (h : afterComma? ts = some rest) :
    ∃ start stop, ts = ⟨.comma, start, stop⟩ :: rest := by
  unfold afterComma? at h
  split at h
  · cases h
    exact ⟨_, _, rfl⟩
  · cases h

lemma arguments_judged (hop : Sound levels operand) {done : List (Formula ν)} {bound : Nat} (hb : ts.length ≤ bound) :
    Judged (fun x => ∃ us n fs, ts = us ++ x.2 ∧ n ≤ levels ∧ x.1 = done.reverse ++ fs ∧
      Derives .arguments us (trees fs) n) (view (arguments operand done ts hb)) := by
  induction hn : ts.length using Nat.strongRecOn generalizing ts done bound with
  | ind k ih =>
    rw [arguments_step]
    refine (hop 0 ts (Nat.zero_le _)).bind ?_
    rintro ⟨f, rest⟩ ⟨⟨us, n, hts, hn', hus⟩, -⟩
    dsimp only at hts hus ⊢
    split
    · rename_i rest' hcomma
      obtain ⟨start, stop, rfl⟩ := eq_of_afterComma? hcomma
      refine (ih rest'.length ?_ (Nat.le_refl _) rfl).mono ?_
      · rw [← hn, hts, List.length_append, List.length_cons]
        omega
      · rintro ⟨_, rest⟩ ⟨us', n', fs, rfl, hn'', rfl, hus'⟩
        refine ⟨us ++ ⟨.comma, start, stop⟩ :: us', max n n', f :: fs, ?_, by omega, ?_, ?_⟩
        · rw [hts, List.append_assoc, List.cons_append]
        · simp
        · rw [trees]
          exact .comma hus hus'
    · refine .ok ⟨us, n, [f], hts, hn', ?_, ?_⟩
      · simp
      · rw [trees, trees]
        exact .argument hus

lemma callArguments_judged (hop : Sound levels operand) :
    Judged (fun x => x.1 ≠ [] → ∃ us n start stop₁, ts = us ++ ⟨.closeParen, start, stop₁⟩ :: x.2 ∧ n ≤ levels ∧
      Derives .arguments us (trees x.1) n) (view (callArguments stop operand ts)) := by
  by_cases hfirst : ∃ start stop₁ us, ts = ⟨.closeParen, start, stop₁⟩ :: us
  · obtain ⟨start, stop₁, us, rfl⟩ := hfirst
    exact .ok fun hne => absurd rfl hne
  · simp only [not_exists] at hfirst
    rw [callArguments_some hfirst]
    refine (arguments_judged hop (Nat.le_refl _)).bind ?_
    rintro ⟨_, _⟩ ⟨us, n, fs, hts, hn, rfl, hus⟩
    refine close_judged.map ?_
    rintro ⟨_, rest⟩ ⟨start, stop₁, hrest⟩ _
    exact ⟨us, n, start, stop₁, by rw [hts, hrest], hn, hus⟩

lemma call_nil_judged {P : Formula ν → Prop} {name : String} {start : Nat} : Judged P (call name start []) := by
  unfold call
  split
  · exact .malformed
  · split <;> exact .malformed

lemma call_judged {name : String} {start n : Nat} {us : List (Lexeme ν)} {fs : List (Formula ν)}
    (h : Derives .arguments us (trees fs) n) :
    Judged (fun f => ∀ stop₁ start' stop₁' start₂ stop₂, Derives .atom (⟨.identifier name, start, stop₁⟩ ::
      ⟨.openParen, start', stop₁'⟩ :: (us ++ [⟨.closeParen, start₂, stop₂⟩])) [f.tree] (1 + n))
      (call name start fs) := by
  unfold call
  split
  · subst name
    split
    · refine .ok ?_
      intros
      rw [trees, trees, trees] at h
      rw [tree]
      exact .normal h
    · exact .malformed
  · split
    · subst name
      split
      · exact .malformed
      · refine .ok ?_
        intros
        rw [tree]
        exact .sampled h
    · exact .malformed

lemma signed_judged (hop : Sound levels operand) :
    Judged (fun x => ∃ c : Category, 30 ≤ c.rank ∧ Closed c.limit x.2 ∧ Phrase c (levels + 1) ts x)
      (view (signed stop operand ts)) := by
  match ts with
  | [] => exact .malformed
  | ⟨.closeParen, _, _⟩ :: _ | ⟨.comma, _, _⟩ :: _ => exact .malformed
  | ⟨.number v, start, stop₁⟩ :: rest =>
    exact .ok ⟨.atom, by decide, closed_atom, [_], 1, rfl, Nat.le_add_left 1 levels, by rw [tree]; exact .number⟩
  | ⟨.operator op, _, _⟩ :: _ =>
    cases op with
    | sub =>
      rw [signed_minus]
      refine (hop negationPrecedence _ (by decide)).bind ?_
      rintro ⟨f, rest⟩ ⟨⟨us, n, rfl, hn, hus⟩, hclosed⟩
      refine .ok ⟨.factor, Nat.le_refl _, hclosed, _, 1 + n, (List.cons_append ..).symm, by omega, ?_⟩
      rw [tree]
      exact .negation hus
    | add | mul | div | pow => exact .malformed
  | ⟨.openParen, a, b⟩ :: _ =>
    rw [signed_paren]
    refine (hop 0 _ (Nat.zero_le _)).bind ?_
    rintro ⟨f, _⟩ ⟨⟨us, n, hts, hn, hus⟩, -⟩
    refine close_judged.map ?_
    rintro ⟨_, rest⟩ ⟨start, stop₁, hrest⟩
    refine ⟨.atom, by decide, closed_atom, ⟨.openParen, a, b⟩ :: (us ++ [⟨.closeParen, start, stop₁⟩]), 1 + n, ?_,
      by omega, .group hus⟩
    rw [hts, hrest, List.cons_append, List.append_assoc, List.singleton_append]
  | ⟨.identifier name, start, stop₁⟩ :: rest =>
    by_cases hopen : ∃ a b us, rest = ⟨.openParen, a, b⟩ :: us
    · obtain ⟨a, b, rest, rfl⟩ := hopen
      rw [signed_call]
      refine (callArguments_judged hop).bind ?_
      rintro ⟨fs, rest'⟩ hfs
      by_cases hne : fs = []
      · subst hne
        exact call_nil_judged.map (P := fun _ => False) fun _ h => h.elim
      · obtain ⟨us, n, start₂, stop₂, rfl, hn, hus⟩ := hfs hne
        refine (call_judged hus).map ?_
        intro f hf
        refine ⟨.atom, by decide, closed_atom, _, 1 + n, ?_, by omega, hf stop₁ a b start₂ stop₂⟩
        rw [List.cons_append, List.cons_append, List.append_assoc, List.singleton_append]
    · simp only [not_exists] at hopen
      rw [signed_named hopen]
      exact .ok ⟨.atom, by decide, closed_atom, [_], 1, rfl, Nat.le_add_left 1 levels, by rw [tree]; exact .named⟩

lemma resumed_judged (hop : Sound levels (@level ν stop levels)) {least n : Nat} {c : Category} {head : Formula ν}
    {done : List (Operator × Formula ν)} {us rest : List (Lexeme ν)}
    (hus : Derives c us [treeFrom head.tree done.reverse] n) (hn : n ≤ levels + 1) (hc : 0 < c.rank)
    (hleast : least ≤ c.rank) (hclosed : Closed c.limit rest) :
    Judged (fun x => Phrase (.asked least) (levels + 1) (us ++ rest) x ∧ Closed least x.2)
      (resumed stop levels least head done rest) := by
  induction hk : rest.length using Nat.strongRecOn generalizing c done us rest n with
  | ind k ih =>
    by_cases hnext : Closed least rest
    · rw [resumed_closed hnext]
      refine .ok ⟨⟨us, n, rfl, hn, ?_⟩, hnext⟩
      rw [tree_ofChain]
      exact hus.weaken hc hleast
    · simp only [Closed, not_forall, Nat.not_lt] at hnext
      obtain ⟨op, start, stop₁, rest, rfl, hop'⟩ := hnext
      rw [resumed_operator hop']
      refine (hop (operandPrecedence op) rest (by cases op <;> decide)).bind ?_
      rintro ⟨f, rest'⟩ ⟨⟨us', n', rfl, hn', hus'⟩, hrest⟩
      have hextended : Derives (.made op) (us ++ ⟨.operator op, start, stop₁⟩ :: us') _ (max n (1 + n')) :=
        hus.extend hc (hclosed op start stop₁ _ rfl) hus'
      rw [← treeFrom_snoc, ← List.reverse_cons] at hextended
      have hshorter : rest'.length < k := by
        simp only [← hk, List.length_cons, List.length_append]
        omega
      have hlater := ih rest'.length hshorter hextended (by omega)
        (by rw [Category.rank_made]; cases op <;> decide) (by rw [Category.rank_made]; exact hop') hrest.made rfl
      rw [List.append_assoc, List.cons_append] at hlater
      exact hlater

lemma level_sound (stop levels : Nat) : Sound levels (@level ν stop levels) := by
  induction levels with
  | zero =>
    intro least ts _
    exact .malformed
  | succ levels ih =>
    intro least ts hleast
    rw [level_succ]
    refine (signed_judged ih).bind ?_
    rintro ⟨head, rest⟩ ⟨c, hc, hclosed, us, n, rfl, hn, hus⟩
    exact resumed_judged ih hus hn (by omega) (Nat.le_trans hleast hc) hclosed

lemma ofTokens_judged (stop : Nat) (ts : List (Lexeme ν)) :
    Judged (fun f => ∃ n, Derives .sum ts [f.tree] n ∧ n ≤ maxNesting) (ofTokens stop ts) := by
  rw [ofTokens_eq]
  refine (level_sound stop maxNesting 0 ts (Nat.zero_le _)).bind ?_
  rintro ⟨f, rest⟩ ⟨⟨us, n, rfl, hn, hus⟩, -⟩
  dsimp only at hus ⊢
  split
  · rename_i hrest
    obtain rfl := List.isEmpty_iff.mp hrest
    rw [List.append_nil]
    exact .ok ⟨n, hus, hn⟩
  · exact .malformed

lemma Derives.ofTokens_within {t : SyntaxTree ν} {n : Nat} (h : Derives .sum ts [t] n) (stop : Nat) :
    ∃ f : Formula ν, f.tree = t ∧ Within n maxNesting (.ok f) (ofTokens stop ts) := by
  obtain ⟨f, hf, hw⟩ := h.level_within stop
  refine ⟨f, hf, ?_⟩
  rw [ofTokens_eq]
  exact (hw maxNesting).bind_ok

lemma Derives.unique {t t' : SyntaxTree ν} {n n' : Nat} (h : Derives .sum ts [t] n) (h' : Derives .sum ts [t'] n') :
    t = t' ∧ n = n' := by
  obtain ⟨f, rfl, hf⟩ := h.level_within 0
  obtain ⟨g, rfl, hg⟩ := h'.level_within 0
  obtain ⟨hfg, hn⟩ := Within.unique hf hg
  exact ⟨congrArg (fun x => tree x.1) hfg, hn⟩

section Parsing

variable [Number ν] {source : String}

lemma parse_eq (h : Token.tokenize source = .ok ts) : parse source = ofTokens source.utf8ByteSize ts := by
  rw [parse, h]

lemma derives_of_parse {f : Formula ν} (h : parse source = .ok f) :
    ∃ ts n, Token.tokenize source = .ok ts ∧ Derives .sum ts [f.tree] n ∧ n ≤ maxNesting := by
  cases htokens : (Token.tokenize source : Except (ExpressionError ν) (List (Lexeme ν))) with
  | error e =>
    rw [parse, htokens] at h
    cases h
  | ok ts =>
    rw [parse_eq htokens] at h
    have hj := ofTokens_judged source.utf8ByteSize ts
    rw [h] at hj
    cases hj with
    | ok hj =>
      obtain ⟨n, hn, hle⟩ := hj
      exact ⟨ts, n, rfl, hn, hle⟩

theorem parse_reads_exactly_sentences (h : Token.tokenize source = .ok ts) :
    (∀ t, (∃ f : Formula ν, parse source = .ok f ∧ f.tree = t) ↔ ∃ n, Derives .sum ts [t] n ∧ n ≤ maxNesting) ∧
      (∀ e : ExpressionError ν, parse source = .error e → ∃ position fault, e = .malformed position fault) ∧
      (∀ t n, Derives .sum ts [t] n → maxNesting < n →
        ∃ position, (parse source : Except (ExpressionError ν) (Formula ν)) = .error (.malformed position .tooDeep)) ∧
      ∀ t t' n n', Derives .sum ts [t] n → Derives .sum ts [t'] n' → t = t' ∧ n = n' := by
  rw [parse_eq h]
  refine ⟨?_, ?_, ?_, fun _ _ _ _ ht ht' => ht.unique ht'⟩
  · intro t
    constructor
    · rintro ⟨f, hf, rfl⟩
      have hj := ofTokens_judged source.utf8ByteSize ts
      rw [hf] at hj
      cases hj with
      | ok hj => exact hj
    · rintro ⟨n, hn, hle⟩
      obtain ⟨f, hf, hw⟩ := hn.ofTokens_within source.utf8ByteSize
      rw [Within, if_pos hle] at hw
      exact ⟨f, hw, hf⟩
  · intro e he
    have hj := ofTokens_judged source.utf8ByteSize ts
    rw [he] at hj
    cases hj with
    | malformed => exact ⟨_, _, rfl⟩
  · intro t n hn hlt
    obtain ⟨f, -, hw⟩ := hn.ofTokens_within source.utf8ByteSize
    rwa [Within, if_neg (Nat.not_le.mpr hlt)] at hw

end Parsing

theorem differences_read_as_sentence :
    ∃ ts : List (Lexeme Float), Token.tokenize "a - b * -c ^ d - e" = .ok ts ∧
      ∃ n, Derives .sum ts [.operation .sub (.operation .sub (.named "a" 0) (.operation .mul (.named "b" 4)
        (.negation (.operation .pow (.named "c" 9) (.named "d" 13))))) (.named "e" 17)] n ∧ n ≤ maxNesting := by
  have htokens : Token.tokenize "a - b * -c ^ d - e" = .ok [⟨.identifier "a", 0, 1⟩, ⟨.operator .sub, 2, 3⟩,
      ⟨.identifier "b", 4, 5⟩, ⟨.operator .mul, 6, 7⟩, ⟨.operator .sub, 8, 9⟩, ⟨.identifier "c", 9, 10⟩,
      ⟨.operator .pow, 11, 12⟩, ⟨.identifier "d", 13, 14⟩, ⟨.operator .sub, 15, 16⟩,
      (⟨.identifier "e", 17, 18⟩ : Lexeme Float)] := by
    cbv
  have hparse : parse "a - b * -c ^ d - e" = .ok (.chain (.named "a" 0)
      [(.sub, .chain (.named "b" 4) [(.mul, .negation (.chain (.named "c" 9) [(.pow, .named "d" 13)]))]),
        (.sub, (.named "e" 17 : Formula Float))]) := by
    cbv
  exact ⟨_, htokens, ((parse_reads_exactly_sentences htokens).1 _).mp ⟨_, hparse, by cbv⟩⟩

end Uncertainty.Formula
