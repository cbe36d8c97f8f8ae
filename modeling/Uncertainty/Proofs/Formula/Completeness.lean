import Uncertainty.Formula.Grammar
import Uncertainty.Proofs.Formula.Beginning

namespace Uncertainty.Formula

variable {ν : Type} {stop : Nat}

section Trees

variable {head f : Formula ν} {tail : List (Operator × Formula ν)} {op : Operator}

lemma tree_ofChain : (ofChain head tail).tree = treeFrom head.tree tail := by
  cases tail with
  | nil => rw [ofChain, List.isEmpty_nil, if_pos rfl, treeFrom]
  | cons step tail => rw [ofChain, List.isEmpty_cons, if_neg Bool.false_ne_true, tree]

lemma treeFrom_snoc (left : SyntaxTree ν) :
    treeFrom left (tail ++ [(op, f)]) = .operation op (treeFrom left tail) f.tree := by
  induction tail generalizing left with
  | nil => rw [List.nil_append, treeFrom, treeFrom, treeFrom]
  | cons step tail ih =>
    obtain ⟨op', g⟩ := step
    rw [List.cons_append, treeFrom, treeFrom]
    exact ih _

lemma call_sampled {fs : List (Formula ν)} {position : Nat} (h : fs.isEmpty = false) :
    call "sampled" position fs = .ok (.sampled fs position) := by
  simp [call, h]

end Trees

namespace Category

/-- A phrase may stand where operators at least as tight are asked for. -/
def rank : Category → Nat
  | arguments => 0
  | sum => 10
  | product => 20
  | factor => 30
  | atom => 31

/-- Operators after the phrase that bind at least as tightly would be read as a part of it. -/
def limit : Category → Nat
  | arguments => 0
  | sum => 11
  | product => 21
  | factor => 25
  | atom => 31

def Ends (c : Category) (rest : List (Lexeme ν)) : Prop :=
  Closed c.limit rest ∧ ∀ a b us, rest ≠ ⟨.openParen, a, b⟩ :: us

variable {c c' : Category} {rest : List (Lexeme ν)}

lemma Ends.mono (h : c.Ends rest) (hc : c.limit ≤ c'.limit) : c'.Ends rest := ⟨h.1.mono hc, h.2⟩

lemma ends_of_not_operator {t : Token ν} {a b : Nat} (h : ∀ op, t ≠ .operator op) (ht : t ≠ .openParen) :
    c.Ends (⟨t, a, b⟩ :: rest) := by
  refine ⟨closed_of_not_operator h, ?_⟩
  rintro _ _ _ he
  exact ht (congrArg Lexeme.token (List.cons.inj he).1)

lemma ends_operator {op : Operator} {a b : Nat} (h : op.precedence < c.limit) :
    c.Ends (⟨.operator op, a, b⟩ :: rest) := by
  refine ⟨closed_operator h, ?_⟩
  rintro _ _ _ he
  cases he

lemma ends_nil : c.Ends ([] : List (Lexeme ν)) := ⟨nofun, nofun⟩

end Category

def Opening (stop : Nat) (c : Category) (ts : List (Lexeme ν)) (t : SyntaxTree ν) (n : Nat) : Prop :=
  ∃ head tail, treeFrom head.tree tail = t ∧ Begins stop ts head tail c.rank c.Ends n

namespace Opening

variable {c c' d : Category} {ts us : List (Lexeme ν)} {t l r : SyntaxTree ν} {m n start stop₁ start' stop₁' : Nat}

lemma weaken (h : Opening stop c ts t n) (hrank : c'.rank ≤ c.rank) (hlimit : c'.limit ≤ c.limit) :
    Opening stop c' ts t n := by
  obtain ⟨head, tail, ht, hb⟩ := h
  exact ⟨head, tail, ht, hb.mono hrank fun rest hrest => hrest.mono hlimit⟩

lemma chain {op : Operator} (hl : Opening stop c ts l m) (hr : Opening stop c' us r n)
    (hrank : op.precedence ≤ c.rank) (hlimit : op.precedence < c.limit) (hrank' : operandPrecedence op ≤ c'.rank)
    (hd : d.rank = op.precedence) (hd' : d.limit ≤ c'.limit) (hop : d.limit ≤ operandPrecedence op) :
    Opening stop d (ts ++ ⟨.operator op, start, stop₁⟩ :: us) (.operation op l r) (max m (1 + n)) := by
  obtain ⟨head, tail, rfl, hb⟩ := hl
  obtain ⟨head', tail', rfl, hb'⟩ := hr
  refine ⟨head, tail ++ [(op, ofChain head' tail')], ?_, ?_⟩
  · rw [treeFrom_snoc, tree_ofChain]
  · rw [hd]
    exact hb.chain hb' hrank (fun rest => Category.ends_operator hlimit) hrank' fun rest hrest =>
      ⟨hrest.mono hd', hrest.1.mono hop⟩

lemma negation (h : Opening stop .factor ts t n) :
    Opening stop .factor (⟨.operator .sub, start, stop₁⟩ :: ts) (.negation t) (1 + n) := by
  obtain ⟨head, tail, rfl, hb⟩ := h
  refine ⟨.negation (ofChain head tail), [], ?_, hb.minus (by decide) fun rest hrest => ⟨hrest, hrest.1⟩⟩
  rw [treeFrom, tree, tree_ofChain]

lemma group (h : Opening stop .sum ts t n) :
    Opening stop .atom (⟨.openParen, start, stop₁⟩ :: (ts ++ [⟨.closeParen, start', stop₁'⟩])) t (1 + n) := by
  obtain ⟨head, tail, rfl, hb⟩ := h
  refine ⟨ofChain head tail, [], ?_, hb.paren fun rest => Category.ends_of_not_operator nofun nofun⟩
  rw [treeFrom, tree_ofChain]

lemma number {v : ν} : Opening stop .atom [⟨.number v, start, stop₁⟩] (.number v) 1 := by
  refine ⟨.number v, [], ?_, .number⟩
  rw [treeFrom, tree]

lemma named {name : String} : Opening (ν := ν) stop .atom [⟨.identifier name, start, stop₁⟩] (.named name start) 1 := by
  refine ⟨.named name start, [], ?_, .single Nat.one_pos ?_⟩
  · rw [treeFrom, tree]
  · intro n rest hrest
    exact .of_eq (Nat.le_add_left 1 n) (signed_named hrest.2)

end Opening

def ReadsArguments (stop : Nat) (ts : List (Lexeme ν)) (values : List (SyntaxTree ν)) (n : Nat) : Prop :=
  ∃ fs, trees fs = values ∧ ∀ levels done start stop₁ rest,
    Within n levels (.ok (done.reverse ++ fs, ⟨.closeParen, start, stop₁⟩ :: rest))
      (view (arguments (level stop levels) done (ts ++ ⟨.closeParen, start, stop₁⟩ :: rest) (Nat.le_refl _)))

namespace ReadsArguments

variable {ts us : List (Lexeme ν)} {t : SyntaxTree ν} {values : List (SyntaxTree ν)} {m n start stop₁ : Nat}

lemma argument (h : Opening stop .sum ts t n) : ReadsArguments stop ts [t] n := by
  obtain ⟨head, tail, rfl, hb⟩ := h
  refine ⟨[ofChain head tail], ?_, ?_⟩
  · rw [trees, trees, tree_ofChain]
  · intro levels done start stop₁ rest
    exact arguments_last (hb.operand (Nat.zero_le _) (Category.ends_of_not_operator nofun nofun)
      (closed_of_not_operator nofun))

lemma comma (h : Opening stop .sum ts t m) (hr : ReadsArguments stop us values n) :
    ReadsArguments stop (ts ++ ⟨.comma, start, stop₁⟩ :: us) (t :: values) (max m n) := by
  obtain ⟨head, tail, rfl, hb⟩ := h
  obtain ⟨fs, rfl, hfs⟩ := hr
  refine ⟨ofChain head tail :: fs, ?_, ?_⟩
  · rw [trees, tree_ofChain]
  · intro levels done start' stop₁' rest
    have hnext := hfs levels (ofChain head tail :: done) start' stop₁' rest
    simp only [List.reverse_cons, List.append_assoc, List.singleton_append] at hnext
    have hoperand : Within m levels
        (.ok (ofChain head tail, ⟨.comma, start, stop₁⟩ :: (us ++ ⟨.closeParen, start', stop₁'⟩ :: rest))) _ :=
      hb.operand (Nat.zero_le _) (Category.ends_of_not_operator (by rintro _ ⟨⟩) (by rintro ⟨⟩))
        (closed_of_not_operator (by rintro _ ⟨⟩))
    simp only [List.append_assoc, List.cons_append]
    exact arguments_more hoperand hnext

lemma call {name : String} {start' stop₁' start₂ stop₂ : Nat} (h : ReadsArguments stop ts values n)
    (hfirst : ∃ t us, ts = t :: us ∧ t.token ≠ .closeParen)
    (hcall : ∀ fs, trees fs = values → ∃ f : Formula ν, call name start fs = .ok f ∧ f.tree = t) :
    Opening stop .atom (⟨.identifier name, start, stop₁⟩ :: ⟨.openParen, start', stop₁'⟩ ::
      (ts ++ [⟨.closeParen, start₂, stop₂⟩])) t (1 + n) := by
  obtain ⟨fs, hfs, hreads⟩ := h
  obtain ⟨f, hf, rfl⟩ := hcall fs hfs
  refine ⟨f, [], by rw [treeFrom], .single (by omega) ?_⟩
  intro levels rest _
  have hfirst' : ∀ a b us, ts ++ ⟨.closeParen, start₂, stop₂⟩ :: rest ≠ ⟨.closeParen, a, b⟩ :: us := by
    rintro a b us he
    obtain ⟨t, us', rfl, ht⟩ := hfirst
    exact ht (congrArg Lexeme.token (List.cons.inj he).1)
  rw [List.cons_append, List.cons_append, List.append_assoc, List.singleton_append]
  exact signed_call_within hfirst' (hreads levels [] start₂ stop₂ rest) hf

end ReadsArguments

namespace Derives

variable {c : Category} {ts : List (Lexeme ν)} {values : List (SyntaxTree ν)} {n : Nat}

lemma first (h : Derives c ts values n) : ∃ t us, ts = t :: us ∧ t.token ≠ .closeParen := by
  induction h with
  | sum _ ih | product _ ih | factor _ ih | argument _ ih => exact ih
  | additive _ _ _ ih _ | multiplicative _ _ _ ih _ | power _ _ ih _ | comma _ _ ih _ =>
    obtain ⟨t, us, rfl, ht⟩ := ih
    exact ⟨t, _, rfl, ht⟩
  | negation | number | named | group | normal | sampled => exact ⟨_, _, rfl, nofun⟩

lemma values_ne_nil (h : Derives .arguments ts values n) : values ≠ [] := by
  cases h <;> exact List.cons_ne_nil _ _

def Reads (stop : Nat) : Category → List (Lexeme ν) → List (SyntaxTree ν) → Nat → Prop
  | .arguments, ts, values, n => ReadsArguments stop ts values n
  | c, ts, [t], n => Opening stop c ts t n
  | _, _, _, _ => False

lemma reads (h : Derives c ts values n) (stop : Nat) : Reads stop c ts values n := by
  induction h with
  | sum _ ih | product _ ih | factor _ ih => exact Opening.weaken ih (by decide) (by decide)
  | additive _ hop _ ihl ihr | multiplicative _ hop _ ihl ihr =>
    rcases hop with rfl | rfl <;>
      exact Opening.chain ihl ihr (by decide) (by decide) (by decide) rfl (by decide) (by decide)
  | power _ _ ihl ihr => exact Opening.chain ihl ihr (by decide) (by decide) (by decide) rfl (by decide) (by decide)
  | negation _ ih => exact Opening.negation ih
  | number => exact Opening.number
  | named => exact Opening.named
  | group _ ih => exact Opening.group ih
  | normal h ih =>
    refine ReadsArguments.call ih h.first ?_
    intro fs hfs
    match fs, hfs with
    | [mu, sigma], hfs =>
      simp only [trees, List.cons.injEq] at hfs
      obtain ⟨rfl, rfl, -⟩ := hfs
      exact ⟨.normal mu sigma _, if_pos rfl, by rw [tree]⟩
  | sampled h ih =>
    refine ReadsArguments.call ih h.first ?_
    rintro fs rfl
    have hne : fs.isEmpty = false := by
      cases fs with
      | nil => exact absurd (by rw [trees]) h.values_ne_nil
      | cons f fs => rfl
    exact ⟨_, call_sampled hne, by rw [tree]⟩
  | argument _ ih => exact ReadsArguments.argument ih
  | comma _ _ ih ihr => exact ReadsArguments.comma ih ihr

variable {t : SyntaxTree ν}

lemma level_within (h : Derives .sum ts [t] n) (stop : Nat) :
    ∃ f : Formula ν, f.tree = t ∧ ∀ levels, Within n levels (.ok (f, [])) (view (level stop levels 0 ts)) := by
  obtain ⟨head, tail, ht, hb⟩ := h.reads stop
  refine ⟨ofChain head tail, by rw [tree_ofChain, ht], ?_⟩
  intro levels
  have hw := hb.operand (n := levels) (Nat.zero_le _) Category.ends_nil nofun
  rwa [List.append_nil] at hw

end Derives

end Uncertainty.Formula
