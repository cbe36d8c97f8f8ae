import Uncertainty.Proofs.Formula.Verdict
import Uncertainty.Proofs.Formula.Outline
import Uncertainty.Proofs.Formula.Reduction
import Uncertainty.Proofs.Formula.Roundtrip
import Uncertainty.Proofs.Formula.Splicing

namespace Uncertainty.Formula

variable {ν : Type}

section Sentences

variable {allowed : String → Nat → Bool} {texts : String → List (Token ν)} {t : Token ν} {us : List (Token ν)}
  {p q : Place}

namespace Place

/-- Where a reader is that has read another text for a variable: after that there is no name that a call could have. -/
def settled (after : List (Token ν)) : Place → Place
  | ⟨.operator (some name), bs⟩ => if startsCall after then ⟨.operator (some name), bs⟩ else ⟨.operator none, bs⟩
  | p => p

lemma step_settled : (p.settled (t :: us)).step allowed t = p.step allowed t := by
  obtain ⟨awaited, bs⟩ := p
  match awaited with
  | .operand first => rfl
  | .operator none => rfl
  | .operator (some name) =>
    cases t with
    | openParen => rfl
    | closeParen | comma => rcases bs with _ | ⟨_ | _, bs⟩ <;> rfl
    | number | identifier | operator => rfl

lemma settled_of_step (h : p.step allowed t = some q) (ht : ∀ name, t = .identifier name → startsCall us = true) :
    q.settled us = q := by
  unfold step at h
  split at h
  case h_2 name =>
    cases h
    exact if_pos (ht name rfl)
  case h_5 | h_9 =>
    split at h
    · cases h
      rfl
    · cases h
  case h_11 => cases h
  all_goals
    cases h
    rfl

lemma isEnd_settled_iff : (p.settled us).IsEnd ↔ p.IsEnd := by
  obtain ⟨awaited, bs⟩ := p
  match awaited with
  | .operand first => rfl
  | .operator none => rfl
  | .operator (some name) =>
    rw [settled]
    split
    · rfl
    · constructor
      · rintro ⟨o, ho⟩
        cases ho
        exact ⟨_, rfl⟩
      · rintro ⟨o, ho⟩
        cases ho
        exact ⟨_, rfl⟩

lemma run_replacement {name : String} {inside : List (Token ν)} (hinside : Outline allowed .sum inside 1)
    (hus : startsCall us = false) :
    (p.settled (.identifier name :: us)).run allowed (.openParen :: (inside ++ [.closeParen])) =
      (p.step allowed (.identifier name : Token ν)).map (settled us) := by
  obtain ⟨awaited, bs⟩ := p
  match awaited with
  | .operand first =>
    have hafter : settled us ⟨.operator (some name), bs⟩ = ⟨.operator none, bs⟩ :=
      if_neg (by rw [hus]; exact Bool.false_ne_true)
    refine (passes_group hinside.passes first bs).trans ?_
    exact congrArg some hafter.symm
  | .operator none => rfl
  | .operator (some name') => rfl

end Place

def Enclosed (allowed : String → Nat → Bool) (texts : String → List (Token ν)) (us : List (Token ν)) : Prop :=
  ∀ name, .inl name ∈ parts us →
    ∃ inside, texts name = .openParen :: (inside ++ [.closeParen]) ∧ Outline allowed .sum inside 1

lemma run_spliced (h : Enclosed allowed texts us) (p : Place) :
    (p.settled us).run allowed (spliced texts us) = (p.run allowed us).map (Place.settled ([] : List (Token ν))) := by
  induction us generalizing p with
  | nil => rfl
  | cons t us ih =>
    have hstep : (p.settled (t :: us)).run allowed (Sum.elim texts (fun t => [t]) (part t us)) =
        (p.step allowed t).map (Place.settled us) := by
      cases hpart : part t us with
      | inl name =>
        obtain ⟨inside, htext, hinside⟩ := h name (by rw [parts, hpart]; exact List.mem_cons_self)
        obtain ⟨rfl, hus⟩ := eq_of_part_inl hpart
        rw [Sum.elim_inl, htext]
        exact Place.run_replacement hinside hus
      | inr t' =>
        obtain ⟨rfl, hcall⟩ := eq_of_part_inr hpart
        rw [Sum.elim_inr, Place.run_singleton, Place.step_settled]
        cases hq : p.step allowed t' with
        | none => rfl
        | some q => exact congrArg some (Place.settled_of_step hq hcall).symm
    rw [spliced_cons, Place.run_append, hstep, Place.run_cons]
    cases p.step allowed t with
    | none => rfl
    | some q => exact ih (fun name hname => h name (List.mem_cons_of_mem _ hname)) q

lemma outline_spliced_iff (h : Enclosed allowed texts us) :
    Outline allowed .sum (spliced texts us) 1 ↔ Outline allowed .sum us 1 := by
  have hrun : Place.start.run allowed (spliced texts us) = _ := run_spliced h .start
  rw [outline_iff_run, outline_iff_run, hrun]
  constructor
  · rintro ⟨q, hq, hend⟩
    obtain ⟨p, hp, rfl⟩ := Option.map_eq_some_iff.mp hq
    exact ⟨p, hp, Place.isEnd_settled_iff.mp hend⟩
  · rintro ⟨p, hp, hend⟩
    exact ⟨_, Option.map_eq_some_iff.mpr ⟨p, hp, rfl⟩, Place.isEnd_settled_iff.mpr hend⟩

end Sentences

lemma Derives.pos {c : Category} {ts : List (Lexeme ν)} {values : List (SyntaxTree ν)} {n : Nat}
    (h : Derives c ts values n) : 0 < n := by
  induction h <;> omega

section Trees

variable [Number ν] {env env' : Environment ν} {texts : String → List (Token ν)} {c c' d : Category}

def Replaces (env env' : Environment ν) (name : String) (us : List (Token ν)) : Prop :=
  ∀ ts, tokens ts = us → ∃ t n, Derives .atom ts [t] n ∧ t.verdict env' = kinds (env.resolve name)

def Covers (env env' : Environment ν) (texts : String → List (Token ν)) (us : List (Token ν)) : Prop :=
  ∀ name, .inl name ∈ parts us → Replaces env env' name (texts name)

section Splitting

/-! Phrases are spliced apart from what separates them. -/

variable {t : Token ν} {a b : Nat} {ts us vs : List (Lexeme ν)}

lemma Covers.tail {us : List (Token ν)} (h : Covers env env' texts (t :: us)) : Covers env env' texts us :=
  fun name hname => h name (List.mem_cons_of_mem _ hname)

lemma Covers.left (h : Covers env env' texts (tokens (ts ++ ⟨t, a, b⟩ :: us))) (ht : separates t = true) :
    Covers env env' texts (tokens ts) := by
  intro name hname
  refine h name ?_
  rw [tokens_append, tokens_cons, parts_separator ht]
  exact List.mem_append_left _ hname

lemma Covers.right (h : Covers env env' texts (tokens (ts ++ ⟨t, a, b⟩ :: us))) (ht : separates t = true) :
    Covers env env' texts (tokens us) := by
  intro name hname
  refine h name ?_
  rw [tokens_append, tokens_cons, parts_separator ht]
  exact List.mem_append_right _ (List.mem_cons_of_mem _ hname)

omit [Number ν] in
lemma exists_of_spliced (ht : separates t = true) (h : tokens vs = spliced texts (tokens (ts ++ ⟨t, a, b⟩ :: us))) :
    ∃ vs₁ start stop vs₂, vs = vs₁ ++ ⟨t, start, stop⟩ :: vs₂ ∧ tokens vs₁ = spliced texts (tokens ts) ∧
      tokens vs₂ = spliced texts (tokens us) := by
  rw [tokens_append, tokens_cons, spliced_separator ht] at h
  exact exists_of_tokens_append h

omit [Number ν] in
lemma exists_of_spliced_snoc (ht : separates t = true) (h : tokens vs = spliced texts (tokens (ts ++ [⟨t, a, b⟩]))) :
    ∃ vs₁ start stop, vs = vs₁ ++ [⟨t, start, stop⟩] ∧ tokens vs₁ = spliced texts (tokens ts) := by
  obtain ⟨vs₁, start, stop, vs₂, rfl, hvs₁, hvs₂⟩ := exists_of_spliced ht h
  obtain rfl := List.map_eq_nil_iff.mp hvs₂
  exact ⟨vs₁, start, stop, rfl, hvs₁⟩

end Splitting

def Echoes (env env' : Environment ν) (c : Category) (ts : List (Lexeme ν)) (values : List (SyntaxTree ν)) (n : Nat) :
    Prop :=
  ∃ values' n', Derives c ts values' n' ∧ n ≤ n' ∧ values'.map (·.verdict env') = values.map (·.verdict env)

namespace Echoes

variable {ts us : List (Lexeme ν)} {t t' l r : SyntaxTree ν} {m n n' : Nat} {values : List (SyntaxTree ν)}

lemma single (h : Echoes env env' c ts [t] n) :
    ∃ t' n', Derives c ts [t'] n' ∧ n ≤ n' ∧ t'.verdict env' = t.verdict env := by
  obtain ⟨values', n', h', hn, hvalues⟩ := h
  obtain ⟨t', rfl, ht'⟩ := List.map_eq_singleton_iff.mp hvalues
  exact ⟨t', n', h', hn, ht'⟩

lemma of_single (h : Derives c ts [t'] n') (hn : n ≤ n') (ht : t'.verdict env' = t.verdict env) :
    Echoes env env' c ts [t] n :=
  ⟨[t'], n', h, hn, by rw [List.map_singleton, List.map_singleton, ht]⟩

lemma promote (h : Echoes env env' c ts [t] n)
    (hd : ∀ {ts : List (Lexeme ν)} {t n}, Derives c ts [t] n → Derives d ts [t] n) : Echoes env env' d ts [t] n := by
  obtain ⟨t', n', h', hn, ht'⟩ := h.single
  exact of_single (hd h') hn ht'

lemma operation {op : Operator} {start stop : Nat} (hl : Echoes env env' c ts [l] m) (hr : Echoes env env' c' us [r] n)
    (hd : ∀ {ts us : List (Lexeme ν)} {l r m n start stop}, Derives c ts [l] m → Derives c' us [r] n →
      Derives d (ts ++ ⟨.operator op, start, stop⟩ :: us) [.operation op l r] (max m (1 + n))) :
    Echoes env env' d (ts ++ ⟨.operator op, start, stop⟩ :: us) [.operation op l r] (max m (1 + n)) := by
  obtain ⟨l', m', hl', hm, hlo⟩ := hl.single
  obtain ⟨r', n', hr', hn, hro⟩ := hr.single
  refine of_single (hd hl' hr') (by omega) ?_
  rw [SyntaxTree.verdict, SyntaxTree.verdict, hlo, hro]

end Echoes

lemma Derives.echoes {ts ts' : List (Lexeme ν)} {values : List (SyntaxTree ν)} {n : Nat} (h : Derives c ts values n)
    (hts : Covers env env' texts (tokens ts)) (hts' : tokens ts' = spliced texts (tokens ts)) :
    Echoes env env' c ts' values n := by
  induction h generalizing ts' with
  | sum _ ih => exact (ih hts hts').promote .sum
  | product _ ih => exact (ih hts hts').promote .product
  | factor _ ih => exact (ih hts hts').promote .factor
  | argument _ ih => exact (ih hts hts').promote .argument
  | additive _ hop _ ihl ihr =>
    obtain ⟨ts₁, _, _, ts₂, rfl, hts₁, hts₂⟩ := exists_of_spliced rfl hts'
    exact (ihl (hts.left rfl) hts₁).operation (ihr (hts.right rfl) hts₂) fun hl hr => .additive hl hop hr
  | multiplicative _ hop _ ihl ihr =>
    obtain ⟨ts₁, _, _, ts₂, rfl, hts₁, hts₂⟩ := exists_of_spliced rfl hts'
    exact (ihl (hts.left rfl) hts₁).operation (ihr (hts.right rfl) hts₂) fun hl hr => .multiplicative hl hop hr
  | power _ _ ihl ihr =>
    obtain ⟨ts₁, _, _, ts₂, rfl, hts₁, hts₂⟩ := exists_of_spliced rfl hts'
    exact (ihl (hts.left rfl) hts₁).operation (ihr (hts.right rfl) hts₂) .power
  | negation _ ih =>
    obtain ⟨_, _, ts₁, rfl, hts₁⟩ := exists_of_tokens_cons hts'
    obtain ⟨t', n', h', hn, ht'⟩ := (ih hts.tail hts₁).single
    refine .of_single (.negation h') (by omega) ?_
    rw [SyntaxTree.verdict, SyntaxTree.verdict, ht']
  | number =>
    obtain ⟨_, _, rfl⟩ := exists_of_tokens_singleton hts'
    refine .of_single .number (Nat.le_refl 1) ?_
    rw [SyntaxTree.verdict, SyntaxTree.verdict]
  | @named name =>
    have htext : tokens ts' = texts name := hts'.trans (List.append_nil (texts name))
    obtain ⟨t', n', h', ht'⟩ := hts name List.mem_cons_self ts' htext
    refine .of_single h' h'.pos ?_
    rw [ht', SyntaxTree.verdict]
  | group _ ih =>
    obtain ⟨_, _, ts₁, rfl, hts₁⟩ := exists_of_tokens_cons hts'
    obtain ⟨inside, _, _, rfl, hinside⟩ := exists_of_spliced_snoc rfl hts₁
    obtain ⟨t', n', h', hn, ht'⟩ := (ih (hts.tail.left rfl) hinside).single
    exact .of_single (.group h') (by omega) ht'
  | normal _ ih =>
    obtain ⟨_, _, ts₁, rfl, hts₁⟩ := exists_of_tokens_cons hts'
    obtain ⟨_, _, ts₂, rfl, hts₂⟩ := exists_of_tokens_cons hts₁
    obtain ⟨inside, _, _, rfl, hinside⟩ := exists_of_spliced_snoc rfl hts₂
    obtain ⟨values', n', h', hn, hvalues⟩ := ih (hts.tail.tail.left rfl) hinside
    obtain ⟨mu', rest, rfl, hmu, hrest⟩ := List.map_eq_cons_iff.mp hvalues
    obtain ⟨sigma', rfl, hsigma⟩ := List.map_eq_singleton_iff.mp hrest
    refine .of_single (.normal h') (by omega) ?_
    rw [SyntaxTree.verdict, SyntaxTree.verdict, hmu, hsigma]
  | sampled _ ih =>
    obtain ⟨_, _, ts₁, rfl, hts₁⟩ := exists_of_tokens_cons hts'
    obtain ⟨_, _, ts₂, rfl, hts₂⟩ := exists_of_tokens_cons hts₁
    obtain ⟨inside, _, _, rfl, hinside⟩ := exists_of_spliced_snoc rfl hts₂
    obtain ⟨values', n', h', hn, hvalues⟩ := ih (hts.tail.tail.left rfl) hinside
    refine .of_single (.sampled h') (by omega) ?_
    rw [SyntaxTree.verdict, SyntaxTree.verdict, SyntaxTree.verdicts_eq_map, SyntaxTree.verdicts_eq_map, hvalues]
  | comma _ _ ih ihs =>
    obtain ⟨ts₁, _, _, ts₂, rfl, hts₁, hts₂⟩ := exists_of_spliced rfl hts'
    obtain ⟨t', m', h', hm, ht'⟩ := (ih (hts.left rfl) hts₁).single
    obtain ⟨values', n', hs', hn, hvalues⟩ := ihs (hts.right rfl) hts₂
    exact ⟨t' :: values', _, .comma h' hs', by omega, by rw [List.map_cons, List.map_cons, ht', hvalues]⟩

end Trees

section Texts

variable [Number ν] [LawfulNegation ν] {env : Environment ν} {name text source : String} {e : Expression ν}

lemma replaces_of_parse (h : Expression.parse text = .ok e) (hname : env.get? name = some (.expression e)) :
    ∃ us : List (Lexeme ν), Token.tokenize text = .ok us ∧ Outline isKnownCall .sum (tokens us) 1 ∧
      Replaces env .empty name (.openParen :: (tokens us ++ [.closeParen])) := by
  obtain ⟨u, hu, h⟩ := exists_of_bind_ok h
  obtain rfl := Except.ok.inj h
  obtain ⟨f, hf, hfu⟩ := Environment.evaluateText_ok hu
  obtain ⟨us, n, htokens, hus, -⟩ := derives_of_parse hf
  refine ⟨us, htokens, hus.outline, fun ts hts => ?_⟩
  obtain ⟨_, _, inside, _, _, rfl, hinside⟩ := exists_of_tokens_enclosed hts
  have hself : Covers Environment.empty .empty (fun name => [.identifier name]) (tokens us) := by
    intro name _ ts hts
    obtain ⟨_, _, rfl⟩ := exists_of_tokens_singleton hts
    exact ⟨_, _, .named, by rw [SyntaxTree.verdict]⟩
  obtain ⟨t, m, ht, -, hverdict⟩ := (hus.echoes hself (hinside.trans spliced_self.symm)).single
  refine ⟨t, 1 + m, .group ht, ?_⟩
  have hreduced := Environment.isReduced_of_evaluateText Environment.all_empty hu
  rw [hverdict, ← kinds_evaluate, hfu, Environment.resolve_eq hname hreduced.isFinite, hreduced.folded_toExpression]

section Reading

omit [LawfulNegation ν]

variable {ts : List (Lexeme ν)} {position : Nat} {fault : Fault ν}

lemma kinds_evaluateText {f : Formula ν} (h : parse source = .ok f) :
    kinds ((env.evaluateText source).map Value.toExpression) = (f.tree.verdict env).map Value.toExpression := by
  rw [evaluateText_eq h, ← kinds_evaluate]
  cases f.evaluate env <;> rfl

lemma kinds_malformed (h : parse source = .error (.malformed position fault)) :
    kinds ((env.evaluateText source).map Value.toExpression) = .error .malformed := by
  rw [Environment.evaluateText, h]
  rfl

lemma exists_malformed_of_stuck {q : Nat} {rest : List Char} (h : Token.Tiles 0 source.toList ts q rest)
    {word : String} (hstuck : Token.Stuck ν rest word) :
    ∃ position fault, (parse source : Except (ExpressionError ν) (Formula ν)) = .error (.malformed position fault) :=
  ⟨q, .unknownInput word, by rw [parse, Token.tokenize, h.lex_eq, hstuck.lex_eq]⟩

lemma exists_malformed_of_not_derives (htokens : Token.tokenize source = .ok ts)
    (h : ¬ ∃ t n, Derives .sum ts [t] n) :
    ∃ position fault, (parse source : Except (ExpressionError ν) (Formula ν)) = .error (.malformed position fault) := by
  have hj := ofTokens_judged source.utf8ByteSize ts
  rw [← parse_eq htokens] at hj
  generalize (parse source : Except (ExpressionError ν) (Formula ν)) = r at hj ⊢
  cases hj with
  | ok hf =>
    obtain ⟨n, hn, -⟩ := hf
    exact absurd ⟨_, n, hn⟩ h
  | malformed => exact ⟨_, _, rfl⟩

lemma parse_within (htokens : Token.tokenize source = .ok ts) {t : SyntaxTree ν} {n : Nat} (h : Derives .sum ts [t] n)
    (hn : n ≤ maxNesting) : ∃ f : Formula ν, parse source = .ok f ∧ f.tree = t := by
  obtain ⟨f, hf, hw⟩ := h.ofTokens_within source.utf8ByteSize
  rw [Within, if_pos hn] at hw
  exact ⟨f, (parse_eq htokens).trans hw, hf⟩

lemma le_of_not_tooDeep (htokens : Token.tokenize source = .ok ts) {t : SyntaxTree ν} {n : Nat}
    (h : Derives .sum ts [t] n) (hdeep : ∀ position, (parse source : Except (ExpressionError ν) (Formula ν)) ≠
      .error (.malformed position .tooDeep)) :
    n ≤ maxNesting := by
  obtain ⟨f, -, hw⟩ := h.ofTokens_within source.utf8ByteSize
  by_contra hn
  rw [Within, if_neg hn] at hw
  obtain ⟨position, hw⟩ := hw
  exact hdeep position ((parse_eq htokens).trans hw)

section Spliced

variable {source' : String} {ts' : List (Lexeme ν)} {texts : String → List (Token ν)}
  (htokens : Token.tokenize source = .ok ts) (htokens' : Token.tokenize source' = .ok ts')
  (hts' : tokens ts' = spliced texts (tokens ts))
include htokens htokens' hts'

lemma kinds_eq_of_derives (hcovers : Covers env .empty texts (tokens ts)) {t : SyntaxTree ν} {n : Nat}
    (h : Derives .sum ts [t] n) (hdeep : ∀ position, (parse source' : Except (ExpressionError ν) (Formula ν)) ≠
      .error (.malformed position .tooDeep)) :
    kinds ((env.evaluateText source).map Value.toExpression) =
      kinds ((Environment.empty.evaluateText source').map Value.toExpression) := by
  obtain ⟨t', n', h', hle, hverdict⟩ := (h.echoes hcovers hts').single
  have hn' := le_of_not_tooDeep htokens' h' hdeep
  obtain ⟨f, hf, rfl⟩ := parse_within htokens h (hle.trans hn')
  obtain ⟨f', hf', rfl⟩ := parse_within htokens' h' hn'
  rw [kinds_evaluateText hf, kinds_evaluateText hf', hverdict]

lemma kinds_eq_of_not_derives (henclosed : Enclosed isKnownCall texts (tokens ts))
    (h : ¬ ∃ t n, Derives .sum ts [t] n) :
    kinds ((env.evaluateText source).map Value.toExpression) =
      kinds ((Environment.empty.evaluateText source').map Value.toExpression) := by
  have h' : ¬ ∃ t n, Derives .sum ts' [t] n := by
    rwa [exists_derives_iff, hts', outline_spliced_iff henclosed, ← exists_derives_iff]
  obtain ⟨_, _, hfails⟩ := exists_malformed_of_not_derives htokens h
  obtain ⟨_, _, hfails'⟩ := exists_malformed_of_not_derives htokens' h'
  rw [kinds_malformed hfails, kinds_malformed hfails']

end Spliced

end Reading

def textTokens (ν : Type) [Number ν] (text : String) : List (Token ν) :=
  match (Token.tokenize text : Except (ExpressionError ν) (List (Lexeme ν))) with
  | .ok us => tokens us
  | .error _ => []

/-- A formula with texts in the places of its variables, in parentheses, comes to what it comes to with the variables
bound to what the texts come to, if the texts do not make it nest too deep. Where one of the two fails so does the
other, with an error of the same kind. -/
theorem substituted_text_comes_to_same {texts : String → String} {values : String → Expression ν}
    (h : ∀ name ∈ variableNames ν source,
      Expression.parse (texts name) = .ok (values name) ∧ env.get? name = some (.expression (values name)))
    (hdeep : ∀ position, (parse (substitute ν texts source) : Except (ExpressionError ν) (Formula ν)) ≠
      .error (.malformed position .tooDeep)) :
    ((env.evaluateText source).map Value.toExpression).mapError ExpressionError.kind =
      (Expression.parse (substitute ν texts source)).mapError ExpressionError.kind := by
  change kinds _ = kinds ((Environment.empty.evaluateText (substitute ν texts source)).map Value.toExpression)
  have htexts (name : String) (hname : .named name ∈ pieces ν source.toList) :
      ∃ us : List (Lexeme ν), (Token.tokenize (texts name) = .ok us ∧ textTokens ν (texts name) = tokens us) ∧
        Outline isKnownCall .sum (tokens us) 1 ∧
        Replaces env .empty name (.openParen :: (tokens us ++ [.closeParen])) := by
    obtain ⟨hparse, hget⟩ := h name (List.mem_filterMap.mpr ⟨_, hname, rfl⟩)
    obtain ⟨us, hus, hreplaces⟩ := replaces_of_parse hparse hget
    exact ⟨us, ⟨hus, by rw [textTokens, hus]⟩, hreplaces⟩
  obtain ⟨ts, q, rest, htiles, hrest⟩ := Token.exists_tiles (ν := ν) 0 source.toList
  obtain ⟨ts', q', hts', htiles'⟩ :=
    tiles_replaced htiles hrest (fun name hname => (htexts name hname).imp fun us hus => hus.1) 0
  have hlist : (substitute ν texts source).toList = (pieces ν source.toList).flatMap (Piece.replaced texts) :=
    String.toList_ofList
  rw [← hlist] at htiles'
  rcases hrest with rfl | ⟨word, hstuck⟩
  · have hnamed (name : String) (hname : .inl name ∈ parts (tokens ts)) :
        ∃ us : List (Lexeme ν), textTokens ν (texts name) = tokens us ∧ Outline isKnownCall .sum (tokens us) 1 ∧
          Replaces env .empty name (.openParen :: (tokens us ++ [.closeParen])) :=
      (htexts name (named_mem_pieces htiles (.inl rfl) hname)).imp fun us hus => ⟨hus.1.2, hus.2⟩
    by_cases hsentence : ∃ t n, Derives .sum ts [t] n
    · obtain ⟨t, n, hderives⟩ := hsentence
      refine kinds_eq_of_derives htiles.tokenize_eq htiles'.tokenize_eq hts' ?_ hderives hdeep
      intro name hname
      obtain ⟨us, hus, -, hreplaces⟩ := hnamed name hname
      dsimp only
      rwa [hus]
    · refine kinds_eq_of_not_derives htiles.tokenize_eq htiles'.tokenize_eq hts' ?_ hsentence
      intro name hname
      obtain ⟨us, hus, houtline, -⟩ := hnamed name hname
      exact ⟨tokens us, by dsimp only; rw [hus], houtline⟩
  · obtain ⟨_, _, hfails⟩ := exists_malformed_of_stuck htiles hstuck
    obtain ⟨_, _, hfails'⟩ := exists_malformed_of_stuck htiles' hstuck
    rw [kinds_malformed hfails, kinds_malformed hfails']

end Texts

def measured (name : String) : Expression Float :=
  if name = "a" then .literal (-3) else .distribution (.normal 2 0.5)

def measurements : Environment Float :=
  (Environment.empty.bind "a" (.expression (measured "a"))).bind "b" (.expression (measured "b"))

theorem power_with_texts_comes_to_same :
    substitute Float (fun name => (measured name).text) "a * 2 - normal (1, 2) / -b ^ a" =
        "(-3) * 2 - normal (1, 2) / -(normal(2, 0.5)) ^ (-3)" ∧
      ((measurements.evaluateText "a * 2 - normal (1, 2) / -b ^ a").map Value.toExpression).mapError
          ExpressionError.kind =
        (Expression.parse "(-3) * 2 - normal (1, 2) / -(normal(2, 0.5)) ^ (-3)").mapError ExpressionError.kind := by
  have htext : substitute Float (fun name => (measured name).text) "a * 2 - normal (1, 2) / -b ^ a" =
      "(-3) * 2 - normal (1, 2) / -(normal(2, 0.5)) ^ (-3)" := by
    decide +kernel
  have hnames : variableNames Float "a * 2 - normal (1, 2) / -b ^ a" = ["a", "b", "a"] := by decide +kernel
  have hvalues : ∀ name ∈ variableNames Float "a * 2 - normal (1, 2) / -b ^ a",
      Expression.parse (measured name).text = .ok (measured name) ∧
        measurements.get? name = some (.expression (measured name)) := by
    rw [hnames]
    intro name hname
    obtain rfl | rfl : name = "a" ∨ name = "b" := by simpa [or_comm] using hname
    · exact ⟨(Expression.text_reads_back (by decide +kernel) (by decide +kernel)).1 (by decide +kernel), rfl⟩
    · exact ⟨(Expression.text_reads_back (by decide +kernel) (by decide +kernel)).1 (by decide +kernel), rfl⟩
  have hread : (parse "(-3) * 2 - normal (1, 2) / -(normal(2, 0.5)) ^ (-3)" :
      Except (ExpressionError Float) (Formula Float)).toBool = true := by
    decide +kernel
  refine ⟨htext, ?_⟩
  rw [← htext] at hread ⊢
  refine substituted_text_comes_to_same hvalues fun position hdeep => ?_
  rw [hdeep] at hread
  cases hread

end Uncertainty.Formula
