import Mathlib.Data.List.Forall2
import Uncertainty.Proofs.Formula.Opening
import Uncertainty.Proofs.Formula.Spelling
import Uncertainty.Proofs.Number.FloatSign

/-! The text of an expression is read back as the expression, unless it nests too deep. -/

namespace Uncertainty

open Formula Token

variable {ν : Type}

section Reading

variable [Number ν]

namespace Expression

def follow : Expression ν → Nat
  | literal v => if Number.isNegative v then negationPrecedence else 255
  | distribution _ => 255
  | binary op _ _ => operandPrecedence op

end Expression

lemma Number.opens [LawfulSign ν] (env : Environment ν) (stop : Nat) {v : ν} (h : IsReadable v) {ts : List (Lexeme ν)}
    (hts : ts.map (·.token) = tokens v) :
    Opens env stop ts (.literal v) 255 (Expression.literal v).follow (nesting v) := by
  rw [tokens] at hts
  rw [Expression.follow, nesting]
  by_cases hv : isNegative v = true
  · rw [if_pos hv] at hts ⊢
    rw [if_pos hv]
    obtain ⟨⟨_, a, b⟩, ts₁, rfl, rfl, hts₁⟩ := List.map_eq_cons_iff.mp hts
    obtain ⟨⟨_, c, d⟩, ts₂, rfl, rfl, hts₂⟩ := List.map_eq_cons_iff.mp hts₁
    obtain rfl := List.map_eq_nil_iff.mp hts₂
    have hn : Opens env stop [⟨.number (magnitude v), c, d⟩] (.literal (magnitude v)) 255 negationPrecedence 1 :=
      Opens.number
    have hm : Opens env stop [⟨.operator .sub, a, b⟩, ⟨.number (magnitude v), c, d⟩] (.literal (-magnitude v)) 255
        negationPrecedence 2 := hn.minus (by decide) (Nat.le_refl _)
    rwa [LawfulSign.neg_magnitude h.finite hv] at hm
  · rw [if_neg hv] at hts ⊢
    rw [if_neg hv]
    obtain ⟨⟨_, a, b⟩, ts₁, rfl, rfl, hts₁⟩ := List.map_eq_cons_iff.mp hts
    obtain rfl := List.map_eq_nil_iff.mp hts₁
    rw [magnitude, if_neg hv]
    exact Opens.number

namespace Distribution

def Stand (env : Environment ν) (values : List ν) (fs : List (Formula ν)) : Prop :=
  List.Forall₂ (fun v f => f.evaluate env = .ok (.scalar v)) values fs

lemma evaluateConstants_ok {env : Environment ν} {values done : List ν} {fs : List (Formula ν)} {position : Nat}
    (h : Stand env values fs) : evaluateConstants env position done fs = .ok (done.reverse ++ values) := by
  induction h generalizing done with
  | nil => rw [evaluateConstants, List.append_nil]
  | cons hf _ ih =>
    rw [evaluateConstants, hf]
    dsimp only [constantAt]
    rw [ih, List.reverse_cons, List.append_assoc]
    rfl

lemma arguments_within [LawfulSign ν] (env : Environment ν) (stop : Nat) {values : List ν} (hne : values ≠ [])
    (h : ∀ v ∈ values, Number.IsReadable v) {ts : List (Lexeme ν)}
    (hts : ts.map (·.token) = argumentTokens [.closeParen] values) :
    ∃ fs a b, Stand env values fs ∧ ∀ n done rest,
      Within ((values.map Number.nesting).foldr max 0) n (.ok (done.reverse ++ fs, ⟨.closeParen, a, b⟩ :: rest))
        (view (arguments (level stop n) done (ts ++ rest) (Nat.le_refl _))) := by
  induction values generalizing ts with
  | nil => exact absurd rfl hne
  | cons v values ih =>
    have hv := h v List.mem_cons_self
    cases values with
    | nil =>
      obtain ⟨tv, tc, rfl, htv, htc⟩ := List.map_eq_append_iff.mp hts
      obtain ⟨⟨_, a, b⟩, tn, rfl, rfl, htn⟩ := List.map_eq_cons_iff.mp htc
      obtain rfl := List.map_eq_nil_iff.mp htn
      obtain ⟨f, hf, hr⟩ := (Number.opens env stop hv htv).operand
      refine ⟨[f], a, b, .cons hf .nil, ?_⟩
      intro n done rest
      have hclosed {least : Nat} : Closed least (⟨.closeParen, a, b⟩ :: rest) := closed_of_not_operator nofun
      have hmax : ([v].map Number.nesting).foldr max 0 = Number.nesting v := Nat.max_zero _
      rw [List.append_assoc, hmax]
      exact arguments_last (hr n 0 _ (Nat.zero_le _) hclosed hclosed)
    | cons w values =>
      obtain ⟨tv, tc, rfl, htv, htc⟩ := List.map_eq_append_iff.mp hts
      obtain ⟨⟨_, a, b⟩, tn, rfl, rfl, htn⟩ := List.map_eq_cons_iff.mp htc
      obtain ⟨f, hf, hr⟩ := (Number.opens env stop hv htv).operand
      obtain ⟨fs, c, d, hfs, hrest⟩ := ih (List.cons_ne_nil w values) (fun u hu => h u (List.mem_cons_of_mem v hu)) htn
      refine ⟨f :: fs, c, d, .cons hf hfs, ?_⟩
      intro n done rest
      have hclosed {least : Nat} : Closed least (⟨.comma, a, b⟩ :: (tn ++ rest)) := closed_of_not_operator nofun
      have hnext := hrest n (f :: done) rest
      rw [List.reverse_cons, List.append_assoc] at hnext
      rw [List.append_assoc, List.cons_append]
      exact arguments_more (hr n 0 _ (Nat.zero_le _) hclosed hclosed) hnext

lemma argumentTokens_eq_cons {values : List ν} (hne : values ≠ []) (rest : List (Token ν)) :
    ∃ t us, argumentTokens rest values = t :: us ∧ t ≠ .closeParen := by
  have htokens (v : ν) (us : List (Token ν)) : ∃ t us', Number.tokens v ++ us = t :: us' ∧ t ≠ .closeParen := by
    rw [Number.tokens]
    split
    · refine ⟨.operator .sub, _, rfl, fun he => ?_⟩
      cases he
    · refine ⟨.number (Number.magnitude v), _, rfl, fun he => ?_⟩
      cases he
  cases values with
  | nil => exact absurd rfl hne
  | cons v values =>
    cases values with
    | nil => exact htokens v _
    | cons w values => exact htokens v _

lemma numbers_ne_nil {d : Distribution ν} (hd : d.IsValid) : d.numbers ≠ [] := by
  cases d with
  | normal mu sigma => exact List.cons_ne_nil _ _
  | sampled values => exact hd.1

lemma ofNormal_ok {mu sigma : ν} (h : (normal mu sigma).IsValid) :
    Expression.ofNormal mu sigma = .ok (.distribution (.normal mu sigma)) := by
  obtain ⟨hmu, hsigma, hless⟩ := h
  simp [Expression.ofNormal, hmu, hsigma, hless]

lemma ofSamples_ok {values : List ν} (h : (sampled values).IsValid) :
    Expression.ofSamples values = .ok (.distribution (.sampled values)) := by
  obtain ⟨hne, hfinite⟩ := h
  simpa [Expression.ofSamples, hne] using hfinite

lemma call_ok {env : Environment ν} {d : Distribution ν} (hd : d.IsValid) {fs : List (Formula ν)}
    (hfs : Stand env d.numbers fs)
    (position : Nat) :
    ∃ f, call d.name position fs = .ok f ∧ f.evaluate env = .ok (Expression.distribution d).asValue := by
  cases d with
  | normal mu sigma =>
    obtain ⟨f, fs₁, hf, hfs₁, rfl⟩ := List.forall₂_cons_left_iff.mp hfs
    obtain ⟨g, fs₂, hg, hfs₂, rfl⟩ := List.forall₂_cons_left_iff.mp hfs₁
    obtain rfl := List.forall₂_nil_left_iff.mp hfs₂
    refine ⟨.normal f g position, if_pos rfl, ?_⟩
    rw [evaluate, hf, hg]
    dsimp only [bind, Except.bind, constantAt]
    rw [ofNormal_ok hd]
    rfl
  | sampled values =>
    have hne : fs.isEmpty = false := by
      cases hfs with
      | nil => exact absurd rfl hd.1
      | cons _ _ => rfl
    refine ⟨.sampled fs position, ?_, ?_⟩
    · simp [call, name, hne]
    · rw [evaluate, evaluateConstants_ok hfs]
      dsimp only [bind, Except.bind, numbers, List.reverse_nil, List.nil_append]
      rw [ofSamples_ok hd]
      rfl

lemma opens [LawfulSign ν] (env : Environment ν) (stop : Nat) {d : Distribution ν} (hd : d.IsValid)
    (h : ∀ v ∈ d.numbers, Number.IsReadable v) {ts : List (Lexeme ν)} (hts : ts.map (·.token) = d.tokens) :
    Opens env stop ts (.distribution d) 255 255 (Expression.distribution d).nesting := by
  have hne := numbers_ne_nil hd
  obtain ⟨⟨_, a, b⟩, ts₁, rfl, rfl, hts₁⟩ := List.map_eq_cons_iff.mp hts
  obtain ⟨⟨_, a', b'⟩, ts₂, rfl, rfl, hts₂⟩ := List.map_eq_cons_iff.mp hts₁
  obtain ⟨fs, c, c', hfs, hread⟩ := arguments_within env stop hne h hts₂
  obtain ⟨f, hcall, hf⟩ := call_ok hd hfs a
  refine Opens.single (Nat.lt_of_lt_of_le Nat.one_pos (Nat.le_add_right 1 _)) hf ?_
  intro n rest _
  have hfirst : ∀ x y us, ts₂ ++ rest ≠ ⟨.closeParen, x, y⟩ :: us := by
    intro x y us he
    have htokens := congrArg (List.map (·.token)) he
    obtain ⟨t, us', heq, ht⟩ := argumentTokens_eq_cons hne [.closeParen]
    rw [List.map_append, hts₂, heq] at htokens
    exact ht (List.cons.inj htokens).1
  rw [List.cons_append, List.cons_append]
  exact signed_call_within hfirst (hread n [] rest) hcall

end Distribution

namespace Expression

lemma opens_wrap {env : Environment ν} {stop : Nat} {parens : Bool} {tokens : List (Token ν)}
    {e : Expression ν} {p q k : Nat} {ts : List (Lexeme ν)}
    (h : ∀ us : List (Lexeme ν), us.map (·.token) = tokens → Opens env stop us e p q k)
    (hts : ts.map (·.token) = wrapTokens parens tokens) :
    Opens env stop ts e (if parens then 255 else p) (if parens then 255 else q) ((if parens then 1 else 0) + k) := by
  cases parens with
  | false =>
    rw [if_neg Bool.false_ne_true, if_neg Bool.false_ne_true, if_neg Bool.false_ne_true, Nat.zero_add]
    exact h ts hts
  | true =>
    rw [if_pos rfl, if_pos rfl, if_pos rfl]
    obtain ⟨⟨_, a, b⟩, ts₁, rfl, rfl, hts₁⟩ := List.map_eq_cons_iff.mp hts
    obtain ⟨us, ts₂, rfl, hus, hts₂⟩ := List.map_eq_append_iff.mp hts₁
    obtain ⟨⟨_, c, d⟩, ts₃, rfl, rfl, hts₃⟩ := List.map_eq_cons_iff.mp hts₂
    obtain rfl := List.map_eq_nil_iff.mp hts₃
    exact (h us hus).paren

section Wrapping

variable {op : Operator} {l r : Expression ν}

lemma precedence_lt (op : Operator) : op.precedence < 255 := by
  cases op <;> decide

lemma operandPrecedence_le (op : Operator) : operandPrecedence op ≤ 255 := by
  cases op <;> decide

lemma lt_operandPrecedence {op op' : Operator} (h : ¬ op'.precedence < op.precedence)
    (hright : op'.precedence ≠ op.precedence ∨ op.groupsRight = false) : op.precedence < operandPrecedence op' := by
  revert h hright
  cases op <;> cases op' <;> decide

lemma operandPrecedence_le_precedence {op op' : Operator} (h : ¬ op'.precedence < op.precedence)
    (hright : op'.precedence ≠ op.precedence ∨ (!op.groupsRight) = false) : operandPrecedence op ≤ op'.precedence := by
  revert h hright
  cases op <;> cases op' <;> decide

lemma wrapsLeft_spec : op.precedence ≤ (if wrapsLeft op l then 255 else l.precedence) ∧
    op.precedence < (if wrapsLeft op l then 255 else l.follow) := by
  have hop := precedence_lt op
  by_cases hw : wrapsLeft op l = true
  · rw [if_pos hw, if_pos hw]
    exact ⟨Nat.le_of_lt hop, hop⟩
  · rw [if_neg hw, if_neg hw]
    simp only [wrapsLeft, Bool.not_eq_true, Bool.or_eq_false_iff, decide_eq_false_iff_not, Bool.and_eq_false_iff,
      beq_eq_false_iff_ne] at hw
    obtain ⟨⟨hlt, hright⟩, hneg⟩ := hw
    refine ⟨Nat.not_lt.mp hlt, ?_⟩
    cases l with
    | literal v =>
      rw [follow, if_neg (by simpa [isNegativeLiteral] using hneg)]
      exact hop
    | distribution d => exact hop
    | binary op' l' r' => exact lt_operandPrecedence hlt hright

lemma wrapsRight_spec : operandPrecedence op ≤ (if wrapsRight op r then 255 else r.precedence) ∧
    operandPrecedence op ≤ (if wrapsRight op r then 255 else r.follow) := by
  have hop := operandPrecedence_le op
  by_cases hw : wrapsRight op r = true
  · rw [if_pos hw, if_pos hw]
    exact ⟨hop, hop⟩
  · rw [if_neg hw, if_neg hw]
    simp only [wrapsRight, Bool.not_eq_true, Bool.or_eq_false_iff, decide_eq_false_iff_not, Bool.and_eq_false_iff,
      beq_eq_false_iff_ne] at hw
    obtain ⟨⟨hlt, hright⟩, hneg⟩ := hw
    cases r with
    | literal v =>
      rw [follow, if_neg (by simpa [isNegativeLiteral] using hneg)]
      exact ⟨hop, hop⟩
    | distribution d => exact ⟨hop, hop⟩
    | binary op' l' r' =>
      have hle := operandPrecedence_le_precedence hlt hright
      refine ⟨hle, Nat.le_trans hle ?_⟩
      rw [follow, operandPrecedence]
      split <;> omega

end Wrapping

lemma opens [LawfulSign ν] (env : Environment ν) (stop : Nat) {e : Expression ν} (h : e.IsReduced)
    (hv : ∀ v ∈ e.numbers, Number.IsReadable v) {ts : List (Lexeme ν)}
    (hts : ts.map (·.token) = e.tokens) : Opens env stop ts e e.precedence e.follow e.nesting := by
  -- A left operand without parentheses goes on in the chain that it begins, so the chain is what the induction carries.
  induction e generalizing ts with
  | literal v => exact Number.opens env stop (hv v (List.mem_singleton.mpr rfl)) hts
  | distribution d => exact Distribution.opens env stop h hv hts
  | binary op l r ihl ihr =>
    obtain ⟨hl, hr, hlr⟩ := h
    obtain ⟨tl, ts₁, rfl, htl, hts₁⟩ := List.map_eq_append_iff.mp hts
    obtain ⟨⟨_, a, b⟩, tr, rfl, rfl, htr⟩ := List.map_eq_cons_iff.mp hts₁
    have hleft := opens_wrap (fun us hus => ihl hl (fun v hm => hv v (List.mem_append_left _ hm)) hus) htl
    have hright := opens_wrap (fun us hus => ihr hr (fun v hm => hv v (List.mem_append_right _ hm)) hus) htr
    exact hleft.chain hright hlr wrapsLeft_spec.1 wrapsLeft_spec.2 wrapsRight_spec.1 wrapsRight_spec.2

lemma parse_of_tokenize {source : String} {ts : List (Lexeme ν)} (h : tokenize source = .ok ts) :
    parse source = (ofTokens source.utf8ByteSize ts).bind fun f =>
      (f.evaluate .empty).map fun v : Value ν => v.toExpression := by
  rw [parse, Environment.evaluateText, Formula.parse, h]
  dsimp only
  cases ofTokens source.utf8ByteSize ts with
  | error e => rfl
  | ok f =>
    dsimp only [bind, Except.bind]
    cases f.evaluate Environment.empty <;> rfl

lemma parse_text_within [LawfulSign ν] {e : Expression ν} (h : e.IsReduced)
    (hv : ∀ v ∈ e.numbers, Number.IsReadable v) : Within e.nesting maxNesting (.ok e) (parse e.text) := by
  obtain ⟨ts, hts, htokenize⟩ := tokenize_text hv
  obtain ⟨f, hf, hread⟩ := (opens .empty e.text.utf8ByteSize h hv hts).operand
  have hw := hread maxNesting 0 [] (Nat.zero_le _) nofun nofun
  rw [List.append_nil, Within] at hw
  rw [Within, parse_of_tokenize htokenize, ofTokens_eq]
  by_cases hn : e.nesting ≤ maxNesting
  · rw [if_pos hn] at hw ⊢
    rw [hw]
    change (f.evaluate .empty).map (fun v : Value ν => v.toExpression) = .ok e
    rw [hf]
    exact congrArg Except.ok e.toExpression_asValue
  · rw [if_neg hn] at hw ⊢
    obtain ⟨position, hw⟩ := hw
    rw [hw]
    exact ⟨position, rfl⟩

theorem text_reads_back [LawfulSign ν] {e : Expression ν} (h : e.IsReduced)
    (hv : ∀ v ∈ e.numbers, Number.IsReadable v) :
    (e.nesting ≤ maxNesting → parse e.text = .ok e) ∧
      (maxNesting < e.nesting → ∃ position,
        (parse e.text : Except (ExpressionError ν) (Expression ν)) = .error (.malformed position .tooDeep)) := by
  have hw := parse_text_within h hv
  rw [Within] at hw
  constructor
  · intro hn
    rwa [if_pos hn] at hw
  · intro hn
    rwa [if_neg (Nat.not_le.mpr hn)] at hw

end Expression

end Reading

namespace Expression

def tower (d : Distribution ν) : Nat → Expression ν
  | 0 => .distribution d
  | n + 1 => .binary .add (.distribution d) (tower d n)

section Towers

variable {d : Distribution ν}

lemma mem_numbers_tower {n : Nat} {v : ν} (h : v ∈ (tower d n).numbers) : v ∈ d.numbers := by
  induction n with
  | zero => exact h
  | succ n ih => exact (List.mem_append.mp h).elim id ih

variable [Number ν]

lemma isReduced_tower (hd : d.IsValid) (n : Nat) : (tower d n).IsReduced := by
  induction n with
  | zero => exact hd
  | succ n ih => exact ⟨hd, ih, rfl⟩

lemma lt_nesting_tower (n : Nat) : n < (tower d n).nesting := by
  induction n with
  | zero => exact Nat.lt_of_lt_of_le Nat.one_pos (Nat.le_add_right 1 _)
  | succ n ih =>
    rw [tower, nesting]
    omega

end Towers

def raised (d : Distribution Float) : Expression Float :=
  .binary .pow (.binary .sub (.distribution d) (.distribution (.sampled [-3.5, 1])))
    (.binary .pow (.literal (-2)) (.distribution d))

theorem raised_reads_back : let d : Distribution Float := .normal 2 0.5
    (raised d).text = "(normal(2, 0.5) - sampled(-3.5, 1)) ^ (-2) ^ normal(2, 0.5)" ∧
      parse (raised d).text = .ok (raised d) ∧
      ∃ position, (parse (tower d 256).text : Except (ExpressionError Float) (Expression Float)) =
        .error (.malformed position .tooDeep) := by
  intro d
  have hd : d.IsValid := by decide +kernel
  have hnumbers : ∀ v ∈ d.numbers, Number.IsReadable v := by decide +kernel
  have hraised := text_reads_back (e := raised d) (by decide +kernel) (by decide +kernel)
  have htower := text_reads_back (isReduced_tower hd 256) fun v hv => hnumbers v (mem_numbers_tower hv)
  exact ⟨by decide +kernel, hraised.1 (by decide +kernel), htower.2 (lt_nesting_tower 256)⟩

end Expression

end Uncertainty
