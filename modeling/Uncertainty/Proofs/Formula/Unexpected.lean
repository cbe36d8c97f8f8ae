import Uncertainty.Proofs.Formula.Exactness
import Uncertainty.Proofs.Formula.Places
import Uncertainty.Proofs.Formula.Tiling

namespace Uncertainty.Formula

variable {ν α β : Type}

namespace Place

def reach (p : Place) (ts : List (Lexeme ν)) : Option Place := p.run (fun _ _ => true) (tokens ts)

section Reaching

variable {p q : Place} {t : Lexeme ν} {ts us : List (Lexeme ν)}

lemma reach_nil : p.reach ([] : List (Lexeme ν)) = some p := rfl

lemma reach_append (h : p.reach ts = some q) : p.reach (ts ++ us) = q.reach us := by
  rw [reach, tokens_append, run_append]
  exact congrArg (Option.bind · _) h

lemma reach_cons (h : p.step (fun _ _ => true) t.token = some q) : p.reach (t :: us) = q.reach us := by
  rw [reach, tokens_cons, run_cons, h]
  rfl

lemma reach_operator {o : Option String} {bs : List Bracket} {op : Operator} {start stop : Nat} :
    (⟨.operator o, bs⟩ : Place).reach (⟨.operator op, start, stop⟩ :: us) = (⟨.operand false, bs⟩ : Place).reach us :=
  reach_cons step_operator

end Reaching

def Refuses (p : Place) : List (Lexeme ν) → Prop
  | [] => ¬ p.IsEnd
  | t :: _ => p.step (fun _ _ => true) t.token = none

end Place

/-- The parser has not complained of an unexpected token; or the tokens before it lead from the place to one that
refuses it. -/
inductive Traced (stop : Nat) (p : Place) (ts : List (Lexeme ν)) (P : α → Prop) : Except (ExpressionError ν) α → Prop
  | ok {x : α} : P x → Traced stop p ts P (.ok x)
  | unexpected {us rest : List (Lexeme ν)} {q : Place} {wanted : Expectation} : ts = us ++ rest → p.reach us = some q →
    q.Refuses rest → Traced stop p ts P (.error (unexpected stop wanted rest))
  | other {e : ExpressionError ν} : (∀ position wanted found, e ≠ .malformed position (.unexpected wanted found)) →
    Traced stop p ts P (.error e)

namespace Traced

variable {stop : Nat} {p q : Place} {ts us rest : List (Lexeme ν)} {P Q : α → Prop} {R : β → Prop}
  {r : Except (ExpressionError ν) α}

lemma mono (h : Traced stop p ts P r) (hPQ : ∀ x, P x → Q x) : Traced stop p ts Q r := by
  cases h with
  | ok hx => exact .ok (hPQ _ hx)
  | unexpected hts hp hq => exact .unexpected hts hp hq
  | other he => exact .other he

lemma bind {f : α → Except (ExpressionError ν) β} (h : Traced stop p ts P r)
    (hf : ∀ x, P x → Traced stop p ts R (f x)) : Traced stop p ts R (r.bind f) := by
  cases h with
  | ok hx => exact hf _ hx
  | unexpected hts hp hq => exact .unexpected hts hp hq
  | other he => exact .other he

lemma map {f : α → β} (h : Traced stop p ts P r) (hf : ∀ x, P x → R (f x)) : Traced stop p ts R (r.map f) := by
  cases h with
  | ok hx => exact .ok (hf _ hx)
  | unexpected hts hp hq => exact .unexpected hts hp hq
  | other he => exact .other he

lemma before (h : Traced stop q rest P r) (hp : p.reach us = some q) : Traced stop p (us ++ rest) P r := by
  cases h with
  | ok hx => exact .ok hx
  | @unexpected us' rest' q' _ hts hq hrest =>
    subst hts
    refine .unexpected (List.append_assoc us us' rest').symm ?_ hrest
    rw [Place.reach_append hp]
    exact hq
  | other he => exact .other he

lemma here {wanted : Expectation} (h : p.Refuses ts) :
    Traced stop p ts P (.error (Formula.unexpected stop wanted ts)) :=
  .unexpected (List.nil_append ts).symm Place.reach_nil h

end Traced

def Passed (p : Place) (bs : List Bracket) (ts rest : List (Lexeme ν)) : Prop :=
  ∃ us o, ts = us ++ rest ∧ p.reach us = some ⟨.operator o, bs⟩ ∧
    (o = none ∨ ∀ a b vs, rest ≠ ⟨.openParen, a, b⟩ :: vs)

def Admits (first : Bool) (ts : List (Lexeme ν)) : Prop := first = true → ∀ a b us, ts ≠ ⟨.closeParen, a, b⟩ :: us

lemma Admits.of_false {ts : List (Lexeme ν)} : Admits false ts := fun h => absurd h Bool.false_ne_true

def Traces (stop : Nat) (operand : OperandParser ν) : Prop :=
  ∀ least ts first bs, Admits first ts →
    Traced stop ⟨.operand first, bs⟩ ts (fun x => Passed ⟨.operand first, bs⟩ bs ts x.2 ∧ Closed least x.2)
      (view (operand least ts))

section Parser

variable {stop levels : Nat} {bs : List Bracket} {ts rest : List (Lexeme ν)} {operand : OperandParser ν}
  {o : Option String}

lemma close_traced {b : Bracket} (ho : o = none ∨ ∀ a b vs, rest ≠ ⟨.openParen, a, b⟩ :: vs) (hclosed : Closed 0 rest)
    (hcomma : b ≠ .group → afterComma? rest = none) :
    Traced stop ⟨.operator o, b :: bs⟩ rest (fun y => ∃ start stop₁, rest = ⟨.closeParen, start, stop₁⟩ :: y.2)
      (view (close stop rest)) := by
  match rest with
  | ⟨.closeParen, start, stop₁⟩ :: rest => exact .ok ⟨start, stop₁, rfl⟩
  | [] =>
    refine .here ?_
    rintro ⟨_, h⟩
    cases h
  | ⟨.operator op, start, stop₁⟩ :: rest => exact absurd (hclosed op start stop₁ rest rfl) (Nat.not_lt_zero _)
  | ⟨.number v, _, _⟩ :: _ | ⟨.identifier name, _, _⟩ :: _ => cases o <;> exact .here rfl
  | ⟨.openParen, start, stop₁⟩ :: rest =>
    rcases ho with rfl | ho
    · exact .here rfl
    · exact absurd rfl (ho start stop₁ rest)
  | ⟨.comma, _, _⟩ :: _ =>
    cases b with
    | group => cases o <;> exact .here rfl
    | call name k => cases hcomma nofun

lemma arguments_traced (hop : Traces stop operand) {first : Bool} {name : String} {k bound : Nat}
    {done : List (Formula ν)} (hts : Admits first ts) (hb : ts.length ≤ bound) :
    Traced stop ⟨.operand first, .call name k :: bs⟩ ts
      (fun x => ∃ m, Passed ⟨.operand first, .call name k :: bs⟩ (.call name m :: bs) ts x.2 ∧ Closed 0 x.2 ∧
        afterComma? x.2 = none) (view (arguments operand done ts hb)) := by
  induction hn : ts.length using Nat.strongRecOn generalizing ts first k done bound with
  | ind n ih =>
    rw [arguments_step]
    refine (hop 0 ts first _ hts).bind ?_
    rintro ⟨f, rest⟩ ⟨⟨us, o, rfl, hus, ho⟩, hclosed⟩
    dsimp only at ho hclosed ⊢
    split
    · rename_i rest' hcomma
      obtain ⟨start, stop₁, rfl⟩ := eq_of_afterComma? hcomma
      have hreach : (⟨.operand first, .call name k :: bs⟩ : Place).reach (us ++ [⟨.comma, start, stop₁⟩]) =
          some ⟨.operand false, .call name (k + 1) :: bs⟩ := by
        rw [Place.reach_append hus, Place.reach_cons Place.step_comma]
        rfl
      have hshorter : rest'.length < n := by
        simp only [← hn, List.length_append, List.length_cons]
        omega
      have hnext : Traced stop ⟨.operand false, .call name (k + 1) :: bs⟩ rest' _
          (view (arguments operand (f :: done) rest' (Nat.le_refl _))) :=
        ih rest'.length hshorter .of_false (Nat.le_refl _) rfl
      have hlater := hnext.before hreach
      rw [List.append_assoc, List.singleton_append] at hlater
      refine hlater.mono ?_
      rintro ⟨_, rest⟩ ⟨m, ⟨vs, o', rfl, hvs, ho'⟩, hrest⟩
      refine ⟨m, ⟨us ++ ⟨.comma, start, stop₁⟩ :: vs, o', ?_, ?_, ho'⟩, hrest⟩
      · rw [List.append_assoc, List.cons_append]
      · rw [List.append_cons, Place.reach_append hreach]
        exact hvs
    · exact .ok ⟨k, ⟨us, o, rfl, hus, ho⟩, hclosed, ‹_›⟩

lemma callArguments_traced (hop : Traces stop operand) (name : String) :
    Traced stop ⟨.operand true, .call name 0 :: bs⟩ ts
      (fun x => ∃ us, ts = us ++ x.2 ∧
        (⟨.operand true, .call name 0 :: bs⟩ : Place).reach us = some ⟨.operator none, bs⟩)
      (view (callArguments stop operand ts)) := by
  by_cases hfirst : ∃ start stop₁ us, ts = ⟨.closeParen, start, stop₁⟩ :: us
  · obtain ⟨start, stop₁, us, rfl⟩ := hfirst
    exact .ok ⟨[_], rfl, rfl⟩
  · simp only [not_exists] at hfirst
    rw [callArguments_some hfirst]
    refine (arguments_traced hop (fun _ => hfirst) (Nat.le_refl _)).bind ?_
    rintro ⟨fs, rest⟩ ⟨m, ⟨us, o, rfl, hus, ho⟩, hclosed, hcomma⟩
    refine ((close_traced ho hclosed fun _ => hcomma).before hus).map ?_
    rintro ⟨_, rest'⟩ ⟨start, stop₁, rfl⟩
    refine ⟨us ++ [⟨.closeParen, start, stop₁⟩], by rw [List.append_assoc]; rfl, ?_⟩
    rw [Place.reach_append hus, Place.reach_cons (Place.step_closeCall rfl)]
    rfl

lemma call_traced {p : Place} {name : String} {position : Nat} {fs : List (Formula ν)} :
    Traced stop p ts (fun _ => True) (call name position fs) := by
  unfold call
  split
  · split
    · exact .ok trivial
    · exact .other nofun
  · split
    · split
      · exact .other nofun
      · exact .ok trivial
    · exact .other nofun

lemma signed_traced (hop : Traces stop operand) {first : Bool} (hts : Admits first ts) :
    Traced stop ⟨.operand first, bs⟩ ts (fun x => Passed ⟨.operand first, bs⟩ bs ts x.2)
      (view (signed stop operand ts)) := by
  match ts with
  | [] =>
    refine .here ?_
    rintro ⟨_, h⟩
    cases h
  | ⟨.comma, _, _⟩ :: _ => exact .here rfl
  | ⟨.closeParen, start, stop₁⟩ :: rest =>
    cases first with
    | false => exact .here rfl
    | true => exact absurd rfl (hts rfl start stop₁ rest)
  | ⟨.number v, _, _⟩ :: rest => exact .ok ⟨[_], none, rfl, rfl, .inl rfl⟩
  | ⟨.operator op, start, stop₁⟩ :: rest =>
    cases op with
    | sub =>
      have hreach : (⟨.operand first, bs⟩ : Place).reach [(⟨.operator .sub, start, stop₁⟩ : Lexeme ν)] =
          some ⟨.operand false, bs⟩ := rfl
      rw [signed_minus]
      refine ((hop negationPrecedence rest false bs .of_false).before hreach).bind ?_
      rintro ⟨f, rest'⟩ ⟨⟨us, o, rfl, hus, ho⟩, -⟩
      exact .ok ⟨⟨.operator .sub, start, stop₁⟩ :: us, o, rfl, hus, ho⟩
    | add | mul | div | pow => exact .here rfl
  | ⟨.openParen, start, stop₁⟩ :: rest =>
    have hreach : (⟨.operand first, bs⟩ : Place).reach [(⟨.openParen, start, stop₁⟩ : Lexeme ν)] =
        some ⟨.operand false, .group :: bs⟩ := rfl
    rw [signed_paren]
    refine ((hop 0 rest false (.group :: bs) .of_false).before hreach).bind ?_
    rintro ⟨f, rest'⟩ ⟨⟨us, o, rfl, hus, ho⟩, hclosed⟩
    have hinside : (⟨.operand first, bs⟩ : Place).reach (⟨.openParen, start, stop₁⟩ :: us) =
        some ⟨.operator o, .group :: bs⟩ := hus
    refine ((close_traced ho hclosed nofun).before hinside).map ?_
    rintro ⟨_, rest⟩ ⟨start', stop₁', rfl⟩
    refine ⟨⟨.openParen, start, stop₁⟩ :: (us ++ [⟨.closeParen, start', stop₁'⟩]), none, ?_, ?_, .inl rfl⟩
    · rw [List.cons_append, List.append_assoc]
      rfl
    · rw [← List.cons_append, Place.reach_append hinside, Place.reach_cons Place.step_closeGroup]
      rfl
  | ⟨.identifier name, start, stop₁⟩ :: rest =>
    by_cases hopen : ∃ a b us, rest = ⟨.openParen, a, b⟩ :: us
    · obtain ⟨a, b, rest, rfl⟩ := hopen
      have hreach : (⟨.operand first, bs⟩ : Place).reach [(⟨.identifier name, start, stop₁⟩ : Lexeme ν),
          ⟨.openParen, a, b⟩] = some ⟨.operand true, .call name 0 :: bs⟩ := rfl
      rw [signed_call]
      refine ((callArguments_traced hop name).before hreach).bind ?_
      rintro ⟨fs, rest'⟩ ⟨us, rfl, hus⟩
      refine call_traced.map fun f _ => ?_
      exact ⟨⟨.identifier name, start, stop₁⟩ :: ⟨.openParen, a, b⟩ :: us, none, rfl, hus, .inl rfl⟩
    · simp only [not_exists] at hopen
      rw [signed_named hopen]
      exact .ok ⟨[_], some name, rfl, rfl, .inr hopen⟩

lemma resumed_traced (hop : Traces stop (@level ν stop levels)) {p : Place} {least : Nat} {head : Formula ν}
    {done : List (Operator × Formula ν)} (h : Passed p bs ts rest) :
    Traced stop p ts (fun x => Passed p bs ts x.2 ∧ Closed least x.2) (resumed stop levels least head done rest) := by
  induction hk : rest.length using Nat.strongRecOn generalizing done rest with
  | ind k ih =>
    by_cases hnext : Closed least rest
    · rw [resumed_closed hnext]
      exact .ok ⟨h, hnext⟩
    · simp only [Closed, not_forall, Nat.not_lt] at hnext
      obtain ⟨op, start, stop₁, rest, rfl, hop'⟩ := hnext
      obtain ⟨us, o, rfl, hus, -⟩ := h
      have hreach : p.reach (us ++ [⟨.operator op, start, stop₁⟩]) = some ⟨.operand false, bs⟩ := by
        rw [Place.reach_append hus, Place.reach_operator]
        rfl
      have hright := (hop (operandPrecedence op) rest false bs .of_false).before hreach
      rw [List.append_assoc, List.singleton_append] at hright
      rw [resumed_operator hop']
      refine hright.bind ?_
      rintro ⟨f, rest'⟩ ⟨⟨vs, o', rfl, hvs, ho'⟩, -⟩
      refine ih rest'.length ?_ ⟨us ++ ⟨.operator op, start, stop₁⟩ :: vs, o', ?_, ?_, ho'⟩ rfl
      · simp only [← hk, List.length_cons, List.length_append]
        omega
      · rw [List.append_assoc, List.cons_append]
      · rw [List.append_cons, Place.reach_append hreach]
        exact hvs

lemma level_traced (stop levels : Nat) : Traces stop (@level ν stop levels) := by
  induction levels with
  | zero =>
    intro least ts first bs _
    exact .other nofun
  | succ levels ih =>
    intro least ts first bs hts
    rw [level_succ]
    exact (signed_traced ih hts).bind fun x hx => resumed_traced ih hx

lemma refuses_end (ho : o = none ∨ ∀ a b vs, rest ≠ ⟨.openParen, a, b⟩ :: vs) (hclosed : Closed 0 rest)
    (hrest : rest ≠ []) : (⟨.operator o, []⟩ : Place).Refuses rest := by
  match rest with
  | [] => exact absurd rfl hrest
  | ⟨.operator op, start, stop₁⟩ :: rest => exact absurd (hclosed op start stop₁ rest rfl) (Nat.not_lt_zero _)
  | ⟨.openParen, start, stop₁⟩ :: rest =>
    rcases ho with rfl | ho
    · rfl
    · exact absurd rfl (ho start stop₁ rest)
  | ⟨.number v, _, _⟩ :: _ | ⟨.identifier name, _, _⟩ :: _ | ⟨.closeParen, _, _⟩ :: _ | ⟨.comma, _, _⟩ :: _ =>
    cases o <;> rfl

lemma ofTokens_traced (stop : Nat) (ts : List (Lexeme ν)) :
    Traced stop Place.start ts (fun _ => True) (ofTokens stop ts) := by
  rw [ofTokens_eq]
  refine (level_traced stop maxNesting 0 ts false [] .of_false).bind ?_
  rintro ⟨f, rest⟩ ⟨⟨us, o, rfl, hus, ho⟩, hclosed⟩
  dsimp only at ho hclosed ⊢
  split
  · exact .ok trivial
  · rename_i hrest
    rw [List.isEmpty_iff] at hrest
    exact (Traced.here (refuses_end ho hclosed hrest)).before hus

end Parser

section Positions

variable {ts us : List (Lexeme ν)} {q : Place} {t : Lexeme ν}

lemma isOpening_of_reach (h : Place.start.reach us = some q) : IsOpening (tokens us) := isOpening_iff.mpr ⟨q, h⟩

lemma not_isOpening_of_refuses (h : Place.start.reach us = some q) (ht : q.Refuses (t :: ts)) (vs : List (Lexeme ν)) :
    ¬ IsOpening (tokens (us ++ t :: vs)) := by
  intro hopening
  obtain ⟨r, hr⟩ := isOpening_iff.mp hopening
  have hnone : q.reach (t :: vs) = none := by
    rw [Place.reach, tokens_cons, Place.run_cons, (show q.step _ t.token = none from ht)]
    rfl
  have hsome : q.reach (t :: vs) = some r := (Place.reach_append h).symm.trans hr
  cases hnone.symm.trans hsome

lemma not_isSentence_of_refuses (h : Place.start.reach us = some q) (hq : q.Refuses ([] : List (Lexeme ν))) :
    ¬ IsSentence (tokens us) := by
  intro hsentence
  obtain ⟨r, hr, hend⟩ := isSentence_iff.mp hsentence
  obtain rfl := Option.some.inj (h.symm.trans hr)
  exact hq hend

lemma length_le_utf8ByteSize (source : String) : source.toList.length ≤ source.utf8ByteSize := by
  rw [← String.utf8Len_toList]
  induction source.toList with
  | nil => exact Nat.le_refl _
  | cons c cs ih =>
    have hpos := c.utf8Size_pos
    rw [String.utf8Len_cons, List.length_cons]
    omega

variable [Number ν] {source : String} {position : Nat} {wanted : Expectation} {found : Option (Token ν)}

lemma start_lt_of_tokenize (h : Token.tokenize source = .ok ts) (ht : t ∈ ts) : t.start < source.utf8ByteSize := by
  obtain ⟨q, htiles⟩ := Token.tiles_of_tokenize h
  have hlength := htiles.extent
  have hwithin := htiles.within.2 t ht
  have hbytes := length_le_utf8ByteSize source
  rw [List.length_nil] at hlength
  omega

/-- Where tokens that are not as expected are complained of is where the first of them starts with which no sentence
goes on; or the end of the text, just if the tokens are the beginning of a sentence and none themselves. -/
theorem unexpected_token_is_first_impossible (htokens : Token.tokenize source = .ok ts)
    (h : (parse source : Except (ExpressionError ν) (Formula ν)) =
      .error (.malformed position (.unexpected wanted found))) :
    ((∃ before t after, ts = before ++ t :: after ∧ position = t.start ∧ found = some t.token ∧
        IsOpening (tokens before) ∧ ¬ IsOpening (tokens (before ++ [t]))) ∨
      position = source.utf8ByteSize ∧ found = none) ∧
    (position = source.utf8ByteSize ↔ IsOpening (tokens ts) ∧ ¬ IsSentence (tokens ts)) := by
  rw [parse_eq htokens] at h
  have htraced := ofTokens_traced source.utf8ByteSize ts
  rw [h] at htraced
  generalize he : (ExpressionError.malformed position (.unexpected wanted found) : ExpressionError ν) = e at htraced
  cases htraced with
  | other hother => exact absurd he.symm (hother position wanted found)
  | @unexpected us rest q _ hts hus hrest =>
    cases he
    subst hts
    cases rest with
    | nil =>
      rw [List.append_nil]
      exact ⟨.inr ⟨rfl, rfl⟩, fun _ => ⟨isOpening_of_reach hus, not_isSentence_of_refuses hus hrest⟩, fun _ => rfl⟩
    | cons t rest =>
      have hlt : t.start < source.utf8ByteSize := start_lt_of_tokenize htokens (by simp)
      refine ⟨.inl ⟨us, t, rest, rfl, rfl, rfl, isOpening_of_reach hus, not_isOpening_of_refuses hus hrest []⟩, ?_, ?_⟩
      · intro hstart
        exact absurd hstart hlt.ne
      · rintro ⟨hopening, -⟩
        exact absurd hopening (not_isOpening_of_refuses hus hrest rest)

theorem operand_after_argument_is_impossible : ∃ (before after : List (Lexeme Float)) (t : Lexeme Float),
    Token.tokenize "f(-a, b ^ (c) d)" = .ok (before ++ t :: after) ∧
      (parse "f(-a, b ^ (c) d)" : Except _ (Formula Float)) =
        .error (.malformed t.start (.unexpected .closeParen (some t.token))) ∧
      IsOpening (tokens before) ∧ ¬ IsOpening (tokens (before ++ [t])) := by
  have htokens : Token.tokenize "f(-a, b ^ (c) d)" = .ok [⟨.identifier "f", 0, 1⟩, ⟨.openParen, 1, 2⟩,
      ⟨.operator .sub, 2, 3⟩, ⟨.identifier "a", 3, 4⟩, ⟨.comma, 4, 5⟩, ⟨.identifier "b", 6, 7⟩, ⟨.operator .pow, 8, 9⟩,
      ⟨.openParen, 10, 11⟩, ⟨.identifier "c", 11, 12⟩, ⟨.closeParen, 12, 13⟩, ⟨.identifier "d", 14, 15⟩,
      (⟨.closeParen, 15, 16⟩ : Lexeme Float)] := by
    cbv
  have hparse : (parse "f(-a, b ^ (c) d)" : Except _ (Formula Float)) =
      .error (.malformed 14 (.unexpected .closeParen (some (.identifier "d")))) := by
    cbv
  rcases (unexpected_token_is_first_impossible htokens hparse).1 with
    ⟨before, t, after, hts, hstart, hfound, hbefore, ht⟩ | ⟨-, hfound⟩
  · refine ⟨before, after, t, by rw [htokens, hts], by rw [hparse, hstart, hfound], hbefore, ht⟩
  · cases hfound

end Positions

end Uncertainty.Formula
