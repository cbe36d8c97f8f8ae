import Uncertainty.Formula.Printing
import Uncertainty.Proofs.Formula.Tiling

namespace Uncertainty

variable {ν : Type}

namespace Distribution

def name : Distribution ν → String
  | normal _ _ => "normal"
  | sampled _ => "sampled"

lemma name_eq (d : Distribution ν) : d.name = "normal" ∨ d.name = "sampled" := by
  cases d with
  | normal mu sigma => exact .inl rfl
  | sampled values => exact .inr rfl

end Distribution

namespace Token

def Breaks (cs : List Char) : Prop := ∀ c, cs.head? = some c → c = ' ' ∨ c = ')' ∨ c = ','

lemma Breaks.append {cs cs' : List Char} (h : Breaks cs) (h' : Breaks cs') : Breaks (cs ++ cs') := by
  cases cs with
  | nil => exact h'
  | cons c cs => exact h

lemma Breaks.stops {cs : List Char} (h : Breaks cs) : Stops cs := by
  intro c hc
  rcases h c hc with rfl | rfl | rfl <;> decide

lemma isDigit_iff (c : Char) : isDigit c = true ↔ 48 ≤ c.toNat ∧ c.toNat ≤ 57 := by
  simp only [isDigit, Bool.and_eq_true, decide_eq_true_eq]
  exact Iff.rfl

lemma isNameStart_of_isDigit {c : Char} (h : isDigit c = true) : isNameStart c = false := by
  rw [isDigit_iff] at h
  have hupper : ¬ 'A' ≤ c := fun hc => by
    have : 65 ≤ c.toNat := hc
    omega
  have hlower : ¬ 'a' ≤ c := fun hc => by
    have : 97 ≤ c.toNat := hc
    omega
  have hunder : c ≠ '_' := by
    rintro rfl
    revert h
    decide
  simp [isNameStart, hupper, hlower, hunder]

lemma symbolLength_of_isDigit {c : Char} (h : isDigit c = true) (cs : List Char) : symbolLength (c :: cs) = 0 := by
  have hne : ∀ d, isDigit d = false → c ≠ d := by
    rintro d hd rfl
    rw [hd] at h
    cases h
  have hop : Operator.ofChar? c = none := by
    unfold Operator.ofChar?
    split <;> first | exact absurd h (by decide) | rfl
  simp [symbolLength, hop, hne '(' rfl, hne ')' rfl, hne ',' rfl]

lemma isDigit_of_numberLength {c : Char} {cs : List Char} (h : numberLength (c :: cs) ≠ 0) : isDigit c = true := by
  cases hc : isDigit c with
  | true => rfl
  | false =>
    have hrun : digitRun (c :: cs) = 0 := by simp [digitRun, hc]
    exact absurd (by simp [numberLength, hrun]) h

lemma longest_numeral {cs suffix : List Char} (h : numberLength cs = cs.length) (hne : cs ≠ []) (hb : Breaks suffix) :
    longest (cs ++ suffix) = cs.length := by
  cases cs with
  | nil => exact absurd rfl hne
  | cons c cs =>
    have hd : isDigit c = true := isDigit_of_numberLength (by rw [h]; exact Nat.succ_ne_zero _)
    rw [longest, numberLength_append hb.stops, h]
    simp [nameLength, isNameStart_of_isDigit hd, symbolLength_of_isDigit hd]

variable [Number ν]

def Spells (cs : List Char) (tokens : List (Token ν)) : Prop :=
  ∀ (position : Nat) (done : List (Lexeme ν)) (suffix : List Char), Breaks suffix →
    ∃ (position' : Nat) (ts : List (Lexeme ν)), ts.map (·.token) = tokens ∧
    lex position done (cs ++ suffix) = lex position' (ts.reverse ++ done) suffix

namespace Spells

variable {cs cs' : List Char} {tokens tokens' : List (Token ν)}

lemma nil : Spells [] ([] : List (Token ν)) := fun position _ _ _ => ⟨position, [], rfl, rfl⟩

lemma append (h : Spells cs tokens) (h' : Spells cs' tokens') (hb : Breaks cs') :
    Spells (cs ++ cs') (tokens ++ tokens') := by
  intro position done suffix hs
  obtain ⟨position₁, ts, hts, hlex⟩ := h position done (cs' ++ suffix) (hb.append hs)
  obtain ⟨position₂, ts', hts', hlex'⟩ := h' position₁ (ts.reverse ++ done) suffix hs
  refine ⟨position₂, ts ++ ts', by rw [List.map_append, hts, hts'], ?_⟩
  rw [List.append_assoc, hlex, hlex', List.reverse_append, List.append_assoc]

lemma blank (h : Spells cs tokens) : Spells (' ' :: cs) tokens := by
  intro position done suffix hs
  obtain ⟨position', ts, hts, hlex⟩ := h (position + 1) done suffix hs
  exact ⟨position', ts, hts, (lex_blank rfl _).trans hlex⟩

lemma cons {t : Token ν} {text : List Char} (h : Spells cs tokens) (hne : text ≠ [])
    (hlong : ∀ suffix, longest (text ++ (cs ++ suffix)) = text.length) (ht : ofText? text = some t) :
    Spells (text ++ cs) (t :: tokens) := by
  intro position done suffix hs
  obtain ⟨position', ts, hts, hlex⟩ :=
    h (position + text.length) (⟨t, position, position + text.length⟩ :: done) suffix hs
  refine ⟨position', ⟨t, position, position + text.length⟩ :: ts, by rw [List.map_cons, hts], ?_⟩
  rw [List.append_assoc, lex_token hne (hlong suffix) ht, hlex, List.reverse_cons, List.append_assoc]
  rfl

lemma openParen (h : Spells cs tokens) : Spells ('(' :: cs) (.openParen :: tokens) :=
  h.cons (List.cons_ne_nil '(' []) (fun _ => rfl) rfl

lemma closeParen (h : Spells cs tokens) : Spells (')' :: cs) (.closeParen :: tokens) :=
  h.cons (List.cons_ne_nil ')' []) (fun _ => rfl) rfl

lemma comma (h : Spells cs tokens) : Spells (',' :: cs) (.comma :: tokens) :=
  h.cons (List.cons_ne_nil ',' []) (fun _ => rfl) rfl

lemma operator (h : Spells cs tokens) (op : Operator) :
    Spells (op.symbol.toList ++ cs) (.operator op :: tokens) := by
  cases op <;> exact h.cons (List.cons_ne_nil _ []) (fun _ => rfl) rfl

lemma call (h : Spells cs tokens) {name : String} (hname : name = "normal" ∨ name = "sampled") :
    Spells (name.toList ++ '(' :: cs) (.identifier name :: .openParen :: tokens) := by
  intro position done suffix hs
  obtain ⟨position', ts, hts, hlex⟩ := h.openParen (position + name.toList.length)
    (⟨.identifier name, position, position + name.toList.length⟩ :: done) suffix hs
  refine ⟨position', ⟨.identifier name, position, position + name.toList.length⟩ :: ts,
    by rw [List.map_cons, hts], ?_⟩
  rw [List.append_assoc, List.reverse_cons, List.append_assoc]
  refine Eq.trans ?_ hlex
  rcases hname with rfl | rfl
  · exact lex_token (by decide) rfl rfl
  · exact lex_token (by decide) rfl rfl

lemma numeral [LawfulSign ν] {v : ν} (h : Number.IsReadable v) :
    Spells (Number.text (Number.magnitude v)).toList [.number (Number.magnitude v)] := by
  intro position done suffix hs
  obtain ⟨c, cs, hcs⟩ := List.exists_cons_of_ne_nil h.nonempty
  have hd : isDigit c = true := by
    apply isDigit_of_numberLength
    rw [← hcs, h.numeral, hcs]
    exact Nat.succ_ne_zero _
  have htext : ofText? (Number.text (Number.magnitude v)).toList = some (Token.number (Number.magnitude v)) := by
    rw [hcs, ofText?, if_pos hd, ← hcs, h.value, if_pos (LawfulSign.isFinite_magnitude h.finite)]
  let stop := position + (Number.text (Number.magnitude v)).toList.length
  refine ⟨stop, [⟨.number (Number.magnitude v), position, stop⟩], rfl, ?_⟩
  rw [lex_token h.nonempty (longest_numeral h.numeral h.nonempty hs) htext]
  rfl

end Spells

end Token

open Token

variable [Number ν]

namespace Number

def tokens (v : ν) : List (Token ν) :=
  if isNegative v then [.operator .sub, .number (magnitude v)] else [.number (magnitude v)]

lemma text_spells [LawfulSign ν] {v : ν} (h : IsReadable v) : Spells (text v).toList (tokens v) := by
  have hn := Spells.numeral h
  rw [LawfulSign.text_eq h.finite, tokens]
  by_cases hv : isNegative v = true
  · rw [if_pos hv, if_pos hv, String.toList_append]
    exact hn.operator .sub
  · rw [if_neg hv, if_neg hv, String.toList_append]
    exact hn

end Number

namespace Distribution

def argumentTokens (rest : List (Token ν)) : List ν → List (Token ν)
  | [] => rest
  | [v] => Number.tokens v ++ rest
  | v :: vs => Number.tokens v ++ .comma :: argumentTokens rest vs

lemma arguments_spell [LawfulSign ν] {values : List ν} (h : ∀ v ∈ values, Number.IsReadable v) :
    Spells ((", ".intercalate (values.map Number.text)).toList ++ [')']) (argumentTokens [.closeParen] values) := by
  have hclose : Spells [')'] [(Token.closeParen : Token ν)] := Spells.nil.closeParen
  have hbreaks : ∀ {c cs}, c = ' ' ∨ c = ')' ∨ c = ',' → Breaks (c :: cs) := by
    rintro c cs hc _ ⟨⟩
    exact hc
  induction values with
  | nil => exact hclose
  | cons v values ih =>
    have hv := Number.text_spells (h v List.mem_cons_self)
    cases values with
    | nil => exact hv.append hclose (hbreaks (.inr (.inl rfl)))
    | cons w values =>
      have hrest := ih fun u hu => h u (List.mem_cons_of_mem v hu)
      rw [List.map_cons, List.map_cons, String.intercalate_cons_cons, String.toList_append, String.toList_append,
        List.append_assoc, List.append_assoc]
      exact hv.append hrest.blank.comma (hbreaks (.inr (.inr rfl)))

def tokens (d : Distribution ν) : List (Token ν) :=
  .identifier d.name :: .openParen :: argumentTokens [.closeParen] d.numbers

lemma text_eq (d : Distribution ν) :
    d.text.toList = d.name.toList ++ '(' :: ((", ".intercalate (d.numbers.map Number.text)).toList ++ [')']) := by
  cases d with
  | normal mu sigma =>
    simp only [text, numbers, name, List.map_cons, List.map_nil, String.intercalate_cons_cons,
      String.intercalate_singleton, String.toList_append, List.append_assoc]
    rfl
  | sampled values =>
    simp only [text, numbers, name, String.toList_append, List.append_assoc]
    rfl

lemma text_spells [LawfulSign ν] {d : Distribution ν} (h : ∀ v ∈ d.numbers, Number.IsReadable v) :
    Spells d.text.toList d.tokens := by
  rw [text_eq]
  exact (arguments_spell h).call d.name_eq

end Distribution

namespace Expression

def wrapTokens (parens : Bool) (tokens : List (Token ν)) : List (Token ν) :=
  if parens then .openParen :: tokens ++ [.closeParen] else tokens

def tokens : Expression ν → List (Token ν)
  | literal v => Number.tokens v
  | distribution d => d.tokens
  | binary op l r => wrapTokens (wrapsLeft op l) l.tokens ++ .operator op :: wrapTokens (wrapsRight op r) r.tokens

lemma wrap_spells {text : String} {tokens : List (Token ν)} (h : Spells text.toList tokens) (parens : Bool) :
    Spells (wrap parens text).toList (wrapTokens parens tokens) := by
  cases parens with
  | false => exact h
  | true =>
    rw [wrap, wrapTokens, if_pos rfl, if_pos rfl, String.toList_append, String.toList_append, List.append_assoc]
    refine Spells.openParen (h.append Spells.nil.closeParen ?_)
    rintro _ ⟨⟩
    exact .inr (.inl rfl)

lemma text_spells [LawfulSign ν] {e : Expression ν} (h : ∀ v ∈ e.numbers, Number.IsReadable v) :
    Spells e.text.toList e.tokens := by
  induction e with
  | literal v => exact Number.text_spells (h v (List.mem_singleton.mpr rfl))
  | distribution d => exact Distribution.text_spells h
  | binary op l r ihl ihr =>
    have hl := wrap_spells (ihl fun v hv => h v (List.mem_append_left _ hv)) (wrapsLeft op l)
    have hr := wrap_spells (ihr fun v hv => h v (List.mem_append_right _ hv)) (wrapsRight op r)
    simp only [text, String.toList_append, List.append_assoc]
    refine hl.append (hr.blank.operator op).blank ?_
    rintro _ ⟨⟩
    exact .inl rfl

lemma tokenize_text [LawfulSign ν] {e : Expression ν} (h : ∀ v ∈ e.numbers, Number.IsReadable v) :
    ∃ ts : List (Lexeme ν), ts.map (·.token) = e.tokens ∧ tokenize e.text = .ok ts := by
  obtain ⟨position, ts, hts, hlex⟩ := text_spells h 0 [] [] nofun
  refine ⟨ts, hts, ?_⟩
  rw [List.append_nil, List.append_nil] at hlex
  rw [tokenize, hlex, lex, List.reverse_reverse]

end Expression

end Uncertainty
