import Uncertainty.Formula.Outline
import Uncertainty.Proofs.Formula.Lookahead

namespace Uncertainty.Token

open Formula

variable {ν : Type} [Number ν]

lemma longest_blank {c : Char} (h : isBlank c = true) (cs : List Char) : longest (c :: cs) = 0 := by
  simp only [isBlank, Bool.or_eq_true, decide_eq_true_eq] at h
  rcases h with ((rfl | rfl) | rfl) | rfl <;> rfl

lemma exists_cons_of_longest {text cs : List Char} (hne : text ≠ []) (hlong : longest (text ++ cs) = text.length) :
    ∃ c rest, text ++ cs = c :: rest ∧ ¬ isBlank c = true ∧ ¬ longest (c :: rest) = 0 ∧
      (c :: rest).take (longest (c :: rest)) = text ∧ (c :: rest).drop (longest (c :: rest)) = cs := by
  cases text with
  | nil => exact absurd rfl hne
  | cons c text =>
    have hpos : ¬ longest (c :: (text ++ cs)) = 0 := by
      rw [← List.cons_append, hlong]
      exact Nat.succ_ne_zero _
    refine ⟨c, text ++ cs, rfl, fun hc => hpos (longest_blank hc _), hpos, ?_, ?_⟩
    · rw [← List.cons_append, hlong, List.take_left]
    · rw [← List.cons_append, hlong, List.drop_left]

section Lexing

variable {position : Nat} {done : List (Lexeme ν)} {cs : List Char}

lemma lex_blank {c : Char} (h : isBlank c = true) (cs : List Char) :
    lex position done (c :: cs) = lex (position + 1) done cs := by
  rw [lex, if_pos h]

lemma lex_token {text : List Char} {t : Token ν} (hne : text ≠ []) (hlong : longest (text ++ cs) = text.length)
    (ht : ofText? text = some t) : lex position done (text ++ cs) =
      lex (position + text.length) (⟨t, position, position + text.length⟩ :: done) cs := by
  obtain ⟨c, rest, heq, hc, hpos, htake, hdrop⟩ := exists_cons_of_longest hne hlong
  rw [← hlong, heq, lex, if_neg hc, if_neg hpos, htake, hdrop, ht]

end Lexing

/-- From the position on, the characters are those of the tokens with blanks between them, up to where `rest` is
left. -/
inductive Tiles : Nat → List Char → List (Lexeme ν) → Nat → List Char → Prop
  | nil {p cs} : Tiles p cs [] p cs
  | blank {p c cs ts q rest} : isBlank c = true → Tiles (p + 1) cs ts q rest → Tiles p (c :: cs) ts q rest
  | token {p text t cs ts q rest} : text ≠ [] → longest (text ++ cs) = text.length → ofText? text = some t →
    Tiles (p + text.length) cs ts q rest → Tiles p (text ++ cs) (⟨t, p, p + text.length⟩ :: ts) q rest

inductive Stuck (ν : Type) [Number ν] : List Char → String → Prop
  | unknown {c cs} : isBlank c = false → longest (c :: cs) = 0 → Stuck ν (c :: cs) (String.singleton c)
  | overflow {text cs} : text ≠ [] → longest (text ++ cs) = text.length → (ofText? text : Option (Token ν)) = none →
    Stuck ν (text ++ cs) (String.ofList text)

namespace Tiles

variable {p q r : Nat} {cs rest more : List Char} {ts us : List (Lexeme ν)}

lemma append (h : Tiles p cs ts q rest) (h' : Tiles q rest us r more) : Tiles p cs (ts ++ us) r more := by
  induction h with
  | nil => exact h'
  | blank hc _ ih => exact .blank hc (ih h')
  | token hne hlong ht _ ih => exact .token hne hlong ht (ih h')

lemma extent (h : Tiles p cs ts q rest) : p + cs.length = q + rest.length := by
  induction h with
  | nil => rfl
  | blank _ _ ih =>
    rw [List.length_cons]
    omega
  | token _ _ _ _ ih =>
    rw [List.length_append]
    omega

lemma within (h : Tiles p cs ts q rest) : p ≤ q ∧ ∀ t ∈ ts, p ≤ t.start ∧ t.start < t.stop ∧ t.stop ≤ q := by
  induction h with
  | nil => exact ⟨Nat.le_refl _, nofun⟩
  | blank _ _ ih =>
    obtain ⟨hle, hts⟩ := ih
    refine ⟨by omega, fun t ht => ?_⟩
    have := hts t ht
    omega
  | @token p text t cs ts q rest hne _ _ _ ih =>
    obtain ⟨hle, hts⟩ := ih
    have hpos : 0 < text.length := List.length_pos_iff.mpr hne
    refine ⟨by omega, fun u hu => ?_⟩
    rcases List.mem_cons.mp hu with rfl | hu
    · dsimp only
      omega
    · have := hts u hu
      omega

lemma moved (h : Tiles p cs ts q []) (hmore : Stops more) (p' : Nat) :
    ∃ us q', tokens us = tokens ts ∧ Tiles p' (cs ++ more) us q' more := by
  generalize hrest : ([] : List Char) = rest at h
  induction h generalizing p' with
  | nil =>
    subst hrest
    exact ⟨[], p', rfl, .nil⟩
  | blank hc _ ih =>
    obtain ⟨us, q', hus, h⟩ := ih (p' + 1) hrest
    exact ⟨us, q', hus, .blank hc h⟩
  | @token p text t cs ts q rest hne hlong ht _ ih =>
    obtain ⟨us, q', hus, h⟩ := ih (p' + text.length) hrest
    refine ⟨⟨t, p', p' + text.length⟩ :: us, q', by rw [tokens_cons, tokens_cons, hus], ?_⟩
    rw [List.append_assoc]
    refine .token hne ?_ ht h
    rw [← List.append_assoc, longest_append hmore (List.append_ne_nil_of_left_ne_nil hne cs), hlong]

lemma lex_eq (h : Tiles p cs ts q rest) (done : List (Lexeme ν)) :
    lex p done cs = lex q (ts.reverse ++ done) rest := by
  induction h generalizing done with
  | nil => rfl
  | blank hc _ ih => rw [lex_blank hc, ih]
  | token hne hlong ht _ ih =>
    rw [lex_token hne hlong ht, ih, List.reverse_cons, List.append_assoc]
    rfl

end Tiles

lemma Stuck.lex_eq {cs : List Char} {text : String} (h : Stuck ν cs text) (p : Nat) (done : List (Lexeme ν)) :
    lex p done cs = .error (.malformed p (.unknownInput text)) := by
  cases h with
  | @unknown c cs hc hlong =>
    rw [lex, if_neg (by rw [hc]; exact Bool.false_ne_true), if_pos hlong]
  | overflow hne hlong ht =>
    obtain ⟨c, rest, heq, hc, hpos, htake, -⟩ := exists_cons_of_longest hne hlong
    rw [heq, lex, if_neg hc, if_neg hpos, htake, ht]

def Finished (ν : Type) [Number ν] (cs : List Char) : Prop := cs = [] ∨ ∃ text, Stuck ν cs text

lemma exists_tiles (p : Nat) (cs : List Char) :
    ∃ (ts : List (Lexeme ν)) (q : Nat) (rest : List Char), Tiles p cs ts q rest ∧ Finished ν rest := by
  induction hn : cs.length using Nat.strongRecOn generalizing p cs with
  | ind n ih =>
    subst hn
    match cs with
    | [] => exact ⟨[], p, [], .nil, .inl rfl⟩
    | c :: cs =>
      cases hc : isBlank c with
      | true =>
        obtain ⟨ts, q, rest, h, hrest⟩ := ih cs.length (Nat.lt_succ_self _) (p + 1) cs rfl
        exact ⟨ts, q, rest, .blank hc h, hrest⟩
      | false =>
        by_cases hzero : longest (c :: cs) = 0
        · exact ⟨[], p, c :: cs, .nil, .inr ⟨_, .unknown hc hzero⟩⟩
        · obtain ⟨text, after, hsplit, hlength⟩ : ∃ text after, c :: cs = text ++ after ∧
              text.length = longest (c :: cs) :=
            ⟨_, _, (List.take_append_drop (longest (c :: cs)) (c :: cs)).symm, by
              rw [List.length_take, Nat.min_eq_left (longest_le _)]⟩
          have hne : text ≠ [] := by
            rintro rfl
            exact hzero hlength.symm
          have hlong : longest (text ++ after) = text.length := by rw [← hsplit, hlength]
          rw [hsplit]
          cases ht : (ofText? text : Option (Token ν)) with
          | none => exact ⟨[], p, _, .nil, .inr ⟨_, .overflow hne hlong ht⟩⟩
          | some t =>
            have hlt : after.length < (c :: cs).length := by
              rw [hsplit, List.length_append]
              have := List.length_pos_iff.mpr hne
              omega
            obtain ⟨ts, q, rest, h, hrest⟩ := ih after.length hlt (p + text.length) after rfl
            exact ⟨_, q, rest, .token hne hlong ht h, hrest⟩

section Sources

variable {source : String} {ts : List (Lexeme ν)} {q : Nat}

lemma Tiles.tokenize_eq (h : Tiles 0 source.toList ts q []) : tokenize source = .ok ts := by
  rw [tokenize, h.lex_eq, lex, List.append_nil, List.reverse_reverse]

lemma tiles_of_tokenize (h : tokenize source = .ok ts) : ∃ q, Tiles 0 source.toList ts q [] := by
  obtain ⟨us, q, rest, hus, hrest⟩ := exists_tiles (ν := ν) 0 source.toList
  rcases hrest with rfl | ⟨text, hstuck⟩
  · obtain rfl := Except.ok.inj (h.symm.trans hus.tokenize_eq)
    exact ⟨q, hus⟩
  · rw [tokenize, hus.lex_eq, hstuck.lex_eq] at h
    cases h

end Sources

end Uncertainty.Token
