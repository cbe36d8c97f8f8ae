import Uncertainty.Formula.Substitution
import Uncertainty.Proofs.Formula.Tiling

namespace Uncertainty.Formula

open Token

variable {ν : Type}

section Parts

def startsCall (ts : List (Token ν)) : Bool :=
  match ts.head? with
  | some .openParen => true
  | _ => false

def part (t : Token ν) (after : List (Token ν)) : String ⊕ Token ν :=
  match t with
  | .identifier name => if startsCall after then .inr t else .inl name
  | _ => .inr t

def parts : List (Token ν) → List (String ⊕ Token ν)
  | [] => []
  | t :: ts => part t ts :: parts ts

def spliced (texts : String → List (Token ν)) (ts : List (Token ν)) : List (Token ν) :=
  (parts ts).flatMap (Sum.elim texts fun t => [t])

variable {texts : String → List (Token ν)} {t t' : Token ν} {ts us : List (Token ν)} {name : String}

lemma eq_of_part_inl (h : part t ts = .inl name) : t = .identifier name ∧ startsCall ts = false := by
  unfold part at h
  split at h
  · split at h
    · cases h
    · cases h
      exact ⟨rfl, Bool.eq_false_iff.mpr ‹_›⟩
  · cases h

lemma eq_of_part_inr (h : part t ts = .inr t') : t' = t ∧ ∀ name, t = .identifier name → startsCall ts = true := by
  unfold part at h
  split at h
  · split at h
    · cases h
      exact ⟨rfl, fun _ _ => ‹_›⟩
    · cases h
  · rename_i hother
    cases h
    exact ⟨rfl, fun name hname => absurd hname (hother name)⟩

lemma parts_append (h : startsCall us = false) : parts (ts ++ us) = parts ts ++ parts us := by
  induction ts with
  | nil => rfl
  | cons t ts ih =>
    have hstarts : startsCall (ts ++ us) = startsCall ts := by
      cases ts with
      | nil => exact h
      | cons => rfl
    have hpart : part t (ts ++ us) = part t ts := by
      unfold part
      rw [hstarts]
    rw [List.cons_append, parts, parts, ih, hpart]
    rfl

lemma spliced_cons : spliced texts (t :: ts) = Sum.elim texts (fun t => [t]) (part t ts) ++ spliced texts ts := by
  rw [spliced, parts, List.flatMap_cons]
  rfl

def separates : Token ν → Bool
  | .operator _ | .closeParen | .comma => true
  | _ => false

lemma parts_separator (ht : separates t = true) : parts (ts ++ t :: us) = parts ts ++ .inr t :: parts us := by
  have hstarts : startsCall (t :: us) = false := by
    cases t with
    | openParen => cases ht
    | _ => rfl
  have hpart : part t us = .inr t := by
    cases t with
    | identifier name => cases ht
    | _ => rfl
  rw [parts_append hstarts, parts, hpart]

lemma spliced_separator (ht : separates t = true) :
    spliced texts (ts ++ t :: us) = spliced texts ts ++ t :: spliced texts us := by
  rw [spliced, parts_separator ht, List.flatMap_append, List.flatMap_cons]
  rfl

lemma spliced_self : spliced (fun name => [.identifier name]) ts = ts := by
  induction ts with
  | nil => rfl
  | cons t ts ih =>
    rw [spliced_cons, ih]
    cases t with
    | identifier name =>
      rw [part]
      split <;> rfl
    | _ => rfl

end Parts

section Alike

/-- To a token before them, it makes no difference which of the two follow. -/
def LooksAlike (cs cs' : List Char) : Prop :=
  ∀ text, text ≠ [] → longest (text ++ cs) ≤ text.length → longest (text ++ cs') = longest (text ++ cs)

variable {cs cs' : List Char}

lemma LooksAlike.refl : LooksAlike cs cs := fun _ _ _ => rfl

lemma LooksAlike.of_stops (h : Stops cs') : LooksAlike cs cs' := fun _ hne hle => longest_congr hne hle h

lemma LooksAlike.append (h : LooksAlike cs cs') (before : List Char) : LooksAlike (before ++ cs) (before ++ cs') := by
  intro text hne hle
  rw [← List.append_assoc, ← List.append_assoc]
  refine h (text ++ before) (List.append_ne_nil_of_left_ne_nil hne before) ?_
  rw [List.append_assoc, List.length_append]
  omega

end Alike

variable [Number ν] {cs rest : List Char} {p q : Nat} {ts : List (Lexeme ν)}

section Pieces

lemma pieces_nil : pieces ν [] = [] := by rw [pieces]

lemma pieces_blank {c : Char} (h : isBlank c = true) : pieces ν (c :: cs) = .verbatim [c] :: pieces ν cs := by
  rw [pieces, if_pos h]

lemma pieces_token {text : List Char} {t : Token ν} (hne : text ≠ []) (hlong : longest (text ++ cs) = text.length)
    (ht : ofText? text = some t) : pieces ν (text ++ cs) = .ofToken t text cs :: pieces ν cs := by
  obtain ⟨c, rest, heq, hc, hpos, htake, hdrop⟩ := exists_cons_of_longest hne hlong
  rw [heq, pieces, if_neg hc]
  dsimp only
  rw [if_neg hpos, htake, hdrop, ht]

lemma pieces_stuck {word : String} (h : Stuck ν cs word) : pieces ν cs = [.verbatim cs] := by
  cases h with
  | @unknown c cs hc hlong => rw [pieces, if_neg (by rw [hc]; exact Bool.false_ne_true), if_pos hlong]
  | overflow hne hlong ht =>
    obtain ⟨c, rest, heq, hc, hpos, htake, -⟩ := exists_cons_of_longest hne hlong
    rw [heq, pieces, if_neg hc]
    dsimp only
    rw [if_neg hpos, htake, ht]

end Pieces

section Calls

lemma opensCall_cons {c : Char} (hc : ¬ isBlank c = true) : opensCall (c :: cs) = decide (c = '(') := by
  rw [opensCall, List.dropWhile_cons_of_neg hc, List.head?_cons]
  exact decide_eq_decide.mpr Option.some_inj

lemma opensCall_stuck {word : String} (h : Stuck ν cs word) : opensCall cs = false := by
  cases h with
  | @unknown c cs hc hlong =>
    rw [opensCall_cons (by rw [hc]; exact Bool.false_ne_true), decide_eq_false_iff_not]
    rintro rfl
    cases hlong
  | overflow hne hlong ht =>
    obtain ⟨c, rest, heq, hc, -, htake, -⟩ := exists_cons_of_longest hne hlong
    rw [heq, opensCall_cons hc, decide_eq_false_iff_not]
    rintro rfl
    rw [← htake] at ht
    cases ht

lemma eq_of_ofText?_openParen {c : Char} (h : ofText? (c :: cs) = some (.openParen : Token ν)) : c = '(' := by
  rw [ofText?] at h
  split at h
  · dsimp only at h
    split at h <;> cases h
  · split at h
    · cases h
    · unfold ofChar? at h
      split at h
      · rfl
      · cases h
      · cases h
      · obtain ⟨op, -, hop⟩ := Option.map_eq_some_iff.mp h
        cases hop

lemma opensCall_token {text : List Char} {t : Token ν} {us : List (Token ν)} (hne : text ≠ [])
    (hlong : longest (text ++ cs) = text.length) (ht : ofText? text = some t) :
    opensCall (text ++ cs) = startsCall (t :: us) := by
  obtain ⟨c, rest, heq, hc, -, htake, -⟩ := exists_cons_of_longest hne hlong
  rw [heq, opensCall_cons hc]
  by_cases hparen : c = '('
  · subst hparen
    rw [← htake] at ht
    cases ht
    rfl
  · have hother : t ≠ .openParen := by
      rintro rfl
      cases text with
      | nil => exact hne rfl
      | cons d text =>
        obtain rfl := (List.cons.inj heq).1
        exact hparen (eq_of_ofText?_openParen ht)
    rw [decide_eq_false hparen]
    cases t with
    | openParen => exact absurd rfl hother
    | _ => rfl

end Calls

lemma opensCall_eq (h : Tiles p cs ts q rest) (hrest : Finished ν rest) : opensCall cs = startsCall (tokens ts) := by
  induction h with
  | nil =>
    rcases hrest with rfl | ⟨word, hstuck⟩
    · rfl
    · exact opensCall_stuck hstuck
  | blank hc _ ih =>
    rw [← ih hrest, opensCall, List.dropWhile_cons_of_pos hc]
    rfl
  | token hne hlong ht _ _ => exact opensCall_token hne hlong ht

lemma ofToken_eq (h : Tiles p cs ts q rest) (hrest : Finished ν rest) (t : Token ν) (text : List Char) :
    Piece.ofToken t text cs = Sum.elim .named (fun _ => .verbatim text) (part t (tokens ts)) := by
  cases t with
  | identifier name =>
    rw [Piece.ofToken, part, opensCall_eq h hrest]
    split <;> rfl
  | _ => rfl

lemma named_mem_pieces {name : String} (h : Tiles p cs ts q rest) (hrest : Finished ν rest)
    (hname : .inl name ∈ parts (tokens ts)) : .named name ∈ pieces ν cs := by
  induction h with
  | nil => cases hname
  | blank hc _ ih =>
    rw [pieces_blank hc]
    exact List.mem_cons_of_mem _ (ih hrest hname)
  | token hne hlong ht htiles ih =>
    rw [pieces_token hne hlong ht, ofToken_eq htiles hrest]
    rw [tokens_cons, parts] at hname
    rcases List.mem_cons.mp hname with hpart | hname
    · rw [← hpart]
      exact List.mem_cons_self
    · exact List.mem_cons_of_mem _ (ih hrest hname)

section Texts

variable {texts : String → String}

lemma looksAlike_replaced (h : Tiles p cs ts q rest) (hrest : Finished ν rest) :
    LooksAlike cs ((pieces ν cs).flatMap (Piece.replaced texts)) := by
  induction h with
  | nil =>
    rcases hrest with rfl | ⟨word, hstuck⟩
    · rw [pieces_nil]
      exact .refl
    · rw [pieces_stuck hstuck, List.flatMap_singleton]
      exact .refl
  | @blank _ c _ _ _ _ hc _ ih =>
    rw [pieces_blank hc, List.flatMap_cons]
    exact (ih hrest).append [c]
  | @token _ text t _ ts _ _ hne hlong ht htiles ih =>
    rw [pieces_token hne hlong ht, ofToken_eq htiles hrest, List.flatMap_cons]
    cases part t (tokens ts) with
    | inl name => exact .of_stops (by rintro _ ⟨⟩; decide)
    | inr t' => exact (ih hrest).append text

lemma tiles_paren {text : String} {us : List (Lexeme ν)} {after : List (Token ν)} (htext : tokenize text = .ok us)
    (h : ∀ p, ∃ ts q, tokens ts = after ∧ Tiles p cs ts q rest) (p : Nat) :
    ∃ ts q, tokens ts = .openParen :: (tokens us ++ .closeParen :: after) ∧
      Tiles p ('(' :: (text.toList ++ ')' :: cs)) ts q rest := by
  obtain ⟨_, hus⟩ := tiles_of_tokenize htext
  have hstops : Stops (')' :: cs) := by
    rintro _ ⟨⟩
    decide
  obtain ⟨vs, q₁, hvs, hinside⟩ := hus.moved hstops (p + 1)
  obtain ⟨ts, q, hts, hafter⟩ := h (q₁ + 1)
  have hclose : Tiles q₁ (')' :: cs) (⟨.closeParen, q₁, q₁ + 1⟩ :: ts) q rest :=
    .token (List.cons_ne_nil ')' []) rfl rfl hafter
  have hopen : Tiles p ('(' :: (text.toList ++ ')' :: cs)) (⟨.openParen, p, p + 1⟩ :: (vs ++ _)) q rest :=
    .token (List.cons_ne_nil '(' []) rfl rfl (hinside.append hclose)
  exact ⟨_, q, by rw [tokens_cons, tokens_append, tokens_cons, hvs, hts], hopen⟩

lemma tiles_replaced {tokensOf : String → List (Token ν)} (h : Tiles p cs ts q rest) (hrest : Finished ν rest)
    (htexts : ∀ name, .named name ∈ pieces ν cs →
      ∃ us : List (Lexeme ν), tokenize (texts name) = .ok us ∧ tokensOf name = tokens us) (p' : Nat) :
    ∃ us q', tokens us = spliced (fun name => .openParen :: (tokensOf name ++ [.closeParen])) (tokens ts) ∧
      Tiles p' ((pieces ν cs).flatMap (Piece.replaced texts)) us q' rest := by
  induction h generalizing p' with
  | nil =>
    rcases hrest with rfl | ⟨word, hstuck⟩
    · rw [pieces_nil]
      exact ⟨[], p', rfl, .nil⟩
    · rw [pieces_stuck hstuck, List.flatMap_singleton]
      exact ⟨[], p', rfl, .nil⟩
  | blank hc _ ih =>
    rw [pieces_blank hc] at htexts ⊢
    obtain ⟨us, q', hus, htiles⟩ := ih hrest (fun name hname => htexts name (List.mem_cons_of_mem _ hname)) (p' + 1)
    exact ⟨us, q', hus, .blank hc htiles⟩
  | @token _ text t cs ts _ rest hne hlong ht htiles ih =>
    have hlook : LooksAlike cs ((pieces ν cs).flatMap (Piece.replaced texts)) := looksAlike_replaced htiles hrest
    rw [pieces_token hne hlong ht, ofToken_eq htiles hrest] at htexts ⊢
    rw [List.flatMap_cons, tokens_cons, spliced_cons]
    have hlater := ih hrest fun name hname => htexts name (List.mem_cons_of_mem _ hname)
    cases hpart : part t (tokens ts) with
    | inl name =>
      obtain ⟨us, hus, hname⟩ := htexts name (by rw [hpart]; exact List.mem_cons_self)
      have hparen := tiles_paren hus hlater p'
      rw [← hname] at hparen
      simpa only [Sum.elim_inl, Piece.replaced, List.cons_append, List.append_assoc, List.nil_append] using hparen
    | inr t' =>
      obtain ⟨rfl, -⟩ := eq_of_part_inr hpart
      obtain ⟨us, q', hus, hafter⟩ := hlater (p' + text.length)
      have hlong' := (hlook text hne (Nat.le_of_eq hlong)).trans hlong
      exact ⟨⟨t', p', p' + text.length⟩ :: us, q', by rw [tokens_cons, hus]; rfl, .token hne hlong' ht hafter⟩

end Texts

end Uncertainty.Formula
