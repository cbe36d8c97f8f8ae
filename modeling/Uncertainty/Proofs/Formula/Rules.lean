import Mathlib.Data.List.TakeWhile
import Mathlib.Order.CompletePartialOrder
import Uncertainty.Formula.Rules
import Uncertainty.Proofs.Formula.Spelling

namespace Uncertainty.Token

open Computability

section Characters

variable {c : Char}

lemma isDigit_of_isNameStart (h : isNameStart c = true) : isDigit c = false := by
  cases hc : isDigit c with
  | false => rfl
  | true =>
    rw [isNameStart_of_isDigit hc] at h
    cases h

lemma isDigit_of_isExponentMark (h : isExponentMark c = true) : isDigit c = false := by
  simp only [isExponentMark, Bool.or_eq_true, decide_eq_true_eq] at h
  rcases h with rfl | rfl <;> rfl

lemma isDigit_of_isPlusOrMinus (h : isPlusOrMinus c = true) : isDigit c = false := by
  simp only [isPlusOrMinus, Bool.or_eq_true, decide_eq_true_eq] at h
  rcases h with rfl | rfl <;> rfl

lemma isSymbol_iff : isSymbol c = true ↔
    c = '(' ∨ c = ')' ∨ c = ',' ∨ ∃ op, Operator.ofChar? c = some op := by
  constructor
  · intro h
    simp only [isSymbol, List.mem_cons, List.not_mem_nil, or_false, decide_eq_true_eq] at h
    rcases h with rfl | rfl | rfl | rfl | rfl | rfl | rfl | rfl <;> simp [Operator.ofChar?]
  · rintro (rfl | rfl | rfl | ⟨op, h⟩)
    iterate 3 rfl
    unfold Operator.ofChar? at h
    split at h <;> first | rfl | cases h

end Characters

section Membership

variable {p : Char → Bool} {l : Language Char} {text : List Char}

lemma mem_kstar_oneOf : text ∈ (oneOf p)∗ ↔ ∀ c ∈ text, p c = true := by
  rw [Language.mem_kstar]
  constructor
  · rintro ⟨parts, rfl, hparts⟩ c hc
    obtain ⟨part, hpart, hc⟩ := List.mem_flatten.mp hc
    obtain ⟨d, hd, rfl⟩ := hparts part hpart
    rwa [List.mem_singleton.mp hc]
  · intro h
    refine ⟨text.map fun c => [c], ?_, ?_⟩
    · rw [← List.flatMap_def, List.flatMap_singleton']
    · rintro part hpart
      obtain ⟨c, hc, rfl⟩ := List.mem_map.mp hpart
      exact ⟨c, h c hc, rfl⟩

lemma mem_oneOf_mul : text ∈ oneOf p * l ↔ ∃ c rest, p c = true ∧ rest ∈ l ∧ text = c :: rest := by
  rw [Language.mem_mul]
  constructor
  · rintro ⟨_, ⟨c, hc, rfl⟩, rest, hrest, rfl⟩
    exact ⟨c, rest, hc, hrest, rfl⟩
  · rintro ⟨c, rest, hc, hrest, rfl⟩
    exact ⟨[c], ⟨c, hc, rfl⟩, rest, hrest, rfl⟩

lemma mem_digits : text ∈ digits ↔ text ≠ [] ∧ ∀ c ∈ text, isDigit c = true := by
  simp only [digits, mem_oneOf_mul, mem_kstar_oneOf]
  constructor
  · rintro ⟨c, rest, hc, hrest, rfl⟩
    exact ⟨List.cons_ne_nil _ _, List.forall_mem_cons.mpr ⟨hc, hrest⟩⟩
  · rintro ⟨hne, h⟩
    obtain ⟨c, rest, rfl⟩ := List.exists_cons_of_ne_nil hne
    rw [List.forall_mem_cons] at h
    exact ⟨c, rest, h.1, h.2, rfl⟩

lemma mem_fraction : text ∈ fraction ↔ ∃ ds ∈ digits, text = '.' :: ds := by
  rw [fraction, mem_oneOf_mul]
  constructor
  · rintro ⟨c, ds, hc, hds, rfl⟩
    exact ⟨ds, hds, by rw [of_decide_eq_true hc]⟩
  · rintro ⟨ds, hds, rfl⟩
    exact ⟨'.', ds, rfl, hds, rfl⟩

lemma mem_optional : text ∈ 1 + l ↔ text = [] ∨ text ∈ l := by
  rw [Language.mem_add, Language.mem_one]

lemma mem_exponent : text ∈ exponent ↔ ∃ c sign ds, isExponentMark c = true ∧
    (sign = [] ∨ sign ∈ oneOf isPlusOrMinus) ∧ ds ∈ digits ∧ text = c :: (sign ++ ds) := by
  rw [exponent, mul_assoc, mem_oneOf_mul]
  constructor
  · rintro ⟨c, rest, hc, ⟨sign, hsign, ds, hds, rfl⟩, rfl⟩
    exact ⟨c, sign, ds, hc, mem_optional.mp hsign, hds, rfl⟩
  · rintro ⟨c, sign, ds, hc, hsign, hds, rfl⟩
    exact ⟨c, sign ++ ds, hc, Language.append_mem_mul (mem_optional.mpr hsign) hds, rfl⟩

lemma mem_numerals : text ∈ numerals ↔ ∃ whole frac exp, whole ∈ digits ∧ (frac = [] ∨ frac ∈ fraction) ∧
    (exp = [] ∨ exp ∈ exponent) ∧ text = whole ++ (frac ++ exp) := by
  rw [numerals, mul_assoc]
  constructor
  · rintro ⟨whole, hwhole, _, ⟨frac, hfrac, exp, hexp, rfl⟩, rfl⟩
    exact ⟨whole, frac, exp, hwhole, mem_optional.mp hfrac, mem_optional.mp hexp, rfl⟩
  · rintro ⟨whole, frac, exp, hwhole, hfrac, hexp, rfl⟩
    exact Language.append_mem_mul hwhole
      (Language.append_mem_mul (mem_optional.mpr hfrac) (mem_optional.mpr hexp))

lemma mem_names : text ∈ names ↔
    ∃ c cs, isNameStart c = true ∧ (∀ d ∈ cs, isNamePart d = true) ∧ text = c :: cs := by
  simp only [names, mem_oneOf_mul, mem_kstar_oneOf]

end Membership

section Runs

/-! The parts of a numeral: how much of some characters is one, and that no more of them is. -/

variable {p : Char → Bool} {text cs rest : List Char}

lemma take_takeWhile (p : Char → Bool) (cs : List Char) : cs.take (cs.takeWhile p).length = cs.takeWhile p :=
  (List.prefix_iff_eq_take.mp (List.takeWhile_prefix p)).symm

lemma length_le_takeWhile (h : ∀ c ∈ text, p c = true) (rest : List Char) :
    text.length ≤ ((text ++ rest).takeWhile p).length := by
  rw [List.takeWhile_append_of_pos h, List.length_append]
  exact Nat.le_add_right _ _

lemma take_digitRun (h : digitRun cs ≠ 0) : cs.take (digitRun cs) ∈ digits := by
  rw [digitRun, take_takeWhile, mem_digits]
  exact ⟨fun hnil => h (congrArg List.length hnil), fun _ => List.mem_takeWhile_imp⟩

lemma length_le_digitRun (h : text ∈ digits) (rest : List Char) : text.length ≤ digitRun (text ++ rest) :=
  length_le_takeWhile (mem_digits.mp h).2 rest

lemma digitRun_of_digits {c : Char} (h : text ∈ digits) (hc : isDigit c = false) (rest : List Char) :
    digitRun (text ++ c :: rest) = text.length := by
  rw [digitRun, List.takeWhile_append_of_pos (mem_digits.mp h).2, List.takeWhile_cons, hc]
  exact congrArg List.length (List.append_nil _)

lemma digitRun_ne_zero (h : text ∈ digits) (rest : List Char) : digitRun (text ++ rest) ≠ 0 := by
  have hlength := length_le_digitRun h rest
  have hpos : 0 < text.length := List.length_pos_iff.mpr (mem_digits.mp h).1
  omega

lemma fractionLength_dot (h : digitRun cs ≠ 0) : fractionLength ('.' :: cs) = 1 + digitRun cs := by
  rw [fractionLength, if_neg h]

lemma take_fractionLength (cs : List Char) : cs.take (fractionLength cs) ∈ 1 + fraction := by
  rw [mem_optional]
  cases cs with
  | nil => exact .inl rfl
  | cons c cs =>
    by_cases hc : c = '.'
    · subst hc
      by_cases hrun : digitRun cs = 0
      · exact .inl (by rw [fractionLength, if_pos hrun, List.take_zero])
      · refine .inr (mem_fraction.mpr ⟨cs.take (digitRun cs), take_digitRun hrun, ?_⟩)
        rw [fractionLength_dot hrun, Nat.add_comm, List.take_succ_cons]
    · exact .inl (by rw [fractionLength_cons hc, List.take_zero])

lemma length_le_fractionLength (h : text ∈ fraction) (rest : List Char) :
    text.length ≤ fractionLength (text ++ rest) := by
  obtain ⟨ds, hds, rfl⟩ := mem_fraction.mp h
  rw [List.cons_append, fractionLength_dot (digitRun_ne_zero hds rest), List.length_cons, Nat.add_comm]
  exact Nat.add_le_add_left (length_le_digitRun hds rest) 1

lemma fractionLength_of_fraction {c : Char} (h : text ∈ fraction) (hc : isDigit c = false) (rest : List Char) :
    fractionLength (text ++ c :: rest) = text.length := by
  obtain ⟨ds, hds, rfl⟩ := mem_fraction.mp h
  rw [List.cons_append, fractionLength_dot (digitRun_ne_zero hds _), digitRun_of_digits hds hc, List.length_cons,
    Nat.add_comm]

lemma signLength_eq (c : Char) (cs : List Char) : signLength (c :: cs) = if isPlusOrMinus c then 1 else 0 := by
  by_cases hc : isPlusOrMinus c = true
  · rw [if_pos hc]
    simp only [isPlusOrMinus, Bool.or_eq_true, decide_eq_true_eq] at hc
    rcases hc with rfl | rfl <;> rfl
  · rw [if_neg hc]
    simp only [isPlusOrMinus, Bool.or_eq_true, decide_eq_true_eq, not_or] at hc
    unfold signLength
    split <;> simp_all

lemma take_signLength (cs : List Char) :
    cs.take (signLength cs) = [] ∨ cs.take (signLength cs) ∈ oneOf isPlusOrMinus := by
  cases cs with
  | nil => exact .inl rfl
  | cons c cs =>
    rw [signLength_eq]
    cases hc : isPlusOrMinus c with
    | false => exact .inl rfl
    | true => exact .inr ⟨c, hc, rfl⟩

lemma signLength_of_sign {sign : List Char} (hsign : sign = [] ∨ sign ∈ oneOf isPlusOrMinus) (h : text ∈ digits)
    (rest : List Char) : signLength (sign ++ (text ++ rest)) = sign.length := by
  rcases hsign with rfl | ⟨c, hc, rfl⟩
  · obtain ⟨hne, hdigits⟩ := mem_digits.mp h
    obtain ⟨d, ds, rfl⟩ := List.exists_cons_of_ne_nil hne
    have hd : ¬ isPlusOrMinus d = true := fun hd => by
      have := isDigit_of_isPlusOrMinus hd
      rw [hdigits d List.mem_cons_self] at this
      cases this
    rw [List.nil_append, List.cons_append, signLength_eq, if_neg hd]
    rfl
  · rw [List.cons_append, signLength_eq, if_pos hc]
    rfl

lemma take_exponentLength (cs : List Char) : cs.take (exponentLength cs) ∈ 1 + exponent := by
  rw [mem_optional]
  cases cs with
  | nil => exact .inl rfl
  | cons c cs =>
    rw [exponentLength]
    dsimp only
    split
    · split
      · exact .inl rfl
      · refine .inr (mem_exponent.mpr ⟨c, _, _, ‹_›, take_signLength cs, take_digitRun ‹_›, ?_⟩)
        rw [← List.take_add, Nat.add_assoc, Nat.add_comm, List.take_succ_cons]
    · exact .inl rfl

lemma length_le_exponentLength (h : text ∈ exponent) (rest : List Char) :
    text.length ≤ exponentLength (text ++ rest) := by
  obtain ⟨c, sign, ds, hc, hsign, hds, rfl⟩ := mem_exponent.mp h
  have hlength := length_le_digitRun hds rest
  rw [List.cons_append, List.append_assoc, exponentLength, if_pos hc, signLength_of_sign hsign hds, List.drop_left]
  dsimp only
  rw [if_neg (digitRun_ne_zero hds rest), List.length_cons, List.length_append]
  omega

lemma exponent_cons (h : text ∈ exponent) : ∃ c cs, text = c :: cs ∧ isDigit c = false ∧ c ≠ '.' := by
  obtain ⟨c, sign, ds, hc, -, -, rfl⟩ := mem_exponent.mp h
  refine ⟨c, _, rfl, isDigit_of_isExponentMark hc, ?_⟩
  rintro rfl
  cases hc

lemma lengths_before_exponent {whole frac : List Char} (hwhole : whole ∈ digits) (hfrac : frac = [] ∨ frac ∈ fraction)
    (h : text ∈ exponent) (rest : List Char) : digitRun (whole ++ (frac ++ (text ++ rest))) = whole.length ∧
      fractionLength (frac ++ (text ++ rest)) = frac.length := by
  obtain ⟨c, cs, rfl, hdigit, hdot⟩ := exponent_cons h
  rcases hfrac with rfl | hfrac
  · exact ⟨digitRun_of_digits hwhole hdigit _, fractionLength_cons hdot _⟩
  · obtain ⟨ds, -, rfl⟩ := mem_fraction.mp hfrac
    exact ⟨digitRun_of_digits hwhole rfl _, fractionLength_of_fraction hfrac hdigit _⟩

end Runs

section Rules

/-! How much of some characters matches a rule, and that no more of them does. -/

variable {text cs : List Char}

lemma numberLength_eq {n : Nat} (h : digitRun cs = n) (hn : n ≠ 0) : numberLength cs =
    n + fractionLength (cs.drop n) + exponentLength (cs.drop (n + fractionLength (cs.drop n))) := by
  subst h
  rw [numberLength]
  dsimp only
  rw [if_neg hn]

lemma take_numberLength (h : numberLength cs ≠ 0) : cs.take (numberLength cs) ∈ numerals := by
  have hrun : digitRun cs ≠ 0 := fun hrun => h (by simp [numberLength, hrun])
  rw [numberLength_eq rfl hrun, List.take_add, List.take_add]
  exact Language.append_mem_mul (Language.append_mem_mul (take_digitRun hrun) (take_fractionLength _))
    (take_exponentLength _)

lemma length_le_numberLength (h : text ∈ numerals) (rest : List Char) :
    text.length ≤ numberLength (text ++ rest) := by
  obtain ⟨whole, frac, exp, hwhole, hfrac, hexp, rfl⟩ := mem_numerals.mp h
  have hpos : whole.length ≠ 0 := fun hlength => (mem_digits.mp hwhole).1 (List.eq_nil_of_length_eq_zero hlength)
  simp only [List.append_assoc, List.length_append]
  -- The last part may be longer in the whole text than here, the parts before it end where the next one begins.
  rcases hexp with rfl | hexp
  · rcases hfrac with rfl | hfrac
    · have hwhole' := length_le_digitRun hwhole rest
      rw [List.nil_append, List.nil_append, numberLength_eq rfl (digitRun_ne_zero hwhole rest)]
      simp only [List.length_nil]
      omega
    · have hfrac' := length_le_fractionLength hfrac rest
      obtain ⟨ds, -, rfl⟩ := mem_fraction.mp hfrac
      have hrun : digitRun (whole ++ ('.' :: ds ++ rest)) = whole.length := digitRun_of_digits hwhole rfl _
      rw [List.nil_append, numberLength_eq hrun hpos, List.drop_left]
      simp only [List.length_nil]
      omega
  · obtain ⟨hrun, hfraction⟩ := lengths_before_exponent hwhole hfrac hexp rest
    have hexp' := length_le_exponentLength hexp rest
    rw [numberLength_eq hrun hpos, List.drop_left, hfraction, ← List.drop_drop, List.drop_left, List.drop_left]
    omega

lemma take_nameLength (h : nameLength cs ≠ 0) : cs.take (nameLength cs) ∈ names := by
  cases cs with
  | nil => exact absurd rfl h
  | cons c cs =>
    by_cases hc : isNameStart c = true
    · refine mem_names.mpr ⟨c, cs.takeWhile isNamePart, hc, fun _ => List.mem_takeWhile_imp, ?_⟩
      rw [nameLength, if_pos hc, Nat.add_comm, List.take_succ_cons, take_takeWhile]
    · exact absurd (if_neg hc) h

lemma length_le_nameLength (h : text ∈ names) (rest : List Char) : text.length ≤ nameLength (text ++ rest) := by
  obtain ⟨c, cs, hc, hcs, rfl⟩ := mem_names.mp h
  rw [List.cons_append, nameLength, if_pos hc, List.length_cons, Nat.add_comm]
  exact Nat.add_le_add_left (length_le_takeWhile hcs rest) 1

lemma symbolLength_eq (c : Char) (cs : List Char) : symbolLength (c :: cs) = if isSymbol c then 1 else 0 := by
  have hsymbol : (c = '(' || c = ')' || c = ',' || (Operator.ofChar? c).isSome) = isSymbol c :=
    Bool.eq_iff_iff.mpr (by simp [isSymbol_iff, Option.isSome_iff_exists, or_assoc])
  rw [symbolLength, hsymbol]

lemma take_symbolLength (h : symbolLength cs ≠ 0) : cs.take (symbolLength cs) ∈ symbols := by
  cases cs with
  | nil => exact absurd rfl h
  | cons c cs =>
    rw [symbolLength_eq] at h ⊢
    by_cases hc : isSymbol c = true
    · rw [if_pos hc]
      exact ⟨c, hc, rfl⟩
    · exact absurd (if_neg hc) h

lemma length_le_symbolLength (h : text ∈ symbols) (rest : List Char) :
    text.length ≤ symbolLength (text ++ rest) := by
  obtain ⟨c, hc, rfl⟩ := h
  rw [List.cons_append, symbolLength_eq, if_pos hc]
  exact Nat.le_refl 1

lemma take_longest (h : longest cs ≠ 0) : cs.take (longest cs) ∈ rules := by
  rw [longest] at h ⊢
  rcases max_choice (numberLength cs) (max (nameLength cs) (symbolLength cs)) with hmax | hmax
  · rw [hmax] at h ⊢
    exact .inl (.inl (take_numberLength h))
  · rcases max_choice (nameLength cs) (symbolLength cs) with hmax' | hmax'
    · rw [hmax, hmax'] at h ⊢
      exact .inl (.inr (take_nameLength h))
    · rw [hmax, hmax'] at h ⊢
      exact .inr (take_symbolLength h)

lemma length_le_longest (h : text ∈ rules) (rest : List Char) : text.length ≤ longest (text ++ rest) := by
  rcases h with (h | h) | h
  · exact (length_le_numberLength h rest).trans (Nat.le_max_left _ _)
  · exact (length_le_nameLength h rest).trans ((Nat.le_max_left _ _).trans (Nat.le_max_right _ _))
  · exact (length_le_symbolLength h rest).trans ((Nat.le_max_right _ _).trans (Nat.le_max_right _ _))

lemma ne_nil_of_mem_rules (h : text ∈ rules) : text ≠ [] := by
  rintro rfl
  rcases h with (h | h) | h
  · obtain ⟨whole, frac, exp, hwhole, -, -, heq⟩ := mem_numerals.mp h
    exact (mem_digits.mp hwhole).1 (List.append_eq_nil_iff.mp heq.symm).1
  · obtain ⟨c, cs, -, -, heq⟩ := mem_names.mp h
    cases heq
  · obtain ⟨c, -, heq⟩ := h
    cases heq

lemma longest_of_mem_rules (h : text ∈ rules) : longest text = text.length := by
  have hle := length_le_longest h []
  rw [List.append_nil] at hle
  exact Nat.le_antisymm (longest_le text) hle

lemma isLongestMatch_of_longest {after : List Char} (hne : text ≠ [])
    (h : longest (text ++ after) = text.length) : IsLongestMatch text after where
  matched := by
    have hzero : longest (text ++ after) ≠ 0 := fun hzero => hne (List.eq_nil_of_length_eq_zero (h.symm.trans hzero))
    have hmatched := take_longest hzero
    rwa [h, List.take_left] at hmatched
  longest := by
    rintro more rest rfl hmore
    have hle := length_le_longest hmore rest
    rw [List.append_assoc, h, List.length_append] at hle
    exact List.eq_nil_of_length_eq_zero (by omega)

/-- A numeral gives back what it cannot go on with. -/
example : longest ['1', '.', 'e', '5'] = 1 ∧ longest ['1', 'e', '+', 'x'] = 1 ∧
    longest ['1', 'e', '5', 'e', '5'] = 3 := by decide

lemma not_mem_rules_of_longest (h : longest cs = 0) {after : List Char} (hcs : cs = text ++ after) : text ∉ rules := by
  intro hrule
  have hle := length_le_longest hrule after
  rw [← hcs, h] at hle
  exact ne_nil_of_mem_rules hrule (List.eq_nil_of_length_eq_zero (Nat.le_zero.mp hle))

end Rules

section Denoting

variable {ν : Type} [Number ν] {text : List Char} {t : Token ν}

lemma ofText_numeral (h : text ∈ numerals) : (ofText? text : Option (Token ν)) =
    if Number.isFinite (numberValue text : ν) then some (.number (numberValue text)) else none := by
  obtain ⟨whole, frac, exp, hwhole, -, -, rfl⟩ := mem_numerals.mp h
  obtain ⟨hne, hdigits⟩ := mem_digits.mp hwhole
  obtain ⟨c, cs, rfl⟩ := List.exists_cons_of_ne_nil hne
  rw [List.cons_append, ofText?, if_pos (hdigits c List.mem_cons_self)]

lemma Denotes.ofText_eq (h : Denotes text t) : ofText? text = some t := by
  cases h with
  | numeral htext hfinite => rw [ofText_numeral htext, if_pos hfinite]
  | name htext =>
    obtain ⟨c, cs, hc, -, rfl⟩ := mem_names.mp htext
    rw [ofText?, isDigit_of_isNameStart hc, if_neg Bool.false_ne_true, if_pos hc]
  | operator hop =>
    unfold Operator.ofChar? at hop
    split at hop <;> cases hop <;> rfl
  | openParen => rfl
  | closeParen => rfl
  | comma => rfl

lemma denotes_or_overflow (ν : Type) [Number ν] (h : text ∈ rules) :
    (∃ t : Token ν, Denotes text t) ∨ text ∈ numerals ∧ Number.isFinite (numberValue text : ν) = false := by
  rcases h with (h | h) | ⟨c, hc, rfl⟩
  · cases hfinite : Number.isFinite (numberValue text : ν) with
    | true => exact .inl ⟨_, .numeral h hfinite⟩
    | false => exact .inr ⟨h, rfl⟩
  · exact .inl ⟨_, .name h⟩
  · obtain rfl | rfl | rfl | ⟨op, hop⟩ := isSymbol_iff.mp hc
    · exact .inl ⟨_, .openParen⟩
    · exact .inl ⟨_, .closeParen⟩
    · exact .inl ⟨_, .comma⟩
    · exact .inl ⟨_, .operator hop⟩

lemma denotes_iff (h : text ∈ rules) : Denotes text t ↔ ofText? text = some t := by
  refine ⟨Denotes.ofText_eq, fun ht => ?_⟩
  obtain ⟨u, hu⟩ | ⟨hnumeral, hfinite⟩ := denotes_or_overflow ν h
  · obtain rfl : u = t := Option.some.inj (hu.ofText_eq.symm.trans ht)
    exact hu
  · rw [ofText_numeral hnumeral, hfinite, if_neg Bool.false_ne_true] at ht
    cases ht

lemma overflow_of_ofText (h : text ∈ rules) (ht : (ofText? text : Option (Token ν)) = none) :
    text ∈ numerals ∧ Number.isFinite (numberValue text : ν) = false := by
  obtain ⟨u, hu⟩ | hover := denotes_or_overflow ν h
  · rw [hu.ofText_eq] at ht
    cases ht
  · exact hover

end Denoting

section Bytes

/-! Tokens are texts of characters that are one byte each. -/

def isAscii (c : Char) : Bool := c.toNat ≤ 127

variable {c : Char}

lemma isAscii_iff : isAscii c = true ↔ c.utf8Size = 1 := by
  rw [isAscii, decide_eq_true_eq, Char.utf8Size_eq_one_iff]
  exact Iff.rfl

lemma isAscii_of_isDigit (h : isDigit c = true) : isAscii c = true := by
  rw [isDigit_iff] at h
  exact decide_eq_true (by omega)

lemma isAscii_of_isNameStart (h : isNameStart c = true) : isAscii c = true := by
  simp only [isNameStart, Bool.or_eq_true, Bool.and_eq_true, decide_eq_true_eq] at h
  rcases h with (⟨-, hc⟩ | ⟨-, hc⟩) | rfl
  · have : c.toNat ≤ 90 := hc
    exact decide_eq_true (by omega)
  · have : c.toNat ≤ 122 := hc
    exact decide_eq_true (by omega)
  · rfl

lemma isAscii_of_isNamePart (h : isNamePart c = true) : isAscii c = true := by
  rw [isNamePart, Bool.or_eq_true] at h
  exact h.elim isAscii_of_isNameStart isAscii_of_isDigit

lemma isAscii_of_isBlank (h : isBlank c = true) : isAscii c = true := by
  simp only [isBlank, Bool.or_eq_true, decide_eq_true_eq] at h
  rcases h with ((rfl | rfl) | rfl) | rfl <;> rfl

lemma isAscii_of_isSymbol (h : isSymbol c = true) : isAscii c = true := by
  simp only [isSymbol, List.mem_cons, List.not_mem_nil, or_false, decide_eq_true_eq] at h
  rcases h with rfl | rfl | rfl | rfl | rfl | rfl | rfl | rfl <;> rfl

lemma isAscii_of_isExponentMark (h : isExponentMark c = true) : isAscii c = true := by
  simp only [isExponentMark, Bool.or_eq_true, decide_eq_true_eq] at h
  rcases h with rfl | rfl <;> rfl

lemma isAscii_of_isPlusOrMinus (h : isPlusOrMinus c = true) : isAscii c = true := by
  simp only [isPlusOrMinus, Bool.or_eq_true, decide_eq_true_eq] at h
  rcases h with rfl | rfl <;> rfl

lemma oneOf_le {p : Char → Bool} (h : ∀ c, p c = true → isAscii c = true) : oneOf p ≤ (oneOf isAscii)∗ := by
  refine le_trans ?_ le_kstar
  rintro _ ⟨c, hc, rfl⟩
  exact ⟨c, h c hc, rfl⟩

lemma kstar_le {l m : Language Char} (h : l ≤ m∗) : l∗ ≤ m∗ := (kstar_mono h).trans_eq (kstar_idem m)

lemma mul_le {l l' m : Language Char} (h : l ≤ m∗) (h' : l' ≤ m∗) : l * l' ≤ m∗ :=
  (mul_le_mul' h h').trans_eq (kstar_mul_kstar m)

lemma rules_le : rules ≤ (oneOf isAscii)∗ := by
  have hdigit : oneOf isDigit ≤ (oneOf isAscii)∗ := oneOf_le fun _ => isAscii_of_isDigit
  have hdot : oneOf (· = '.') ≤ (oneOf isAscii)∗ := oneOf_le fun c hc => by
    rw [of_decide_eq_true hc]
    rfl
  have hmark : oneOf isExponentMark ≤ (oneOf isAscii)∗ := oneOf_le fun _ => isAscii_of_isExponentMark
  have hsign : oneOf isPlusOrMinus ≤ (oneOf isAscii)∗ := oneOf_le fun _ => isAscii_of_isPlusOrMinus
  have hdigits : digits ≤ (oneOf isAscii)∗ := mul_le hdigit (kstar_le hdigit)
  have hfraction : fraction ≤ (oneOf isAscii)∗ := mul_le hdot hdigits
  have hexponent : exponent ≤ (oneOf isAscii)∗ := mul_le (mul_le hmark (add_le one_le_kstar hsign)) hdigits
  have hnumerals : numerals ≤ (oneOf isAscii)∗ :=
    mul_le (mul_le hdigits (add_le one_le_kstar hfraction)) (add_le one_le_kstar hexponent)
  have hnames : names ≤ (oneOf isAscii)∗ :=
    mul_le (oneOf_le fun _ => isAscii_of_isNameStart) (kstar_le (oneOf_le fun _ => isAscii_of_isNamePart))
  exact add_le (add_le hnumerals hnames) (oneOf_le fun _ => isAscii_of_isSymbol)

lemma utf8Len_eq_length {text : List Char} (h : ∀ c ∈ text, isAscii c = true) : String.utf8Len text = text.length := by
  induction text with
  | nil => rfl
  | cons c text ih =>
    rw [List.forall_mem_cons] at h
    rw [String.utf8Len_cons, ih h.2, isAscii_iff.mp h.1, List.length_cons]

lemma isAscii_of_mem_rules {text : List Char} (h : text ∈ rules) : ∀ c ∈ text, isAscii c = true :=
  mem_kstar_oneOf.mp (rules_le h)

end Bytes

end Uncertainty.Token
