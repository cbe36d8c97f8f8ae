import Mathlib.Tactic.Lemma
import Uncertainty.Formula.Lexer

/-! The longest token at a place depends on what comes after it only as far as it could go on there. -/

namespace Uncertainty.Token

def Stops (cs : List Char) : Prop :=
  ∀ c, cs.head? = some c → isNamePart c = false ∧ c ≠ '.' ∧ c ≠ '+' ∧ c ≠ '-'

variable {cs rest rest' : List Char}

section Characters

variable {c : Char}

lemma isDigit_of_isNamePart (h : isNamePart c = false) : isDigit c = false := by
  rw [isNamePart, Bool.or_eq_false_iff] at h
  exact h.2

lemma isNameStart_of_isNamePart (h : isNamePart c = false) : isNameStart c = false := by
  rw [isNamePart, Bool.or_eq_false_iff] at h
  exact h.1

lemma isExponentMark_of_isNamePart (h : isNamePart c = false) : isExponentMark c = false := by
  cases he : isExponentMark c with
  | false => rfl
  | true =>
    simp only [isExponentMark, Bool.or_eq_true, decide_eq_true_eq] at he
    rcases he with rfl | rfl <;> revert h <;> decide

end Characters

section Bounds

lemma signLength_le (cs : List Char) : signLength cs ≤ cs.length := by
  unfold signLength
  split <;> simp

lemma digitRun_le (cs : List Char) : digitRun cs ≤ cs.length := takeWhile_length_le isDigit cs

lemma fractionLength_le (cs : List Char) : fractionLength cs ≤ cs.length := by
  unfold fractionLength
  split
  · have hrun := digitRun_le ‹List Char›
    rw [List.length_cons]
    split <;> omega
  · omega

lemma exponentLength_le (cs : List Char) : exponentLength cs ≤ cs.length := by
  cases cs with
  | nil => exact Nat.le_refl _
  | cons c cs =>
    have hsign := signLength_le cs
    have hrun := digitRun_le (cs.drop (signLength cs))
    rw [List.length_drop] at hrun
    rw [exponentLength, List.length_cons]
    dsimp only
    split
    · split <;> omega
    · omega

lemma numberLength_le (cs : List Char) : numberLength cs ≤ cs.length := by
  have hrun := digitRun_le cs
  have hfraction := fractionLength_le (cs.drop (digitRun cs))
  have hexponent := exponentLength_le (cs.drop (digitRun cs + fractionLength (cs.drop (digitRun cs))))
  rw [List.length_drop] at hfraction hexponent
  rw [numberLength]
  dsimp only
  split <;> omega

lemma nameLength_le (cs : List Char) : nameLength cs ≤ cs.length := by
  cases cs with
  | nil => exact Nat.le_refl _
  | cons c cs =>
    have hrun := takeWhile_length_le isNamePart cs
    rw [nameLength, List.length_cons]
    split <;> omega

lemma symbolLength_le (cs : List Char) : symbolLength cs ≤ cs.length := by
  cases cs with
  | nil => exact Nat.le_refl _
  | cons c cs =>
    rw [symbolLength, List.length_cons]
    split <;> omega

lemma longest_le (cs : List Char) : longest cs ≤ cs.length :=
  Nat.max_le.mpr ⟨numberLength_le cs, Nat.max_le.mpr ⟨nameLength_le cs, symbolLength_le cs⟩⟩

end Bounds

lemma signLength_cons (c : Char) (cs : List Char) (rest : List Char) :
    signLength (c :: cs ++ rest) = signLength (c :: cs) := by
  by_cases hp : c = '+'
  · subst hp
    rfl
  · by_cases hm : c = '-'
    · subst hm
      rfl
    · rw [List.cons_append, signLength, signLength] <;>
        first | exact fun _ he => hp (List.cons.inj he).1 | exact fun _ he => hm (List.cons.inj he).1

lemma fractionLength_cons {c : Char} (hc : c ≠ '.') (cs : List Char) : fractionLength (c :: cs) = 0 := by
  rw [fractionLength]
  exact fun _ he => hc (List.cons.inj he).1

section Stopping

/-! What no token goes on into does not lengthen one. -/

variable (h : Stops rest)
include h

lemma takeWhile_append_stops {p : Char → Bool} (hp : ∀ c, isNamePart c = false → p c = false) (cs : List Char) :
    (cs ++ rest).takeWhile p = cs.takeWhile p := by
  induction cs with
  | nil =>
    cases rest with
    | nil => rfl
    | cons c rest =>
      rw [List.nil_append, List.takeWhile_cons, hp c (h c rfl).1]
      rfl
  | cons c cs ih => simp [List.takeWhile_cons, ih]

lemma digitRun_append (cs : List Char) : digitRun (cs ++ rest) = digitRun cs := by
  rw [digitRun, digitRun, takeWhile_append_stops h fun _ => isDigit_of_isNamePart]

lemma fractionLength_append (cs : List Char) : fractionLength (cs ++ rest) = fractionLength cs := by
  cases cs with
  | nil =>
    cases rest with
    | nil => rfl
    | cons c rest => exact fractionLength_cons (h c rfl).2.1 rest
  | cons c cs =>
    by_cases hc : c = '.'
    · subst hc
      simp only [List.cons_append, fractionLength, digitRun_append h]
    · rw [List.cons_append, fractionLength_cons hc, fractionLength_cons hc]

lemma signLength_append (cs : List Char) : signLength (cs ++ rest) = signLength cs := by
  cases cs with
  | nil =>
    cases rest with
    | nil => rfl
    | cons c rest =>
      obtain ⟨-, -, hp, hm⟩ := h c rfl
      rw [List.nil_append, signLength]
      · rfl
      · exact fun _ he => hp (List.cons.inj he).1
      · exact fun _ he => hm (List.cons.inj he).1
  | cons c cs => exact signLength_cons c cs rest

lemma exponentLength_append (cs : List Char) : exponentLength (cs ++ rest) = exponentLength cs := by
  cases cs with
  | nil =>
    cases rest with
    | nil => rfl
    | cons c rest =>
      rw [List.nil_append, exponentLength, isExponentMark_of_isNamePart (h c rfl).1, if_neg Bool.false_ne_true]
      rfl
  | cons c cs =>
    rw [List.cons_append, exponentLength, exponentLength, signLength_append h,
      List.drop_append_of_le_length (signLength_le cs), digitRun_append h]

lemma numberLength_append (cs : List Char) : numberLength (cs ++ rest) = numberLength cs := by
  have hrun := digitRun_le cs
  have hfraction := fractionLength_le (cs.drop (digitRun cs))
  rw [List.length_drop] at hfraction
  rw [numberLength, numberLength, digitRun_append h, List.drop_append_of_le_length hrun, fractionLength_append h]
  dsimp only
  rw [List.drop_append_of_le_length (by omega), exponentLength_append h]

lemma nameLength_append (cs : List Char) : nameLength (cs ++ rest) = nameLength cs := by
  cases cs with
  | nil =>
    cases rest with
    | nil => rfl
    | cons c rest =>
      rw [List.nil_append, nameLength, isNameStart_of_isNamePart (h c rfl).1, if_neg Bool.false_ne_true]
      rfl
  | cons c cs => rw [List.cons_append, nameLength, nameLength, takeWhile_append_stops h fun _ => id]

lemma longest_append (hne : cs ≠ []) : longest (cs ++ rest) = longest cs := by
  cases cs with
  | nil => exact absurd rfl hne
  | cons c cs =>
    rw [longest, longest, numberLength_append h, nameLength_append h]
    rfl

end Stopping

section Ending

/-! What comes after the end of a token makes no difference to it. -/

lemma takeWhile_of_le {p : Char → Bool} (h : ((cs ++ rest).takeWhile p).length ≤ cs.length) :
    (cs ++ rest).takeWhile p = cs.takeWhile p := by
  induction cs with
  | nil => exact List.eq_nil_of_length_eq_zero (Nat.le_zero.mp h)
  | cons c cs ih =>
    cases hc : p c with
    | false => simp [hc]
    | true =>
      rw [List.cons_append, List.takeWhile_cons, if_pos hc, List.length_cons, List.length_cons] at h
      rw [List.cons_append, List.takeWhile_cons, List.takeWhile_cons, if_pos hc, if_pos hc,
        ih (Nat.le_of_succ_le_succ h)]

lemma digitRun_of_le (h : digitRun (cs ++ rest) ≤ cs.length) : digitRun (cs ++ rest) = digitRun cs :=
  congrArg List.length (takeWhile_of_le h)

lemma fractionLength_of_le (h : fractionLength (cs ++ rest) ≤ cs.length) :
    fractionLength (cs ++ rest) = fractionLength cs := by
  cases cs with
  | nil => exact Nat.le_zero.mp h
  | cons c cs =>
    by_cases hc : c = '.'
    · subst hc
      have hrun : digitRun (cs ++ rest) ≤ cs.length := by
        rw [List.cons_append, fractionLength, List.length_cons] at h
        split at h <;> omega
      rw [List.cons_append, fractionLength, fractionLength, digitRun_of_le hrun]
    · rw [List.cons_append, fractionLength_cons hc, fractionLength_cons hc]

lemma exponentLength_of_le (h : exponentLength (cs ++ rest) ≤ cs.length) :
    exponentLength (cs ++ rest) = exponentLength cs := by
  cases cs with
  | nil => exact Nat.le_zero.mp h
  | cons c cs =>
    rw [List.cons_append, exponentLength] at h ⊢
    rw [exponentLength]
    split
    · rw [if_pos ‹_›] at h
      cases cs with
      | nil =>
        dsimp only [List.length_cons, List.length_nil] at h ⊢
        split
        · rfl
        · rw [if_neg ‹_›] at h
          omega
      | cons d cs =>
        have hsign := signLength_le (d :: cs)
        dsimp only at h ⊢
        rw [signLength_cons, List.drop_append_of_le_length hsign] at h ⊢
        have hrun : digitRun ((d :: cs).drop (signLength (d :: cs)) ++ rest) ≤
            ((d :: cs).drop (signLength (d :: cs))).length := by
          rw [List.length_drop]
          rw [List.length_cons] at h
          split at h <;> omega
        rw [digitRun_of_le hrun]
    · rfl

lemma numberLength_of_le (h : numberLength (cs ++ rest) ≤ cs.length) :
    numberLength (cs ++ rest) = numberLength cs := by
  rw [numberLength] at h
  dsimp only at h
  split at h
  · have hrun : digitRun (cs ++ rest) = 0 := ‹_›
    have hrun' : digitRun cs = 0 := (digitRun_of_le (by omega)).symm.trans hrun
    simp [numberLength, hrun, hrun']
  · have hrun : digitRun (cs ++ rest) = digitRun cs := digitRun_of_le (by omega)
    rw [hrun, List.drop_append_of_le_length (digitRun_le cs)] at h
    have hfraction : fractionLength (cs.drop (digitRun cs) ++ rest) = fractionLength (cs.drop (digitRun cs)) :=
      fractionLength_of_le (by rw [List.length_drop]; omega)
    rw [hfraction, List.drop_append_of_le_length (by omega)] at h
    rw [numberLength, numberLength, hrun, List.drop_append_of_le_length (digitRun_le cs), hfraction]
    dsimp only
    rw [List.drop_append_of_le_length (by omega), exponentLength_of_le (by rw [List.length_drop]; omega)]

lemma nameLength_of_le (h : nameLength (cs ++ rest) ≤ cs.length) : nameLength (cs ++ rest) = nameLength cs := by
  cases cs with
  | nil => exact Nat.le_zero.mp h
  | cons c cs =>
    rw [List.cons_append, nameLength, List.length_cons] at h
    rw [List.cons_append, nameLength, nameLength]
    split
    · rw [if_pos ‹_›] at h
      rw [takeWhile_of_le (by omega)]
    · rfl

lemma symbolLength_of_le (h : symbolLength (cs ++ rest) ≤ cs.length) :
    symbolLength (cs ++ rest) = symbolLength cs := by
  cases cs with
  | nil => exact Nat.le_zero.mp h
  | cons c cs => rfl

lemma longest_of_le (h : longest (cs ++ rest) ≤ cs.length) : longest (cs ++ rest) = longest cs := by
  rw [longest] at h
  rw [longest, longest, numberLength_of_le (by omega), nameLength_of_le (by omega), symbolLength_of_le (by omega)]

end Ending

lemma longest_congr (hne : cs ≠ []) (h : longest (cs ++ rest) ≤ cs.length) (h' : Stops rest') :
    longest (cs ++ rest') = longest (cs ++ rest) := by
  rw [longest_of_le h, longest_append h' hne]

end Uncertainty.Token
