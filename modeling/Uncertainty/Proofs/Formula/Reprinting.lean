import Uncertainty.Proofs.Formula.Nesting
import Uncertainty.Proofs.Formula.Reduction
import Uncertainty.Proofs.Formula.Roundtrip
import Uncertainty.Proofs.Number.FloatSign

namespace Uncertainty.Expression

variable {ν : Type} [Number ν]

section Reprinting

variable [LawfulSign ν] [LawfulNegation ν]

/-- The text written for an accepted formula reads back to the same expression exactly if it nests no deeper than the
parser goes, as it does where the formula has no more than 126 signs. Nothing but its depth can be wrong with it. -/
theorem text_of_accepted_reads_back {source : String} {e : Expression ν} (h : parse source = .ok e)
    (hv : ∀ v ∈ e.numbers, Number.isFinite v = true → Number.IsReadable v) :
    (parse e.text = .ok e ↔ e.nesting ≤ maxNesting) ∧
      (source.toList.countP Token.isSignChar ≤ 126 → parse e.text = .ok e) ∧
      (parse e.text = .ok e ∨ ∃ position, (parse e.text : Except (ExpressionError ν) (Expression ν)) =
        .error (.malformed position .tooDeep)) := by
  have hreduced := isReduced_of_parse h
  have hw := parse_text_within hreduced fun v hm => hv v hm (hreduced.isFinite hm)
  have hsigns := nesting_of_parse_le h
  rw [Within] at hw
  by_cases hn : e.nesting ≤ maxNesting
  · rw [if_pos hn] at hw
    exact ⟨iff_of_true hw hn, fun _ => hw, .inl hw⟩
  · rw [if_neg hn] at hw
    obtain ⟨position, he⟩ := hw
    have hne : (parse e.text : Except (ExpressionError ν) (Expression ν)) ≠ .ok e := by
      rw [he]
      rintro ⟨⟩
    refine ⟨iff_of_false hne hn, fun hfew => absurd ?_ hn, .inr ⟨position, he⟩⟩
    rw [maxNesting]
    omega

end Reprinting

def negations (n : Nat) : String := String.ofList (List.replicate n '-') ++ "normal(1, 1)"

def negationsNesting (n depth : Nat) : Bool :=
  (parse (negations n) : Except (ExpressionError Float) (Expression Float)).toOption.any fun e =>
    e.nesting = depth && e.numbers.all fun v => decide (Number.IsReadable v)

lemma exists_of_negationsNesting (n depth : Nat) (h : negationsNesting n depth = true) :
    ∃ e : Expression Float, parse (negations n) = .ok e ∧ e.nesting = depth ∧
      ∀ v ∈ e.numbers, Number.IsReadable v := by
  unfold negationsNesting at h
  cases hp : (parse (negations n) : Except (ExpressionError Float) (Expression Float)) with
  | error err =>
    rw [hp] at h
    cases h
  | ok e =>
    rw [hp] at h
    simpa [Except.toOption] using h

/-- A minus sign costs one level where it is read, and two in the text that is written for it. -/
theorem negations_read_back :
    ∃ e : Expression Float, parse (negations 127) = .ok e ∧ e.nesting = 255 ∧ parse e.text = .ok e := by
  obtain ⟨e, he, hn, hv⟩ := exists_of_negationsNesting 127 255 (by decide +kernel)
  exact ⟨e, he, hn, (text_of_accepted_reads_back he fun v hm _ => hv v hm).1.mpr (hn.trans_le (by decide))⟩

theorem negations_are_lost : ∃ e : Expression Float, parse (negations 128) = .ok e ∧
    (∀ v ∈ e.numbers, Number.IsReadable v) ∧ parse e.text ≠ .ok e := by
  obtain ⟨e, he, hn, hv⟩ := exists_of_negationsNesting 128 257 (by decide +kernel)
  have hw := parse_text_within (isReduced_of_parse he) hv
  rw [hn, Within, if_neg (by decide)] at hw
  obtain ⟨position, herror⟩ := hw
  refine ⟨e, he, hv, ?_⟩
  rw [herror]
  rintro ⟨⟩

end Uncertainty.Expression
