import Uncertainty.Proofs.Formula.Meaning
import Uncertainty.Proofs.Formula.Reduction
import Uncertainty.Proofs.Number.FloatSign

namespace Uncertainty

open Formula

variable {ν : Type} [Number ν] {env : Environment ν} {v : Value ν}

namespace Value.IsReduced

lemma isFinite_numbers (h : v.IsReduced) {x : ν} (hx : x ∈ v.toExpression.numbers) : Number.isFinite x = true :=
  Expression.IsReduced.isFinite h.toExpression hx

lemma exists_scalar_iff (h : v.IsReduced) :
    (∃ x, v = .scalar x ∧ Number.isFinite x = true) ↔ v.isScalar = true := by
  cases v with
  | scalar x => exact ⟨fun _ => rfl, fun _ => ⟨x, rfl, h⟩⟩
  | expression e =>
    constructor
    · rintro ⟨x, hx, -⟩
      cases hx
    · intro hs
      cases hs

lemma exists_expression (h : v.IsReduced) (hv : v.isScalar = false) :
    ∃ e, v = .expression e ∧ e.literal? = none ∧ e.IsReduced := by
  cases v with
  | scalar x => cases hv
  | expression e => exact ⟨e, rfl, h.2, h.1⟩

end Value.IsReduced

namespace Formula

/-- If the expressions that variables stand for are reduced, whatever the numbers are that others stand for, a text that
evaluates comes to a finite number exactly if no distribution is called in it and its variables stand for numbers. All
others come to expressions, reduced ones that are no mere numbers. So no number that is not finite gets in. -/
theorem evaluated_text_is_reduced [LawfulNegation ν] (henv : env.All (·.IsReduced)) {source : String}
    (h : env.evaluateText source = .ok v) :
    ∃ f, parse source = .ok f ∧ ((∃ x, v = .scalar x ∧ Number.isFinite x = true) ↔ f.isConstant env = true) ∧
      (f.isConstant env = false → ∃ e, v = .expression e ∧ e.literal? = none ∧ e.IsReduced) ∧
      ∀ x ∈ v.toExpression.numbers, Number.isFinite x = true := by
  obtain ⟨f, hf, hv⟩ := Environment.evaluateText_ok h
  have hreduced := Environment.isReduced_of_evaluateText henv h
  have hconstant := (means_of_evaluate hv).constant
  refine ⟨f, hf, ?_, fun hc => hreduced.exists_expression (hconstant.symm.trans hc), fun x => hreduced.isFinite_numbers⟩
  rw [hconstant]
  exact hreduced.exists_scalar_iff

def strained : Environment Float := lengths.bind "u" (.scalar (1 / 0))

lemma strained_all_reduced : strained.All (·.IsReduced) := by
  have hx : (Expression.distribution (.normal 2 0.5) : Expression Float).IsReduced := by decide +kernel
  have hc : (Expression.literal 3 : Expression Float).IsReduced := by decide +kernel
  have hlengths := ((Environment.all_empty.bind_expression "x" hx).bind_expression "c" hc).bind_scalar "d" 4
  exact hlengths.bind_scalar "u" (1 / 0)

theorem signed_length_is_reduced : ∃ e : Expression Float,
    strained.evaluateText "-c * normal(d, c) - -x" = .ok (.expression e) ∧ e.literal? = none ∧
      ∀ x ∈ e.numbers, Number.isFinite x = true := by
  have hparse : parse "-c * normal(d, c) - -x" = .ok (.chain (.negation (.named "c" 1))
      [(.mul, .normal (.named "d" 12) (.named "c" 15) 5), (.sub, (.negation (.named "x" 21) : Formula Float))]) := by
    cbv
  have hvalue : strained.evaluateText "-c * normal(d, c) - -x" =
      .ok (.expression (.binary .sub (.binary .mul (.literal (-3)) (.distribution (.normal 4 3)))
        (.binary .sub (.literal 0) (.distribution (.normal 2 0.5))))) := by
    rw [evaluateText_eq hparse]
    rfl
  obtain ⟨f, hf, -, hexpression, hnumbers⟩ := evaluated_text_is_reduced strained_all_reduced hvalue
  obtain rfl := Except.ok.inj (hparse.symm.trans hf)
  obtain ⟨e, he, hliteral, -⟩ := hexpression rfl
  cases he
  exact ⟨_, hvalue, hliteral, hnumbers⟩

end Formula

end Uncertainty
