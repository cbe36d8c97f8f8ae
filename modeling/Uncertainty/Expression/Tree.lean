import Uncertainty.Expression.Basic

namespace Uncertainty

variable {ν : Type}

namespace Expression

def tips : Expression ν → List (Expression ν)
  | literal v => [literal v]
  | distribution d => [distribution d]
  | binary _ l r => l.tips ++ r.tips

def height : Expression ν → Nat
  | literal _ => 1
  | distribution _ => 1
  | binary _ l r => max l.height r.height + 1

def IsConstant (e : Expression ν) : Prop := ∀ d, distribution d ∉ e.tips

def HasSamples (e : Expression ν) : Prop := ∃ values, distribution (.sampled values) ∈ e.tips

inductive IsLinearTree : Expression ν → Prop
  | literal (v : ν) : IsLinearTree (literal v)
  | distribution (d : Distribution ν) : IsLinearTree (distribution d)
  | add {l r} (hl : IsLinearTree l) (hr : IsLinearTree r) : IsLinearTree (binary .add l r)
  | sub {l r} (hl : IsLinearTree l) (hr : IsLinearTree r) : IsLinearTree (binary .sub l r)
  | mulLeft {l r} (hl : l.IsConstant) (hr : IsLinearTree r) : IsLinearTree (binary .mul l r)
  | mulRight {l r} (hl : IsLinearTree l) (hr : r.IsConstant) : IsLinearTree (binary .mul l r)
  | div {l r} (hl : IsLinearTree l) (hr : r.IsConstant) : IsLinearTree (binary .div l r)
  | pow {l r} (hl : l.IsConstant) (hr : r.IsConstant) : IsLinearTree (binary .pow l r)

/-- An operator over operands that linearity does not lead through, or with an empirical distribution among its leaves. -/
def NeedsTrials (e : Expression ν) : Prop := (∃ op l r, e = binary op l r) ∧ (¬ e.IsLinearTree ∨ e.HasSamples)

end Expression

end Uncertainty
