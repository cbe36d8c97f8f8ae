import Mathlib
import Uncertainty.Number.Binary64
import Uncertainty.Number.Laws

namespace Uncertainty

open Float.Model UnpackedFloat

namespace Binary64

lemma isFinite_pack {u : UnpackedFloat} (h : (Float.ofModel (.pack u)).isFinite = true) : u.isFinite = true := by
  cases u with
  | zero s => rfl
  | finite s m e hm => rfl
  | infinity s =>
    revert h
    cases s <;> decide +kernel
  | notANumber =>
    revert h
    decide +kernel

lemma isFinite_of_add {u v : UnpackedFloat} (h : (u.add Format.binary64 v).isFinite = true) :
    u.isFinite = true ∧ v.isFinite = true := by
  cases u <;> cases v
  all_goals first | exact ⟨rfl, rfl⟩ | cases h | skip
  rename_i s t
  cases s <;> cases t <;> cases h

lemma isFinite_of_sub {u v : UnpackedFloat} (h : (u.sub Format.binary64 v).isFinite = true) :
    u.isFinite = true ∧ v.isFinite = true := by
  cases u <;> cases v
  all_goals first | exact ⟨rfl, rfl⟩ | cases h | skip
  rename_i s t
  cases s <;> cases t <;> cases h

lemma isFinite_of_div {u v : UnpackedFloat} (h : (u.div Format.binary64 v).isFinite = true) : u.isFinite = true := by
  cases u <;> cases v
  all_goals first | rfl | cases h

end Binary64

instance : LawfulOverflow Float where
  of_add h := Binary64.isFinite_of_add (Binary64.isFinite_pack h)
  of_sub h := Binary64.isFinite_of_sub (Binary64.isFinite_pack h)

instance : LawfulQuotient Float where
  of_div h := Binary64.isFinite_of_div (Binary64.isFinite_pack h)

end Uncertainty
