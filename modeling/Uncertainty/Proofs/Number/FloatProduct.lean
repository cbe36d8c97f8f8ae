import Mathlib
import Uncertainty.Proofs.Number.FloatZero

namespace Uncertainty

open Float.Model UnpackedFloat

namespace Binary64

variable {k x : Float}

def IsVoid (u : UnpackedFloat) : Prop := (∃ s, u = .zero s) ∨ u = .notANumber

lemma less_zero_eq (x : Float) :
    Number.less Number.zero x = (Number.zero : Float).toModel.unpack.lt x.toModel.unpack := by
  have hless : Number.less Number.zero x = decide (Float.lt Number.zero x = true) := rfl
  have hlt : Float.lt Number.zero x = decide ((Number.zero : Float).toModel.lt x.toModel = true) := rfl
  rw [hless, Bool.decide_eq_true, hlt, Bool.decide_eq_true]
  rfl

lemma unpack_zero : (Number.zero : Float).toModel.unpack = .zero .positive :=
  (unpack_eq_zero_iff_of_valid (valid _)).mpr (by decide +kernel)

lemma unpack_nan : Float.nan.toModel.unpack = .notANumber :=
  (unpack_eq_notANumber_iff_of_valid (valid _)).mpr (by decide +kernel)

lemma not_positive_of_isVoid (h : IsVoid x.toModel.unpack) : Number.less Number.zero x = false := by
  rw [less_zero_eq, unpack_zero]
  rcases h with ⟨s, hx⟩ | hx
  · rw [hx]
    cases s <;> rfl
  · rw [hx]
    rfl

lemma isVoid_mul (h : IsVoid (k.toModel.unpack.mul Format.binary64 x.toModel.unpack)) :
    IsVoid (k * x).toModel.unpack := by
  have hmul : k * x = Float.ofModel (.pack (k.toModel.unpack.mul Format.binary64 x.toModel.unpack)) := rfl
  rw [hmul]
  rcases h with ⟨s, hs⟩ | hs
  · rw [hs]
    exact .inl ⟨s, unpack_packedZero⟩
  · rw [hs]
    exact .inr unpack_packedNaN

lemma not_positive_mul (h : IsVoid x.toModel.unpack) (k : Float) : Number.less Number.zero (k * x) = false := by
  refine not_positive_of_isVoid (isVoid_mul ?_)
  rcases h with ⟨s, hx⟩ | hx
  · rw [hx]
    cases k.toModel.unpack with
    | zero t => exact .inl ⟨_, rfl⟩
    | finite t m e hm => exact .inl ⟨_, rfl⟩
    | infinity t => exact .inr rfl
    | notANumber => exact .inr rfl
  · rw [hx]
    cases k.toModel.unpack <;> exact .inr rfl

lemma not_positive_zero_mul (x : Float) : Number.less Number.zero (Number.zero * x) = false := by
  refine not_positive_of_isVoid (isVoid_mul ?_)
  rw [unpack_zero]
  cases x.toModel.unpack with
  | zero t => exact .inl ⟨_, rfl⟩
  | finite t m e hm => exact .inl ⟨_, rfl⟩
  | infinity t => exact .inr rfl
  | notANumber => exact .inr rfl

end Binary64

instance : LawfulProduct Float where
  zero_mul := Binary64.not_positive_zero_mul _
  beq_self {k x} h := by
    rw [Float.beq_self_iff]
    rintro rfl
    exact absurd ((Binary64.not_positive_mul (.inr Binary64.unpack_nan) k).symm.trans h) Bool.false_ne_true
  mul_congr {k x y} h := by
    have hzero {z : Float} (hz : (z == 0) = true) : Number.less Number.zero (k * z) = false :=
      Binary64.not_positive_mul (.inl (Binary64.unpack_of_beq_zero hz)) k
    obtain ⟨-, -, rfl | ⟨rfl, rfl⟩ | ⟨rfl, rfl⟩⟩ := Float.beq_iff_ne_nan_and_eq.mp h
    · exact .inl rfl
    · exact .inr ⟨hzero (by decide +kernel), hzero (by decide +kernel)⟩
    · exact .inr ⟨hzero (by decide +kernel), hzero (by decide +kernel)⟩

end Uncertainty
