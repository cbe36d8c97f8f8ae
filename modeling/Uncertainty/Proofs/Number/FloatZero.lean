import Mathlib
import Uncertainty.Number.Binary64
import Uncertainty.Number.Laws

namespace Uncertainty

open Float.Model UnpackedFloat

namespace Binary64

variable {x z : Float} {s : Sign}

lemma unpack_of_beq_zero (h : (z == 0) = true) : ∃ s, z.toModel.unpack = .zero s := by
  obtain ⟨-, -, rfl | ⟨rfl, -⟩ | ⟨rfl, -⟩⟩ := Float.beq_iff_ne_nan_and_eq.mp h
  · exact ⟨.positive, (unpack_eq_zero_iff_of_valid (valid _)).mpr (by decide +kernel)⟩
  · exact ⟨.positive, (unpack_eq_zero_iff_of_valid (valid _)).mpr (by decide +kernel)⟩
  · exact ⟨.negative, (unpack_eq_zero_iff_of_valid (valid _)).mpr (by decide +kernel)⟩

lemma ofModel_pack {u : UnpackedFloat} (h : u = x.toModel.unpack) : Float.ofModel (.pack u) = x := by
  rw [h]
  exact Float.ofBits_toBits x

lemma add_zero_beq (hz : z.toModel.unpack = .zero s) (hx : (x == x) = true) : (x + z == x) = true := by
  have hadd : x + z = Float.ofModel (.pack (x.toModel.unpack.add Format.binary64 z.toModel.unpack)) := rfl
  rw [hz] at hadd
  cases h : x.toModel.unpack with
  | zero t =>
    obtain ⟨r, hr⟩ : ∃ r, (UnpackedFloat.zero t).add Format.binary64 (.zero s) = .zero r := by
      cases t <;> cases s <;> exact ⟨_, rfl⟩
    rw [h, hr] at hadd
    have hsum : (x + z).toModel.unpack = .zero r := by
      rw [hadd]
      exact unpack_packedZero
    change (x + z).toModel.unpack.beq x.toModel.unpack = true
    rw [hsum, h]
    cases r <;> cases t <;> rfl
  | finite t m e hm =>
    rw [hadd, ofModel_pack (by rw [h]; rfl)]
    exact hx
  | infinity t =>
    rw [hadd, ofModel_pack (by rw [h]; rfl)]
    exact hx
  | notANumber =>
    change x.toModel.unpack.beq x.toModel.unpack = true at hx
    rw [h] at hx
    cases hx

end Binary64

instance : LawfulZero Float where
  beq_refl {x} h := by
    rw [Float.beq_self_iff]
    rintro rfl
    revert h
    decide +kernel
  add_beq _ hxy hz := by
    obtain ⟨s, hs⟩ := Binary64.unpack_of_beq_zero hz
    exact BEq.trans (Binary64.add_zero_beq hs (BEq.trans hxy (BEq.symm hxy))) hxy

end Uncertainty
