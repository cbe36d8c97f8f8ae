import Mathlib
import Uncertainty.Number.Binary64
import Uncertainty.Number.Laws

/-! The minus sign of a double precision number: negation changes the sign bit only, so the text of a finite number
is that of its magnitude with the sign in front. -/

namespace Uncertainty

open Float.Model UnpackedFloat

namespace Binary64

lemma pack_neg {u : UnpackedFloat} (hu : u ≠ .notANumber) :
    ∃ s e m, UnpackedFloat.pack Format.binary64 u = packComponents Format.binary64 s e m ∧
      UnpackedFloat.pack Format.binary64 u.neg = packComponents Format.binary64 (-s) e m := by
  cases u with
  | notANumber => exact absurd rfl hu
  | infinity s => exact ⟨s, _, _, rfl, rfl⟩
  | zero s => exact ⟨s, _, _, rfl, rfl⟩
  | finite s m e hm =>
    simp only [UnpackedFloat.pack, UnpackedFloat.neg]
    split_ifs
    · exact ⟨s, _, _, rfl, rfl⟩
    · exact ⟨s, _, _, rfl, rfl⟩
    · exact ⟨s, _, _, rfl, rfl⟩

lemma fraction_eq (v : Float) : fraction v = (@unpackMantissa Format.binary64 v.toBits.toBitVec).toNat := by
  rw [unpackMantissa_def, BitVec.extractLsb'_toNat]
  rfl

lemma biasedExponent_eq (v : Float) :
    biasedExponent v = (@unpackExponent Format.binary64 v.toBits.toBitVec).toNat := by
  rw [unpackExponent_def, BitVec.extractLsb'_toNat, Nat.shiftRight_eq_div_pow]
  rfl

lemma isNegative_eq (v : Float) :
    isNegative v = decide (@unpackSign Format.binary64 v.toBits.toBitVec = 1#1) := by
  have hlt : v.toBits.toNat < 2 ^ 64 := v.toBits.toNat_lt
  rw [isNegative, decide_eq_decide, unpackSign_def, ← BitVec.toNat_inj, BitVec.extractLsb'_toNat,
    Nat.shiftRight_eq_div_pow]
  change 2 ^ 63 ≤ v.toBits.toNat ↔ v.toBits.toNat / 2 ^ 63 % 2 = 1
  omega

section Negation

variable {v : Float} (hv : v.toModel.unpack ≠ .notANumber)
include hv

lemma components_neg : ∃ s e m, v.toBits.toBitVec = packComponents Format.binary64 s e m ∧
    (-v).toBits.toBitVec = packComponents Format.binary64 (-s) e m := by
  obtain ⟨s, e, m, hpack, hneg⟩ := pack_neg hv
  exact ⟨s, e, m, (pack_unpack_of_valid v.toModel.valid).symm.trans hpack, hneg⟩

lemma unpack_neg : (-v).toModel.unpack = v.toModel.unpack.neg := by
  obtain ⟨s, e, m, hbits, hneg⟩ := components_neg hv
  change UnpackedFloat.unpack Format.binary64 (-v).toBits.toBitVec =
    (UnpackedFloat.unpack Format.binary64 v.toBits.toBitVec).neg
  rw [hneg, hbits]
  simp only [UnpackedFloat.unpack, unpackExponent_packComponents, unpackMantissa_packComponents,
    unpackSign_packComponents, Sign.ofBitVec_toBitVec]
  split_ifs <;> rfl

lemma fraction_neg : fraction (-v) = fraction v := by
  obtain ⟨s, e, m, hbits, hneg⟩ := components_neg hv
  rw [fraction_eq, fraction_eq, hbits, hneg, unpackMantissa_packComponents, unpackMantissa_packComponents]

lemma biasedExponent_neg : biasedExponent (-v) = biasedExponent v := by
  obtain ⟨s, e, m, hbits, hneg⟩ := components_neg hv
  rw [biasedExponent_eq, biasedExponent_eq, hbits, hneg, unpackExponent_packComponents, unpackExponent_packComponents]

lemma isNegative_neg : isNegative (-v) = !isNegative v := by
  obtain ⟨s, e, m, hbits, hneg⟩ := components_neg hv
  rw [isNegative_eq, isNegative_eq, hbits, hneg, unpackSign_packComponents, unpackSign_packComponents]
  cases s <;> rfl

lemma neg_neg_eq : - -v = v := by
  have hneg : (-v).toModel.unpack.neg = v.toModel.unpack := by
    rw [unpack_neg hv]
    cases v.toModel.unpack with
    | notANumber => rfl
    | infinity s => cases s <;> rfl
    | zero s => cases s <;> rfl
    | finite s m e hm => cases s <;> rfl
  exact (congrArg (fun u => Float.ofModel (.pack u)) hneg).trans (Float.ofBits_toBits v)

lemma isFinite_neg : (-v).isFinite = v.isFinite := by
  change (-v).toModel.unpack.isFinite = v.toModel.unpack.isFinite
  rw [unpack_neg hv]
  cases v.toModel.unpack <;> rfl

lemma beq_zero_neg : (-v == 0) = (v == 0) := by
  change (-v).toModel.unpack.beq (0 : Float).toModel.unpack = v.toModel.unpack.beq (0 : Float).toModel.unpack
  have hzero : (0 : Float).toModel.unpack = .zero .positive :=
    (unpack_eq_zero_iff_of_valid (valid _)).mpr (by decide +kernel)
  rw [unpack_neg hv, hzero]
  cases v.toModel.unpack with
  | notANumber => rfl
  | infinity s => cases s <;> rfl
  | zero s => cases s <;> rfl
  | finite s m e hm => cases s <;> rfl

lemma unsigned_neg (style : FloatStyle) : style.unsigned (-v) = style.unsigned v := by
  have hm : magnitude (-v) = magnitude v := by
    rw [magnitude, magnitude, fraction_neg hv, biasedExponent_neg hv]
  have hn : isNarrowBelow (-v) = isNarrowBelow v := by
    rw [isNarrowBelow, isNarrowBelow, fraction_neg hv, biasedExponent_neg hv]
  rw [FloatStyle.unsigned, FloatStyle.unsigned, beq_zero_neg hv, hm, hn]

end Negation

section Finite

variable {v : Float} (hv : v.isFinite = true)
include hv

lemma unpack_ne_of_isFinite : v.toModel.unpack ≠ .notANumber := by
  intro h
  change v.toModel.unpack.isFinite = true at hv
  rw [h] at hv
  cases hv

lemma text_of_isFinite (style : FloatStyle) :
    style.text v = (if isNegative v then "-" else "") ++ style.unsigned v := by
  have hinf : v.isInf = false := by
    change v.toModel.unpack.isInf = false
    change v.toModel.unpack.isFinite = true at hv
    cases h : v.toModel.unpack with
    | infinity s => rw [h] at hv; cases hv
    | notANumber => rfl
    | zero s => rfl
    | finite s m e hm => rfl
  have hnan : v.isNaN = false := by
    change v.toModel.unpack.isNaN = false
    change v.toModel.unpack.isFinite = true at hv
    cases h : v.toModel.unpack with
    | notANumber => rw [h] at hv; cases hv
    | infinity s => rfl
    | zero s => rfl
    | finite s m e hm => rfl
  rw [FloatStyle.text, hnan, hinf]
  rfl

end Finite

end Binary64

instance : LawfulSign Float where
  text_eq {v} hv := by
    change v.isFinite = true at hv
    have hn := Binary64.unpack_ne_of_isFinite hv
    by_cases h : Number.isNegative v = true
    · rw [Number.magnitude, if_pos h, if_pos h]
      change FloatStyle.formula.text v = "-" ++ FloatStyle.formula.text (-v)
      change Binary64.isNegative v = true at h
      rw [Binary64.text_of_isFinite hv, Binary64.text_of_isFinite ((Binary64.isFinite_neg hn).trans hv),
        Binary64.unsigned_neg hn, Binary64.isNegative_neg hn, h]
      rfl
    · rw [Number.magnitude, if_neg h, if_neg h, String.empty_append]
  isFinite_magnitude {v} hv := by
    rw [Number.magnitude]
    split_ifs with h
    · exact (Binary64.isFinite_neg (Binary64.unpack_ne_of_isFinite hv)).trans hv
    · exact hv
  neg_magnitude {v} hv h := by
    rw [Number.magnitude, if_pos h]
    exact Binary64.neg_neg_eq (Binary64.unpack_ne_of_isFinite hv)

instance : LawfulNegation Float where
  isFinite_zero := by decide +kernel
  isFinite_neg hv := (Binary64.isFinite_neg (Binary64.unpack_ne_of_isFinite hv)).trans hv

end Uncertainty
