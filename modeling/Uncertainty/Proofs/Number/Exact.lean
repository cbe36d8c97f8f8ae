import Mathlib.Tactic.Ring
import Uncertainty.Number.Exact
import Uncertainty.Number.Laws

namespace Uncertainty.Exact

variable {F : Transcendentals} {p q : ℚ} {x y : Exact F}

def toRat : Exact F → ℚ
  | rational q => q
  | undefined => 0

@[simp]
lemma rational_add : (rational p + rational q : Exact F) = rational (p + q) := rfl

@[simp]
lemma rational_sub : (rational p - rational q : Exact F) = rational (p - q) := rfl

@[simp]
lemma rational_mul : (rational p * rational q : Exact F) = rational (p * q) := rfl

lemma rational_div (hq : q ≠ 0) : (rational p / rational q : Exact F) = rational (p / q) :=
  congrArg ofOption (if_neg hq)

@[simp]
lemma undefined_add : undefined + x = undefined := rfl

@[simp]
lemma add_undefined : x + undefined = undefined := by
  cases x <;> rfl

@[simp]
lemma undefined_sub : undefined - x = undefined := rfl

@[simp]
lemma sub_undefined : x - undefined = undefined := by
  cases x <;> rfl

@[simp]
lemma undefined_mul : undefined * x = undefined := rfl

@[simp]
lemma mul_undefined : x * undefined = undefined := by
  cases x <;> rfl

@[simp]
lemma ofNat_eq (n : Nat) : (Number.ofNat n : Exact F) = rational n := rfl

@[simp]
lemma zero_eq : (Number.zero : Exact F) = rational 0 := congrArg rational Nat.cast_zero

lemma zero_add (x : Exact F) : Number.zero + x = x := by
  cases x <;> simp

lemma add_assoc (x y z : Exact F) : x + y + z = x + (y + z) := by
  cases x <;> cases y <;> cases z <;> simp; ring

lemma add_zero (x : Exact F) : x + Number.zero = x := by
  cases x <;> simp

lemma add_sub_assoc (x y z : Exact F) : x + y - z = x + (y - z) := by
  cases x <;> cases y <;> cases z <;> simp; ring

lemma zero_add_zero : (Number.zero + Number.zero : Exact F) = Number.zero := by
  simp

lemma ofNat_add_mul (i j : Nat) (x : Exact F) :
    (Number.ofNat (i + j) * x : Exact F) = Number.ofNat i * x + Number.ofNat j * x := by
  cases x with
  | rational q => simp [add_mul]
  | undefined => simp

lemma ofNat_one_mul (x : Exact F) : (Number.ofNat 1 * x : Exact F) = x := by
  cases x <;> simp

lemma mul_ofNat (x : Exact F) (n : Nat) : (x * Number.ofNat n : Exact F) = Number.ofNat n * x := by
  cases x with
  | rational q => simp [mul_comm]
  | undefined => simp

lemma ofNat_mul_zero (n : Nat) : (Number.ofNat n * Number.zero : Exact F) = Number.zero := by
  simp

lemma rational_of_isFinite (h : Number.isFinite x = true) : ∃ q, x = rational q := by
  cases x with
  | rational q => exact ⟨q, rfl⟩
  | undefined => cases h

lemma eq_of_beq (h : (x == y) = true) : x = y := by
  cases x with
  | undefined => cases h
  | rational p =>
    cases y with
    | undefined => cases h
    | rational q => exact congrArg rational (of_decide_eq_true h)

instance : LawfulZero (Exact F) where
  beq_refl h := by
    obtain ⟨q, rfl⟩ := rational_of_isFinite h
    exact decide_eq_true rfl
  add_beq {x y z} hy hxy hz := by
    obtain ⟨q, rfl⟩ := rational_of_isFinite hy
    obtain rfl := eq_of_beq hxy
    obtain rfl := eq_of_beq hz
    rw [add_zero]
    exact decide_eq_true rfl

instance : LawfulProduct (Exact F) where
  zero_mul {x} := by
    cases x with
    | undefined => rfl
    | rational q =>
      rw [zero_eq, rational_mul, zero_mul]
      exact decide_eq_false (lt_irrefl (0 : ℚ))
  beq_self {k x} h := by
    cases x with
    | undefined =>
      rw [mul_undefined] at h
      cases h
    | rational q => exact decide_eq_true rfl
  mul_congr h := .inl (congrArg _ (eq_of_beq h))

end Uncertainty.Exact
