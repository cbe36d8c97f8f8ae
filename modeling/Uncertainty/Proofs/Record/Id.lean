import Mathlib.Algebra.Group.Nat.Defs
import Mathlib.Tactic.Lemma
import Uncertainty.Record.Id

namespace Uncertainty.RecordId

def digitAt (n : Nat) : Char := (Nat.toDigits 16 n).headD '0'

lemma digitValue?_digitAt {n : Nat} (h : n < 16) : digitValue? (digitAt n) = some n := by
  have hall : ∀ n < 16, digitValue? (digitAt n) = some n := by decide +kernel
  exact hall n h

lemma hexDigits_succ (width n : Nat) : hexDigits (width + 1) n = hexDigits width (n / 16) ++ [digitAt (n % 16)] := rfl

lemma length_hexDigits (width n : Nat) : (hexDigits width n).length = width := by
  induction width generalizing n with
  | zero => rfl
  | succ width ih => rw [hexDigits_succ, List.length_append, ih, List.length_singleton]

lemma hexValue?_hexDigits (width n : Nat) : hexValue? (hexDigits width n) = some (n % 16 ^ width) := by
  induction width generalizing n with
  | zero => simp [hexDigits, hexValue?, Nat.mod_one]
  | succ width ih =>
    have hrest := ih (n / 16)
    rw [hexValue?] at hrest
    have hdigit := digitValue?_digitAt (Nat.mod_lt n (by omega : 0 < 16))
    have hvalue : 16 * (n / 16 % 16 ^ width) + n % 16 = n % 16 ^ (width + 1) := by
      rw [Nat.pow_succ', Nat.mod_mul, Nat.add_comm]
    rw [hexDigits_succ, hexValue?, List.foldlM_append, hrest]
    simp only [List.foldlM_cons, List.foldlM_nil, Option.bind_eq_bind, Option.bind_some, hdigit, hvalue]
    rfl

lemma ofDigits?_digits (id : RecordId) : ofDigits? id.digits = some id := by
  have hhigh := length_hexDigits 16 id.high.toNat
  have hlow := length_hexDigits 16 id.low.toNat
  have hmod (half : UInt64) : half.toNat % 16 ^ 16 = half.toNat := Nat.mod_eq_of_lt half.toNat_lt
  rw [ofDigits?, digits, if_pos (by rw [List.length_append, hhigh, hlow]), List.take_left' hhigh, List.drop_left' hhigh,
    hexValue?_hexDigits, hexValue?_hexDigits, hmod, hmod]
  simp

lemma hexDigits_eq_cons (width n : Nat) : ∃ k < 16, ∃ cs, hexDigits (width + 1) n = digitAt k :: cs := by
  induction width generalizing n with
  | zero => exact ⟨n % 16, Nat.mod_lt _ (by omega), [], rfl⟩
  | succ width ih =>
    obtain ⟨k, hk, cs, hcs⟩ := ih (n / 16)
    exact ⟨k, hk, cs ++ [digitAt (n % 16)], by rw [hexDigits_succ, hcs]; rfl⟩

section Groups

variable {a b c d e : List Char} (ha : a.length = 8) (hb : b.length = 4) (hc : c.length = 4) (hd : d.length = 4)
  (he : e.length = 12)
include ha hb hc hd he

lemma ofGroups?_append :
    ofGroups? (a ++ '-' :: b ++ '-' :: c ++ '-' :: d ++ '-' :: e) = ofDigits? (a ++ b ++ c ++ d ++ e) := by
  rw [ofGroups?, if_pos]
  · simp [List.drop_append, List.drop_eq_nil_of_le, ha, hb, hc, hd]
  · simp [List.getElem?_append, ha, hb, hc, hd, he]

lemma ofText?_groups {k : Nat} (hk : k < 16) (hhead : a.head? = some (digitAt k)) :
    ofText? (String.ofList (a ++ '-' :: b ++ '-' :: c ++ '-' :: d ++ '-' :: e)) =
      ofDigits? (a ++ b ++ c ++ d ++ e) := by
  have hdigit : ∀ k < 16, digitAt k ≠ '\x7b' ∧ (digitAt k).toLower ≠ 'u' := by decide +kernel
  have hgroups := ofGroups?_append ha hb hc hd he
  have hlength : (a ++ '-' :: b ++ '-' :: c ++ '-' :: d ++ '-' :: e).length = 36 := by
    simp [ha, hb, hc, hd, he]
  obtain ⟨cs, hcs⟩ : ∃ cs, a ++ '-' :: b ++ '-' :: c ++ '-' :: d ++ '-' :: e = digitAt k :: cs := by
    cases a with
    | nil => cases hhead
    | cons x a => exact ⟨_, by rw [← Option.some.inj hhead]; rfl⟩
  rw [hcs] at hgroups hlength ⊢
  have hnamed : isNamed (digitAt k :: cs) = false :=
    decide_eq_false fun h => (hdigit k hk).2 (List.cons.inj h).1
  rw [ofText?, String.toList_ofList]
  split
  · exact absurd (List.cons.inj ‹_›).1 (hdigit k hk).1
  · rw [hnamed, if_neg Bool.false_ne_true, hlength, if_neg (by decide)]
    exact hgroups

end Groups

lemma ofText?_text (id : RecordId) : ofText? id.text = some id := by
  have hlength : id.digits.length = 32 := by
    rw [digits, List.length_append, length_hexDigits, length_hexDigits]
  obtain ⟨k, hk, cs, hcs⟩ := hexDigits_eq_cons 15 id.high.toNat
  have hgroups : id.digits.take 8 ++ (id.digits.drop 8).take 4 ++ (id.digits.drop 12).take 4 ++
      (id.digits.drop 16).take 4 ++ id.digits.drop 20 = id.digits := by
    have h₁ : id.digits.take 8 ++ (id.digits.drop 8).take 4 = id.digits.take 12 := List.take_add.symm
    have h₂ : id.digits.take 12 ++ (id.digits.drop 12).take 4 = id.digits.take 16 := List.take_add.symm
    have h₃ : id.digits.take 16 ++ (id.digits.drop 16).take 4 = id.digits.take 20 := List.take_add.symm
    rw [h₁, h₂, h₃, List.take_append_drop]
  rw [text, ofText?_groups (by simp [hlength]) (by simp [hlength]) (by simp [hlength]) (by simp [hlength])
    (by simp [hlength]) hk (by rw [digits, hcs]; rfl), hgroups, ofDigits?_digits]

end Uncertainty.RecordId
