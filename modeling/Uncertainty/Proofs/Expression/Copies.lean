import Mathlib.Tactic.Lemma
import Mathlib.Tactic.Ring
import Uncertainty.Expression.Repeated

/-! Sums by doubling: what each addition keeps, the whole sum has. -/

namespace Uncertainty

variable {α : Type} {C : Nat → α → Prop} {add : α → α → α}

def Totals (C : Nat → α → Prop) (n : Nat) : Option α → Prop
  | none => n = 0
  | some a => C n a

lemma addTo_totals (hadd : ∀ i j a b, C i a → C j b → C (i + j) (add a b)) {i j : Nat} {total : Option α} {power : α}
    (ht : Totals C i total) (hp : C j power) :
    C (i + j) (Id.run (addTo (fun a b => pure (add a b)) total power)) := by
  cases total with
  | none =>
    obtain rfl : i = 0 := ht
    rw [Nat.zero_add]
    exact hp
  | some sum => exact hadd i j sum power ht hp

lemma addCopies_step {total : Option α} {power : α} {n : Nat} (hn : n ≠ 0) :
    Id.run (addCopies (fun a b => pure (add a b)) total power n) =
      Id.run (addCopies (fun a b => pure (add a b))
        (if n % 2 = 1 then some (Id.run (addTo (fun a b => pure (add a b)) total power)) else total)
        (if 1 < n then add power power else power) (n / 2)) := by
  rw [addCopies, if_neg hn]
  split_ifs <;> rfl

lemma addCopies_totals (hadd : ∀ i j a b, C i a → C j b → C (i + j) (add a b)) {i j : Nat} {total : Option α}
    {power : α} (ht : Totals C i total) (hp : C j power) (remaining : Nat) :
    Totals C (i + j * remaining) (Id.run (addCopies (fun a b => pure (add a b)) total power remaining)) := by
  -- A bit adds what it stands for, and the double of the power is what the next bit stands for.
  induction remaining using Nat.strongRecOn generalizing i j total power with
  | ind n ih =>
    by_cases hn : n = 0
    · rw [addCopies, if_pos hn, hn]
      exact ht
    · have ht' : Totals C (i + j * (n % 2))
          (if n % 2 = 1 then some (Id.run (addTo (fun a b => pure (add a b)) total power)) else total) := by
        rcases Nat.mod_two_eq_zero_or_one n with hbit | hbit <;> rw [hbit]
        · exact ht
        · rw [Nat.mul_one]
          exact addTo_totals hadd ht hp
      rw [addCopies_step hn]
      by_cases hmore : 1 < n
      · have hrest := ih (n / 2) (by omega) ht' (hadd j j power power hp hp)
        have hsum : i + j * (n % 2) + (j + j) * (n / 2) = i + j * n := by
          conv_rhs => rw [← Nat.div_add_mod n 2]
          ring
        rwa [if_pos hmore, ← hsum]
      · obtain rfl : n = 1 := by omega
        exact ih 0 (by omega) ht' hp

lemma sumCopies_totals (hadd : ∀ i j a b, C i a → C j b → C (i + j) (add a b)) {a : α} (ha : C 1 a) (n : Nat) :
    Totals C n (Id.run (sumCopies (fun a b => pure (add a b)) a n)) := by
  have hnone : Totals C 0 none := rfl
  have hsum := addCopies_totals hadd hnone ha n
  rwa [Nat.zero_add, Nat.one_mul] at hsum

lemma addCopies_within {P : Nat → α → Prop} (hmono : ∀ i j a, i ≤ j → P j a → P i a)
    (hdouble : ∀ m a, P (m + 1) a → P m (add a a)) (hadd : ∀ a b, P 0 a → P 1 b → P 0 (add a b)) {m remaining : Nat}
    (hm : remaining < 2 ^ m) {total : Option α} (ht : ∀ a, total = some a → P 0 a) {power : α} (hp : P m power) {a : α}
    (ha : Id.run (addCopies (fun a b => pure (add a b)) total power remaining) = some a) : P 0 a := by
  -- The power may be doubled as often as there are bits left, the total no more.
  induction m generalizing remaining total power with
  | zero =>
    obtain rfl : remaining = 0 := by omega
    rw [addCopies, if_pos rfl] at ha
    exact ht a ha
  | succ m ih =>
    by_cases hn : remaining = 0
    · rw [hn, addCopies, if_pos rfl] at ha
      exact ht a ha
    · rw [addCopies_step hn] at ha
      refine ih (by omega) ?_ ?_ ha
      · intro b hb
        split at hb
        · cases total with
          | none =>
            cases hb
            exact hmono 0 (m + 1) _ (Nat.zero_le _) hp
          | some sum =>
            cases hb
            exact hadd sum power (ht sum rfl) (hmono 1 (m + 1) _ (by omega) hp)
        · exact ht b hb
      · split
        · exact hdouble m power hp
        · exact hmono m (m + 1) _ (Nat.le_succ m) hp

namespace Expression

variable {ν : Type} {e : Expression ν}

lemma sumCopies_literal? (he : e.literal? = none) (n : Nat) :
    Totals (fun _ sum => sum.literal? = none) n (Id.run (sumCopies (fun a b => pure (binary .add a b)) e n)) :=
  sumCopies_totals (fun _ _ _ _ _ _ => rfl) he n

lemma repeated_eq [Number ν] (he : e.literal? = none) (n : Nat) : e.repeated n =
    match Id.run (sumCopies (fun a b => pure (binary .add a b)) e n) with
    | some sum => .ok sum
    | none => ofValue Number.zero := by
  cases e with
  | literal v => cases he
  | distribution d | binary op l r => rfl

end Expression

end Uncertainty
