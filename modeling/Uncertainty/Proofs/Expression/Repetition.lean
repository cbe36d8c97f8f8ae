import Mathlib.Algebra.Order.BigOperators.Group.List
import Mathlib.Data.Nat.Digits.Lemmas
import Uncertainty.Expression.Tree
import Uncertainty.Proofs.Expression.Copies
import Uncertainty.Proofs.Expression.Estimate
import Uncertainty.Proofs.Expression.Moments
import Uncertainty.Proofs.Number.FloatSign

namespace Uncertainty

variable {ν : Type}

section Levels

variable {α : Type} {P : Nat → α → Prop} {add : α → α → α}

lemma Totals.imp {C D : Nat → α → Prop} {n : Nat} {total : Option α} (h : Totals C n total)
    (hCD : ∀ a, C n a → D n a) : Totals D n total := by
  cases total with
  | none => exact h
  | some a => exact hCD a h

lemma addCopies_rises (hmono : ∀ k a, P k a → P (k + 1) a) (hadd : ∀ k a b, P k a → P k b → P (k + 1) (add a b))
    {m remaining : Nat} (hm : remaining < 2 ^ m) {k : Nat} {total : Option α} (ht : ∀ a, total = some a → P k a)
    {power : α} (hp : P k power) {a : α}
    (ha : Id.run (addCopies (fun a b => pure (add a b)) total power remaining) = some a) : P (k + m) a := by
  induction m generalizing remaining k total power with
  | zero =>
    obtain rfl : remaining = 0 := by omega
    rw [addCopies, if_pos rfl] at ha
    exact ht a ha
  | succ m ih =>
    have hlater : ∀ b, total = some b → P (k + 1) b := fun b hb => hmono k b (ht b hb)
    by_cases hn : remaining = 0
    · rw [hn] at ha
      rw [Nat.add_comm m, ← Nat.add_assoc]
      exact ih (Nat.two_pow_pos m) hlater (hmono k power hp) (by rwa [addCopies, if_pos rfl] at ha ⊢)
    · rw [addCopies_step hn] at ha
      rw [Nat.add_comm m, ← Nat.add_assoc]
      refine ih (by omega) ?_ ?_ ha
      · intro b hb
        split at hb
        · cases total with
          | none =>
            cases hb
            exact hmono k power hp
          | some sum =>
            cases hb
            exact hadd k sum power (ht sum rfl) hp
        · exact hlater b hb
      · split
        · exact hadd k power power hp hp
        · exact hmono k power hp

end Levels

namespace Expression

inductive IsSumOf (term : Expression ν) : Nat → Expression ν → Prop
  | term : IsSumOf term 1 term
  | add {i j l r} : IsSumOf term i l → IsSumOf term j r → IsSumOf term (i + j) (binary .add l r)

section Trials

variable [Number ν]

def streamAfter (e : Expression ν) : Nat → Random.Stream → Random.Stream
  | 0, s => s
  | n + 1, s => e.streamAfter n (e.draw s).2

/-- What comes of adding the values in this order, grouped in some way. -/
inductive AddsUp : List ν → ν → Prop
  | value (v : ν) : AddsUp [v] v
  | sum {vs ws a b} : AddsUp vs a → AddsUp ws b → AddsUp (vs ++ ws) (a + b)

lemma draws_add (e : Expression ν) (i j : Nat) (s : Random.Stream) :
    e.draws (i + j) s = e.draws i s ++ e.draws j (e.streamAfter i s) := by
  induction i generalizing s with
  | zero => rw [Nat.zero_add, draws, streamAfter, List.nil_append]
  | succ i ih => rw [Nat.succ_add, draws, draws, streamAfter, ih, List.cons_append]

lemma streamAfter_add (e : Expression ν) (i j : Nat) (s : Random.Stream) :
    e.streamAfter (i + j) s = e.streamAfter j (e.streamAfter i s) := by
  induction i generalizing s with
  | zero => rw [Nat.zero_add, streamAfter]
  | succ i ih => rw [Nat.succ_add, streamAfter, streamAfter, ih]

end Trials

namespace IsSumOf

variable {term sum : Expression ν} {n : Nat}

lemma tips_eq (h : IsSumOf term n sum) : sum.tips = (List.replicate n term.tips).flatten := by
  induction h with
  | term => simp
  | add _ _ ihl ihr => rw [tips, ihl, ihr, List.replicate_add, List.flatten_append]

variable [Number ν]

lemma draw_eq (h : IsSumOf term n sum) (s : Random.Stream) :
    AddsUp (term.draws n s) (sum.draw s).1 ∧ (sum.draw s).2 = term.streamAfter n s := by
  induction h generalizing s with
  | term => exact ⟨.value _, rfl⟩
  | @add i j l r _ _ ihl ihr =>
    obtain ⟨hleft, hnext⟩ := ihl s
    obtain ⟨hright, hlast⟩ := ihr (l.draw s).2
    rw [draws_add, streamAfter_add, ← hnext]
    exact ⟨.sum hleft hright, hlast⟩

end IsSumOf

lemma sumCopies_isSumOf (e : Expression ν) (n : Nat) :
    Totals (IsSumOf e) n (Id.run (sumCopies (fun a b => pure (binary .add a b)) e n)) :=
  sumCopies_totals (fun _ _ _ _ => .add) .term n

lemma depth_sumCopies [Number ν] {e sum : Expression ν} {n : Nat}
    (h : Id.run (sumCopies (fun a b => pure (binary .add a b)) e n) = some sum) :
    sum.shape.depth ≤ e.shape.depth + Nat.log 2 n + 1 := by
  have hrise : sum.shape.depth ≤ e.shape.depth + (0 + (Nat.log 2 n + 1)) :=
    addCopies_rises (P := fun k a => a.shape.depth ≤ e.shape.depth + k) (fun _ _ => Nat.le_succ_of_le)
      (fun k a b ha hb => by
        change 1 + max a.shape.depth b.shape.depth ≤ _
        omega)
      (Nat.lt_pow_succ_log_self Nat.one_lt_two n) nofun (Nat.le_refl _) h
  omega

end Expression

namespace SharedExpression

/-- A tree of additions over so many occurrences of the very node, the additions at addresses from `first` on. -/
inductive IsSumOf (term : SharedExpression ν) (first next : Nat) : Nat → SharedExpression ν → Prop
  | term : IsSumOf term first next 1 term
  | add {address i j l r} : first ≤ address → address < next → IsSumOf term first next i l →
    IsSumOf term first next j r → IsSumOf term first next (i + j) (binary address .add l r)

lemma IsSumOf.mono {e x : SharedExpression ν} {first next next' n : Nat} (h : IsSumOf e first next n x)
    (hle : next ≤ next') : IsSumOf e first next' n x := by
  induction h with
  | term => exact .term
  | add hfirst hnext _ _ ihl ihr => exact .add hfirst (by omega) ihl ihr

def joined (address : Nat) (total : Option (SharedExpression ν)) (power : SharedExpression ν) : SharedExpression ν :=
  match total with
  | some sum => binary address .add sum power
  | none => power

section Running

variable {e power : SharedExpression ν} {total : Option (SharedExpression ν)} {first start i j n : Nat}

lemma run_addCopies_zero : (addCopies (combine .add) total power 0).run first = (total, first) := by
  rw [addCopies, if_pos rfl]
  rfl

lemma run_addCopies_one : (addCopies (combine .add) total power 1).run first =
    (some (joined first total power), first + total.isSome.toNat) := by
  rw [addCopies, if_neg Nat.one_ne_zero]
  cases total <;> exact run_addCopies_zero

lemma run_addCopies_even (hn : n ≠ 0) : (addCopies (combine .add) total power (Nat.bit false n)).run first =
    (addCopies (combine .add) total (binary first .add power power) n).run (first + 1) := by
  rw [addCopies, Nat.bit_div_two, Nat.bit_false_apply, if_neg (by omega), if_neg (by omega)]
  simp only [if_pos (show 1 < 2 * n by omega)]
  rfl

lemma run_addCopies_odd (hn : n ≠ 0) : (addCopies (combine .add) total power (Nat.bit true n)).run first =
    (addCopies (combine .add) (some (joined first total power))
      (binary (first + total.isSome.toNat) .add power power) n).run (first + total.isSome.toNat + 1) := by
  rw [addCopies, Nat.bit_div_two, Nat.bit_true_apply, if_neg (by omega), if_pos (by omega)]
  simp only [if_pos (show 1 < 2 * n + 1 by omega)]
  cases total <;> rfl

lemma addCopies_made (hn : n ≠ 0) : ((addCopies (combine .add) total power n).run first).2 + total.isNone.toNat =
    first + Nat.log 2 n + (Nat.digits 2 n).sum := by
  induction n using Nat.binaryRecFromOne generalizing total power first with
  | zero => exact absurd rfl hn
  | one =>
    rw [run_addCopies_one]
    cases total <;> simp
  | bit b n hpos ih =>
    have hlog : Nat.log 2 (Nat.bit b n) = Nat.log 2 n + 1 := by
      rw [Nat.log_of_one_lt_of_le Nat.one_lt_two (by cases b <;> simp <;> omega), Nat.bit_div_two]
    have hsum : (Nat.digits 2 (Nat.bit b n)).sum = b.toNat + (Nat.digits 2 n).sum := by
      rw [Nat.digits_def' Nat.one_lt_two (by omega), List.sum_cons, Nat.bit_mod_two, Nat.bit_div_two]
    rw [hlog, hsum]
    cases b with
    | false =>
      rw [run_addCopies_even hpos]
      have hrest : ((addCopies (combine .add) total (binary first .add power power) n).run (first + 1)).2 +
          total.isNone.toNat = first + 1 + Nat.log 2 n + (Nat.digits 2 n).sum := ih hpos
      rw [Bool.toNat_false]
      omega
    | true =>
      rw [run_addCopies_odd hpos]
      have hrest : ((addCopies (combine .add) (some (joined first total power))
          (binary (first + total.isSome.toNat) .add power power) n).run (first + total.isSome.toNat + 1)).2 + 0 =
            first + total.isSome.toNat + 1 + Nat.log 2 n + (Nat.digits 2 n).sum := ih hpos
      have hone : total.isSome.toNat + total.isNone.toNat = 1 := by cases total <;> rfl
      rw [Bool.toNat_true]
      omega

lemma forget_joined : (joined first total power).forget =
    Id.run (addTo (fun a b => pure (.binary .add a b)) (total.map forget) power.forget) := by
  cases total <;> rfl

lemma forget_addCopies : (((addCopies (combine .add) total power n).run first).1).map forget =
    Id.run (addCopies (fun a b => pure (.binary .add a b)) (total.map forget) power.forget n) := by
  induction n using Nat.binaryRecFromOne generalizing total power first with
  | zero =>
    rw [run_addCopies_zero, addCopies, if_pos rfl]
    rfl
  | one =>
    rw [run_addCopies_one, addCopies_step Nat.one_ne_zero, addCopies, if_pos rfl, Option.map_some, forget_joined]
    rfl
  | bit b n hpos ih =>
    rw [addCopies_step (by cases b <;> simp [hpos]), Nat.bit_div_two, Nat.bit_mod_two,
      if_pos (show 1 < Nat.bit b n by cases b <;> simp <;> omega)]
    cases b with
    | false =>
      rw [run_addCopies_even hpos, ih, if_neg (by decide)]
      rfl
    | true =>
      rw [run_addCopies_odd hpos, ih, if_pos (by decide), Option.map_some, forget_joined]
      rfl

lemma joined_isSumOf (hfirst : start ≤ first) (ht : Totals (IsSumOf e start first) i total)
    (hp : IsSumOf e start first j power) :
    IsSumOf e start (first + total.isSome.toNat) (i + j) (joined first total power) := by
  cases total with
  | none =>
    obtain rfl : i = 0 := ht
    rw [Nat.zero_add]
    exact hp
  | some sum =>
    have hsum : IsSumOf e start first i sum := ht
    exact .add hfirst (Nat.lt_succ_self first) (hsum.mono (Nat.le_succ first)) (hp.mono (Nat.le_succ first))

lemma double_isSumOf (hfirst : start ≤ first) (hp : IsSumOf e start first j power) :
    IsSumOf e start (first + 1) (j + j) (binary first .add power power) :=
  .add hfirst (Nat.lt_succ_self first) (hp.mono (Nat.le_succ first)) (hp.mono (Nat.le_succ first))

lemma addCopies_isSumOf (hfirst : start ≤ first) (ht : Totals (IsSumOf e start first) i total)
    (hp : IsSumOf e start first j power) :
    Totals (IsSumOf e start ((addCopies (combine .add) total power n).run first).2) (i + j * n)
      ((addCopies (combine .add) total power n).run first).1 := by
  induction n using Nat.binaryRecFromOne generalizing total power first i j with
  | zero =>
    rw [run_addCopies_zero]
    exact ht
  | one =>
    rw [run_addCopies_one, Nat.mul_one]
    exact joined_isSumOf hfirst ht hp
  | bit b n hpos ih =>
    cases b with
    | false =>
      have hrest := ih (by omega) (ht.imp fun _ h => h.mono (Nat.le_succ first)) (double_isSumOf hfirst hp)
      rw [run_addCopies_even hpos, Nat.bit_false_apply, ← Nat.mul_assoc, Nat.mul_two]
      exact hrest
    | true =>
      have hsum : Totals (IsSumOf e start (first + total.isSome.toNat + 1)) (i + j) (some (joined first total power)) :=
        (joined_isSumOf hfirst ht hp).mono (Nat.le_succ _)
      have hrest := ih (by omega) hsum (double_isSumOf (by omega) (hp.mono (Nat.le_add_right first _)))
      have hcount : i + j + (j + j) * n = i + j * (2 * n + 1) := by ring
      rw [run_addCopies_odd hpos, Nat.bit_true_apply, ← hcount]
      exact hrest

end Running

lemma sum_digits_le {n : Nat} (hn : n ≠ 0) : (Nat.digits 2 n).sum ≤ Nat.log 2 n + 1 := by
  rw [← Nat.length_digits 2 n Nat.one_lt_two hn, ← Nat.mul_one (Nat.digits 2 n).length]
  exact List.sum_le_card_nsmul _ 1 fun d hd => Nat.le_of_lt_succ (Nat.digits_lt_base Nat.one_lt_two hd)

lemma exists_sumCopies {n : Nat} (hn : n ≠ 0) (e : SharedExpression ν) (first : Nat) :
    ∃ x next, (e.sumCopies n).run first = (some x, next) ∧ IsSumOf e first next n x ∧
      Id.run (Uncertainty.sumCopies (fun a b => pure (.binary .add a b)) e.forget n) = some x.forget ∧
      next + 1 = first + Nat.log 2 n + (Nat.digits 2 n).sum := by
  have hnone : Totals (IsSumOf e first first) 0 none := rfl
  have hcopies := addCopies_isSumOf (n := n) (Nat.le_refl first) hnone .term
  have hforget : (((addCopies (combine .add) none e n).run first).1).map forget =
      Id.run (addCopies (fun a b => pure (.binary .add a b)) none e.forget n) := forget_addCopies
  have hmade : ((addCopies (combine .add) none e n).run first).2 + 1 =
      first + Nat.log 2 n + (Nat.digits 2 n).sum := addCopies_made hn
  rw [Nat.zero_add, Nat.one_mul] at hcopies
  rw [SharedExpression.sumCopies, Uncertainty.sumCopies, Uncertainty.sumCopies]
  generalize (addCopies (combine .add) none e n).run first = r at hcopies hforget hmade ⊢
  obtain ⟨result, next⟩ := r
  cases result with
  | none => exact absurd hcopies hn
  | some x => exact ⟨x, next, rfl, hcopies, hforget.symm, hmade⟩

end SharedExpression

namespace Expression

variable [Number ν]

/-- So many copies of an expression are their sum: a tree of additions with just these copies at its tips, which rises
above them by no more than one level for each bit of their number, and which is drawn by as many trials of the
expression one after the other. Of the nodes of the tree no more than two for each bit are new. A literal is multiplied
instead. -/
theorem repeated_is_balanced_sum [LawfulNegation ν] (e : Expression ν) (count : Nat) :
    (∀ v, e = literal v → e.repeated count =
      if Number.isFinite (v * Number.ofNat count) then .ok (literal (v * Number.ofNat count))
      else .error (.literalNotFinite (v * Number.ofNat count))) ∧
    (e.literal? = none → count = 0 → e.repeated count = .ok (literal Number.zero)) ∧
    (e.literal? = none → count ≠ 0 → ∃ sum, e.repeated count = .ok sum ∧ IsSumOf e count sum ∧
      sum.tips = (List.replicate count e.tips).flatten ∧ sum.shape.depth ≤ e.shape.depth + Nat.log 2 count + 1 ∧
      (∀ s, AddsUp (e.draws count s) (sum.draw s).1 ∧ (sum.draw s).2 = e.streamAfter count s) ∧
      ∀ (node : SharedExpression ν) (first : Nat), node.forget = e →
        ∃ made next, (node.sumCopies count).run first = (some made, next) ∧ made.forget = sum ∧
          SharedExpression.IsSumOf node first next count made ∧ next ≤ first + 2 * (Nat.log 2 count + 1)) := by
  refine ⟨?_, ?_, ?_⟩
  · rintro v rfl
    rfl
  · rintro he rfl
    rw [repeated_eq he, sumCopies, addCopies, if_pos rfl]
    exact if_pos LawfulNegation.isFinite_zero
  · intro he hcount
    have hcopies := sumCopies_isSumOf e count
    rw [repeated_eq he]
    cases hsum : Id.run (sumCopies (fun a b => pure (binary .add a b)) e count) with
    | none =>
      rw [hsum] at hcopies
      exact absurd hcopies hcount
    | some sum =>
      rw [hsum] at hcopies
      have hcopies : IsSumOf e count sum := hcopies
      refine ⟨sum, rfl, hcopies, hcopies.tips_eq, depth_sumCopies hsum, hcopies.draw_eq, ?_⟩
      rintro node first rfl
      obtain ⟨made, next, hrun, hmade, hforget, hnext⟩ := node.exists_sumCopies hcount first
      have hones := SharedExpression.sum_digits_le hcount
      exact ⟨made, next, hrun, Option.some.inj (hforget.symm.trans hsum), hmade, by omega⟩

end Expression

namespace SharedExpression

def twofold : SharedExpression Float := binary 1 .mul (literal 2) (distribution 0 (.normal 3 0.25))

theorem five_twofolds_are_summed : twofold.forget.literal? = none ∧ ∃ sum, twofold.forget.repeated 5 = .ok sum ∧
    sum.tips = [.literal 2, .distribution (.normal 3 0.25), .literal 2, .distribution (.normal 3 0.25), .literal 2,
      .distribution (.normal 3 0.25), .literal 2, .distribution (.normal 3 0.25), .literal 2,
      .distribution (.normal 3 0.25)] ∧ sum.shape.depth ≤ 5 ∧
    ∃ made next, (twofold.sumCopies 5).run 2 = (some made, next) ∧ made.forget = sum ∧ next ≤ 8 := by
  obtain ⟨-, -, hcopies⟩ := Expression.repeated_is_balanced_sum twofold.forget 5
  obtain ⟨sum, hsum, -, htips, hdepth, -, hnodes⟩ := hcopies rfl (by decide)
  obtain ⟨made, next, hrun, hforget, -, hnext⟩ := hnodes twofold 2 rfl
  have hlog : Nat.log 2 5 = 2 := by decide
  rw [hlog] at hdepth hnext
  exact ⟨rfl, sum, hsum, htips, hdepth, made, next, hrun, hforget, hnext⟩

end SharedExpression

end Uncertainty
