import Mathlib.Algebra.BigOperators.Ring.List
import Mathlib.Tactic.FieldSimp
import Mathlib.Tactic.Ring
import Uncertainty.Expression.Estimate
import Uncertainty.Proofs.Expression.Affine
import Uncertainty.Proofs.Expression.Trial

/-! An estimate is made from the values of the trials, each taken up as it comes. In exact numbers it is their mean and
their variance as a sample. -/

namespace Uncertainty

section Trials

variable {ν : Type} [Number ν]

def Expression.draws (e : Expression ν) : Nat → Random.Stream → List ν
  | 0, _ => []
  | n + 1, s => (e.draw s).1 :: e.draws n (e.draw s).2

namespace Sampler

lemma collect_eq (p : Sampler ν) (n : Nat) (s : Random.Stream) (done : List ν) :
    p.collect n s done = done.reverse ++ p.root.draws n s := by
  induction n generalizing p s done with
  | zero => exact (List.append_nil _).symm
  | succ n ih =>
    rw [collect, draw_eq, Expression.draws]
    dsimp only
    rw [ih, List.reverse_cons, List.append_assoc]
    rfl

lemma tally_eq (p : Sampler ν) (n : Nat) (s : Random.Stream) (t : Tally ν) :
    p.tally n s t = (p.root.draws n s).foldl Tally.add t := by
  induction n generalizing p s t with
  | zero => rfl
  | succ n ih =>
    rw [tally, draw_eq, Expression.draws]
    dsimp only
    rw [ih]
    rfl

end Sampler

namespace Expression

variable (e : Expression ν) (config : Sampling)

@[simp]
lemma length_draws (n : Nat) (s : Random.Stream) : (e.draws n s).length = n := by
  induction n generalizing s with
  | zero => rfl
  | succ n ih => rw [draws, List.length_cons, ih]

lemma trials_eq : e.trials config = e.draws config.samples (Random.Stream.ofSeed config.seed) :=
  Sampler.collect_eq _ _ _ []

lemma length_trials : (e.trials config).length = config.samples := by
  rw [trials_eq, length_draws]

lemma estimate_eq : e.estimate config = ((e.trials config).foldl Tally.add Tally.empty).moments := by
  rw [trials_eq]
  exact congrArg Tally.moments (Sampler.tally_eq _ _ _ _)

end Expression

end Trials

section Rational

variable {F : Transcendentals}

def sampleMean (xs : List ℚ) : ℚ := xs.sum / xs.length

lemma length_ne_zero {xs : List ℚ} (h : xs ≠ []) : (xs.length : ℚ) ≠ 0 :=
  Nat.cast_ne_zero.mpr (List.length_pos_iff.mpr h).ne'

def squaredDeviations (xs : List ℚ) : ℚ := (xs.map fun x => (x - sampleMean xs) ^ 2).sum

lemma sum_square_sub (xs : List ℚ) (m : ℚ) :
    (xs.map fun x => (x - m) ^ 2).sum = (xs.map (· ^ 2)).sum - 2 * m * xs.sum + xs.length * m ^ 2 := by
  induction xs with
  | nil => simp
  | cons x xs ih =>
    simp only [List.map_cons, List.sum_cons, List.length_cons, Nat.cast_add, Nat.cast_one, ih]
    ring

lemma squaredDeviations_eq (xs : List ℚ) :
    squaredDeviations xs = (xs.map (· ^ 2)).sum - xs.sum ^ 2 / xs.length := by
  rcases eq_or_ne xs [] with rfl | hxs
  · simp [squaredDeviations]
  have hn := length_ne_zero hxs
  rw [squaredDeviations, sum_square_sub, sampleMean]
  field_simp
  ring

lemma sampleMean_concat (xs : List ℚ) (x : ℚ) :
    sampleMean (xs ++ [x]) = sampleMean xs + (x - sampleMean xs) / (xs.length + 1) := by
  rcases eq_or_ne xs [] with rfl | hxs
  · simp [sampleMean]
  have hn := length_ne_zero hxs
  have hn' : (xs.length : ℚ) + 1 ≠ 0 := Nat.cast_add_one_ne_zero _
  simp only [sampleMean, List.sum_append, List.sum_singleton, List.length_append, List.length_singleton, Nat.cast_add,
    Nat.cast_one]
  field_simp
  ring

/-- The deviation of the new value is taken once from the mean before it and once from the mean with it. -/
lemma squaredDeviations_concat (xs : List ℚ) (x : ℚ) : squaredDeviations (xs ++ [x]) =
    squaredDeviations xs + (x - sampleMean xs) * (x - sampleMean (xs ++ [x])) := by
  rw [squaredDeviations_eq, squaredDeviations_eq]
  rcases eq_or_ne xs [] with rfl | hxs
  · simp [sampleMean]
  have hn := length_ne_zero hxs
  have hn' : (xs.length : ℚ) + 1 ≠ 0 := Nat.cast_add_one_ne_zero _
  simp only [sampleMean, List.map_append, List.map_singleton, List.sum_append, List.sum_singleton, List.length_append,
    List.length_singleton, Nat.cast_add, Nat.cast_one]
  field_simp
  ring

namespace Tally

def ofRationals (xs : List ℚ) : Tally (Exact F) :=
  ⟨.rational xs.length, .rational (sampleMean xs), .rational (squaredDeviations xs)⟩

lemma add_ofRationals (xs : List ℚ) (x : ℚ) :
    (ofRationals xs : Tally (Exact F)).add (.rational x) = ofRationals (xs ++ [x]) := by
  have hcount : (xs.length : ℚ) + 1 ≠ 0 := Nat.cast_add_one_ne_zero _
  have hone : (Number.one : Exact F) = .rational 1 := congrArg Exact.rational Nat.cast_one
  have hmean : (.rational (sampleMean xs) + .rational ((x - sampleMean xs) / (xs.length + 1)) : Exact F) =
      .rational (sampleMean (xs ++ [x])) := by
    rw [sampleMean_concat, Exact.rational_add]
  rw [ofRationals, add]
  dsimp only
  rw [hone, Exact.rational_add, Exact.rational_sub, Exact.rational_div hcount, hmean, Exact.rational_sub,
    Exact.rational_mul, Exact.rational_add, ← squaredDeviations_concat, ofRationals, List.length_append,
    List.length_singleton, Nat.cast_add, Nat.cast_one]

lemma foldl_add_rationals (xs : List ℚ) :
    (xs.map .rational).foldl add (empty : Tally (Exact F)) = ofRationals xs := by
  induction xs using List.reverseRecOn with
  | nil => simp [ofRationals, empty, sampleMean, squaredDeviations]
  | append_singleton xs x ih => rw [List.map_append, List.foldl_append, ih]; exact add_ofRationals xs x

lemma moments_ofRationals {xs : List ℚ} (h : 2 ≤ xs.length) : (ofRationals xs : Tally (Exact F)).moments =
    ⟨.rational (sampleMean xs), .rational (squaredDeviations xs / (xs.length - 1))⟩ := by
  have hlength : (1 : ℚ) < xs.length := by exact_mod_cast h
  have hone : (Number.one : Exact F) = .rational 1 := congrArg Exact.rational Nat.cast_one
  have hless : Number.less (Number.one : Exact F) (.rational xs.length) = true := by
    rw [hone]
    exact decide_eq_true hlength
  rw [moments, ofRationals]
  dsimp only
  rw [if_pos hless, hone, Exact.rational_sub, Exact.rational_div (sub_ne_zero.mpr hlength.ne')]

end Tally

namespace Distribution

lemma sum_rationals (xs : List ℚ) : Number.sum (xs.map .rational) = (.rational xs.sum : Exact F) := by
  have hfold (a : ℚ) : (xs.map .rational).foldl (· + ·) (.rational a : Exact F) = .rational (a + xs.sum) := by
    induction xs generalizing a with
    | nil => simp
    | cons x xs ih => rw [List.map_cons, List.foldl_cons, Exact.rational_add, ih, List.sum_cons, add_assoc]
  have hstart : (-Number.zero : Exact F) = .rational 0 := by
    rw [Exact.zero_eq]
    exact congrArg Exact.rational neg_zero
  rw [Number.sum, hstart, hfold, zero_add]

variable {xs : List ℚ} (h : xs ≠ [])
include h

lemma mean_rationals : (sampled (xs.map .rational) : Distribution (Exact F)).mean = .rational (sampleMean xs) := by
  have hn := length_ne_zero h
  rw [mean, sum_rationals, List.length_map, Exact.ofNat_eq, Exact.rational_div hn, sampleMean]

lemma variance_rationals : (sampled (xs.map .rational) : Distribution (Exact F)).variance =
    .rational (squaredDeviations xs / xs.length) := by
  have hn := length_ne_zero h
  have hsquares : ((xs.map Exact.rational).map fun v : Exact F => (v - .rational (sampleMean xs)) *
      (v - .rational (sampleMean xs))) = (xs.map fun x => (x - sampleMean xs) ^ 2).map .rational := by
    simp [Function.comp_def, sq]
  rw [variance, mean_rationals h, hsquares, sum_rationals, List.length_map, Exact.ofNat_eq, Exact.rational_div hn,
    squaredDeviations]

end Distribution

namespace Expression

lemma exists_rationals {values : List (Exact F)} (h : ∀ v ∈ values, Number.isFinite v = true) :
    ∃ xs : List ℚ, values = xs.map .rational := by
  induction values with
  | nil => exact ⟨[], rfl⟩
  | cons v values ih =>
    obtain ⟨q, rfl⟩ := Exact.rational_of_isFinite (h v List.mem_cons_self)
    obtain ⟨xs, rfl⟩ := ih fun v hv => h v (List.mem_cons_of_mem _ hv)
    exact ⟨q :: xs, rfl⟩

end Expression

end Rational

namespace Expression

variable {ν : Type} [Number ν] {e : Expression ν} {config : Sampling}

lemma materialize_of_isFinite (hn : 0 < config.samples) (h : ∀ v ∈ e.trials config, Number.isFinite v = true) :
    e.materialize config = .ok (.distribution (.sampled (e.trials config))) := by
  have hvalid : ((e.trials config).filter fun v => !Number.isFinite v) = [] := by
    simpa using h
  have hlength := e.length_trials config
  have hempty : (e.trials config).isEmpty = false := by
    exact List.isEmpty_eq_false_iff.mpr (List.ne_nil_of_length_pos (by omega))
  rw [materialize, hvalid, ofSamples, hempty, List.all_eq_true.mpr h]
  rfl

theorem estimate_is_sample_statistics {F : Transcendentals} {e : Expression (Exact F)} {config : Sampling}
    (hn : 2 ≤ config.samples) (h : ∀ v ∈ e.trials config, Number.isFinite v = true) :
    ∃ xs : List ℚ, xs.length = config.samples ∧ e.trials config = xs.map .rational ∧
      let n : ℚ := config.samples
      let mean := xs.sum / n
      let leaf : Distribution (Exact F) := .sampled (xs.map .rational)
      e.materialize config = .ok (.distribution leaf) ∧
        (e.estimate config).mean = .rational mean ∧ leaf.mean = .rational mean ∧
        (e.estimate config).variance = .rational ((xs.map fun x => (x - mean) ^ 2).sum / (n - 1)) ∧
        (e.estimate config).variance = .rational (n / (n - 1)) * leaf.variance := by
  obtain ⟨xs, hxs⟩ := exists_rationals h
  have hlength : xs.length = config.samples := by
    rw [← e.length_trials config, hxs, List.length_map]
  have hne : xs ≠ [] := List.ne_nil_of_length_pos (by omega)
  have hn0 := length_ne_zero hne
  have hestimate : e.estimate config =
      ⟨.rational (sampleMean xs), .rational (squaredDeviations xs / (xs.length - 1))⟩ := by
    rw [estimate_eq, hxs, Tally.foldl_add_rationals, Tally.moments_ofRationals (hlength ▸ hn)]
  have hmaterialize := materialize_of_isFinite (by omega) h
  rw [hxs] at hmaterialize
  refine ⟨xs, hlength, hxs, ?_⟩
  rw [hestimate, ← hlength]
  refine ⟨hmaterialize, rfl, Distribution.mean_rationals hne, rfl, ?_⟩
  dsimp only
  rw [Distribution.variance_rationals hne, Exact.rational_mul, ← mul_div_mul_comm, mul_comm, mul_div_mul_right _ _ hn0]

def area : Expression (Exact squares) :=
  let side := distribution (.sampled [.rational 1, .rational 2, .rational 4])
  binary .mul side side

theorem area_is_sampled : 2 ≤ (Sampling.mk 6 1).samples ∧ (∀ v ∈ area.trials ⟨6, 1⟩, Number.isFinite v = true) ∧
    area.materialize ⟨6, 1⟩ = .ok (.distribution (.sampled ([8, 2, 8, 2, 2, 1].map .rational))) ∧
    (area.estimate ⟨6, 1⟩).mean = .rational (23 / 6) ∧ (area.estimate ⟨6, 1⟩).variance = .rational (317 / 30) := by
  have hn : 2 ≤ (Sampling.mk 6 1).samples := by decide
  have h : ∀ v ∈ area.trials ⟨6, 1⟩, Number.isFinite v = true := by decide +kernel
  have htrials : area.trials ⟨6, 1⟩ = [8, 2, 8, 2, 2, 1].map .rational := by decide +kernel
  obtain ⟨xs, -, hxs, hmaterialize, hmean, -, hvariance, -⟩ := estimate_is_sample_statistics hn h
  obtain rfl : xs = [8, 2, 8, 2, 2, 1] :=
    List.map_injective_iff.mpr (fun _ _ => Exact.rational.inj) (hxs.symm.trans htrials)
  refine ⟨hn, h, hmaterialize, hmean.trans ?_, hvariance.trans ?_⟩
  · norm_num
  · norm_num

end Expression

end Uncertainty
