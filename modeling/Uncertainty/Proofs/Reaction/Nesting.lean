import Uncertainty.Proofs.Formula.Nesting
import Uncertainty.Proofs.Formula.Reduction
import Uncertainty.Proofs.Reaction.Effects
import Uncertainty.Proofs.Reaction.Formulas

/-! How deep derived expressions nest. What is added to a total stands to its right, so the total nests no deeper than
the deepest of the terms, and the damping ratio stays a few levels above the total mass. -/

namespace Uncertainty

variable {ν : Type} [Number ν]

structure Expression.Fits (n : Nat) (e : Expression ν) : Prop where
  reduced : e.IsReduced
  nesting : e.nesting ≤ n

lemma Expression.Fits.mono {m n : Nat} {e : Expression ν} (h : e.Fits m) (hmn : m ≤ n) : e.Fits n :=
  ⟨h.reduced, h.nesting.trans hmn⟩

/-- How deep the expressions recorded of an attribute nest, if annotated ones nest at most 200 levels. Up to 2 ^ 20
copies make 40 levels more, and a term in parentheses two. -/
def Attribute.deepest : Attribute → Nat
  | totalMass | totalWeight => 242
  | dampingRatio => 250
  | _ => 200

lemma Attribute.deepest_le (a : Attribute) : a.deepest ≤ 250 := by
  cases a <;> decide

namespace Reaction

section Sums

variable {M N n : Nat} {d : Attribute} {base : Value ν} {new current e : Expression ν} {old delta : ν}

lemma nesting_of_incremental (hM : 4 ≤ M) (hN : M + 42 ≤ N) (hbase : ∀ e, base = .expression e → e.nesting ≤ N)
    (hnew : new.nesting ≤ M) (hn : n ≤ maxRepeatedTerms) (h : incremental d base new old n = .ok e) :
    e.nesting ≤ N := by
  have hfolded : base.folded.toExpression.nesting ≤ N := by
    rw [Value.toExpression_folded]
    cases base with
    | scalar v => exact (Expression.nesting_literal_le v).trans (by omega)
    | expression e => exact hbase e rfl
  have hnew' : (Value.expression new).folded.toExpression.nesting ≤ M := by
    rw [Value.toExpression_folded]
    exact hnew
  have hold : (Value.scalar old).toExpression.nesting ≤ 2 := Expression.nesting_literal_le old
  cases incremental_ok h with
  | once _ hs hu he =>
    have hsum := Value.nesting_sum_le (.inl rfl) hs
    have hdifference := Value.nesting_sum_le (.inr rfl) hu
    rw [he]
    omega
  | @repeated u v total _ hv htotal hu he =>
    have hdifference := Value.nesting_sum_le (.inr rfl) hv
    have hcopies := Expression.nesting_repeated_le htotal (m := 19) (hn.trans_lt (by decide))
    have hsum := Value.nesting_sum_le (.inl rfl) hu
    simp only [Value.toExpression_folded] at hsum hfolded
    change u.toExpression.nesting ≤ max _ (2 + total.nesting) at hsum
    rw [he]
    omega

lemma nesting_of_shifted (hN : 4 ≤ N) (hcurrent : current.nesting ≤ N) (h : shifted d current delta = .ok e) :
    e.nesting ≤ N := by
  obtain ⟨u, hu, rfl⟩ := shifted_ok h
  have hsum := Value.nesting_sum_le (.inl rfl) hu
  have hdelta := Expression.nesting_literal_le delta
  rw [Value.toExpression_folded] at hsum
  change u.toExpression.nesting ≤ max (max current.nesting 3) (2 + (Expression.literal delta).nesting) at hsum
  omega

variable [LawfulNegation ν]

lemma isReduced_of_incremental (hbase : ∀ e, base = .expression e → e.IsReduced) (hnew : new.IsReduced)
    (h : incremental d base new old n = .ok e) : e.IsReduced := by
  rw [incremental] at h
  dsimp only at h
  have henv : (Environment.empty.bind d.name base).All (·.IsReduced) := Environment.all_empty.bind _ hbase
  by_cases hn : n = 1
  · rw [if_pos hn] at h
    obtain ⟨u, hu, h⟩ := exists_of_bind_ok h
    cases h
    exact (Environment.isReduced_of_evaluateText ((henv.bind_expression _ hnew).bind_scalar _ old) hu).toExpression
  · rw [if_neg hn] at h
    obtain ⟨u, hu, h⟩ := exists_of_bind_ok h
    obtain ⟨total, htotal, h⟩ := exists_of_bind_ok h
    obtain ⟨u', hu', h⟩ := exists_of_bind_ok h
    cases h
    have hdelta := Environment.isReduced_of_evaluateText
      ((Environment.all_empty.bind_expression _ hnew).bind_scalar _ old) hu
    have hcopies := Expression.isReduced_repeated (ok_of_mapError_ok htotal) hdelta.toExpression
    exact (Environment.isReduced_of_evaluateText (henv.bind_expression _ hcopies) hu').toExpression

lemma isReduced_of_shifted (hcurrent : current.IsReduced) (h : shifted d current delta = .ok e) : e.IsReduced := by
  rw [shifted] at h
  obtain ⟨u, hu, h⟩ := exists_of_bind_ok h
  cases h
  exact (Environment.isReduced_of_evaluateText
    ((Environment.all_empty.bind_expression _ hcurrent).bind_scalar _ delta) hu).toExpression

end Sums

end Reaction

def Listing.Fits (l : Listing ν) : Prop :=
  ∀ r ∈ l.records, ∀ e, r.expression? = some e →
    e.Fits 250 ∧ ∀ a : Attribute, r.parameter? = some a.name → e.Fits a.deepest

namespace Listing.Fits

open Reaction

variable {a d : Attribute} {id system : EntityId} {template : Record ν} {e : Expression ν} {v : Value ν}
  {l l' : Listing ν} {m : Registry ν} {env : Environment ν} {w : Workspace (Listing ν) ν}

lemma recorded (h : l.Fits) (he : recordedExpression? l a id = some e) : e.Fits a.deepest := by
  obtain ⟨r, hfind, he⟩ := Option.bind_eq_some_iff.mp he
  obtain ⟨hr, hdesc⟩ := Listing.mem_of_find? hfind
  exact (h r hr e he).2 a ((r.describes_iff _ _).mp hdesc).1

lemma value (h : l.Fits) (hv : IsValueOf m a id (recordedExpression? l a system) v) :
    ∀ e, v = .expression e → e.Fits a.deepest := by
  rintro e rfl
  unfold IsValueOf at hv
  split at hv
  · cases hv
    exact h.recorded ‹_›
  · obtain ⟨x, -, hx⟩ := hv
    cases hx

lemma saved (h : l.Fits) (hs : Saved d system (RecordStore.find? l d.name system) template e l l')
    (he : e.Fits d.deepest) : l'.Fits := by
  have hexpression {r : Record ν} (hr : r.expression? = some e) (hp : r.parameter? = some d.name) :
      ∀ e', r.expression? = some e' →
        e'.Fits 250 ∧ ∀ a : Attribute, r.parameter? = some a.name → e'.Fits a.deepest := by
    intro e' he'
    obtain rfl := Option.some.inj (hr.symm.trans he')
    refine ⟨he.mono d.deepest_le, fun a ha => ?_⟩
    obtain rfl := Attribute.name_injective (Option.some.inj (hp.symm.trans ha))
    exact he
  intro r hr
  rcases hs.cases with ⟨old, hold, hdesc, hupdate⟩ | ⟨-, new, rfl, -⟩
  · rcases Listing.mem_update hupdate hr with ⟨a, ha, ⟨-, rfl⟩ | ⟨-, rfl⟩⟩
    · exact hexpression rfl ((old.describes_iff _ _).mp hdesc).1
    · exact h r ha
  · rcases List.mem_append.mp hr with hr | hr
    · exact h r hr
    · obtain rfl := List.mem_singleton.mp hr
      exact hexpression rfl rfl

lemma bound (h : w.store.Fits) {N : Nat} {inputs : List Input} {values : List (Value ν)}
    (hN : ∀ input ∈ inputs, input.source.deepest ≤ N) (henv : env.All (·.Fits N))
    (hvalues : List.Forall₂ (fun input v => IsKnown w system input.source v) inputs values) :
    (Reaction.bound inputs values env).All (·.Fits N) := by
  induction hvalues generalizing env with
  | nil => exact henv
  | @cons input v inputs values hv _ ih =>
    rw [List.forall_mem_cons] at hN
    obtain ⟨holder, -, hv⟩ := hv
    exact ih hN.2 (henv.bind input.name fun e he => (h.value hv e he).mono hN.1)

variable [LawfulNegation ν]

lemma recomputed (h : w.store.Fits) {N : Nat} (hpos : 3 ≤ N) {formula : String} {inputs : List Input}
    (hN : ∀ input ∈ inputs, input.source.deepest ≤ N) (he : Recomputed w system formula inputs e) :
    e.Fits (N + 2 * formula.toList.countP Token.isSignChar) := by
  obtain ⟨values, u, hvalues, hu, rfl⟩ := he
  have henv := h.bound hN Environment.all_empty hvalues
  exact ⟨(Environment.isReduced_of_evaluateText (henv.imp fun _ h => h.reduced) hu).toExpression,
    Formula.nesting_evaluateText_le hpos (henv.imp fun _ h => h.nesting) hu⟩

end Listing.Fits

namespace Reaction

variable {d : Attribute} {system : EntityId} {change : Change ν} {n : Nat} {delta : ν} {new e : Expression ν}
  {config : Sampling} {w w' : Workspace (Listing ν) ν} (h : w.store.Fits)
include h

lemma Written.fits (hw : Written config d system e w w') (he : e.Fits d.deepest) : w'.store.Fits := by
  obtain ⟨template, hs⟩ := hw.saved
  exact h.saved hs he

variable [LawfulNegation ν]

lemma Written.fits_ratio {formula : String} {inputs : List Input}
    (hw : Written config dampingRatio.derived system e w w') (hp : dampingRatio.policy = .recompute formula inputs)
    (he : Recomputed w system formula inputs e) : w'.store.Fits := by
  cases hp
  exact hw.fits h ((h.recomputed (N := 242) (by omega) (by decide) he).mono (by decide +kernel))

lemma Carried.fits_total (hd : d.deepest = 242) (hp : change.parameter.deepest ≤ 200)
    (hc : Carried config ⟨d, .incremental⟩ change n w w') : w'.store.Fits := by
  obtain ⟨new, e, hn, hnew, ⟨base, hbase, he⟩, hw⟩ := hc
  have hfits := (h.recorded hnew).mono hp
  have hvalue := h.value hbase
  rw [hd] at hvalue
  refine hw.fits h ⟨isReduced_of_incremental (fun e he => (hvalue e he).reduced) hfits.reduced he, ?_⟩
  change e.nesting ≤ d.deepest
  rw [hd]
  exact nesting_of_incremental (M := 200) (by omega) (by omega) (fun e he => (hvalue e he).nesting) hfits.nesting hn he

lemma Shifted.fits_total (hd : d.deepest = 242) (hs : Shifted config ⟨d, .incremental⟩ system delta w w') :
    w'.store.Fits := by
  obtain ⟨e, ⟨current, hcurrent, -, he⟩, hw⟩ := hs
  have hfits := h.recorded hcurrent
  refine hw.fits h ⟨isReduced_of_shifted hfits.reduced he, nesting_of_shifted ?_ hfits.nesting he⟩
  change 4 ≤ d.deepest
  omega

lemma Carried.fits_ratio (hc : Carried config dampingRatio change n w w') : w'.store.Fits := by
  obtain ⟨_, e, -, -, he, hw⟩ := hc
  exact hw.fits_ratio h rfl he

lemma Shifted.fits_ratio (hs : Shifted config dampingRatio system delta w w') : w'.store.Fits := by
  obtain ⟨e, he, hw⟩ := hs
  exact hw.fits_ratio h rfl he

end Reaction

end Uncertainty
