import Mathlib.Logic.Function.Basic
import Uncertainty.Proofs.Engine.Mirror
import Uncertainty.Proofs.Reaction.Increment

namespace Uncertainty

open Workspace Reaction

variable {F : Transcendentals}

/-- Records that were annotated are linear, and the total mass recorded for a system has the variance that its ledger
says. Without a record the ledger is empty. -/
structure Recorded (ledger : EntityId → Exact F) (l : Listing (Exact F)) : Prop where
  annotated : ∀ r ∈ l.records, (∀ d : Attribute, d.isDerived = true → r.parameter? ≠ some d.name) →
    ∀ e, r.expression? = some e → e.IsLinear
  total : ∀ r ∈ l.records, ∀ system, r.describes Attribute.totalMass.name system = true →
    ∃ e m, r.expression? = some e ∧ e.HasMoments m ∧ m.variance = ledger system
  absent : ∀ system, (∀ r ∈ l.records, ¬ r.describes Attribute.totalMass.name system = true) →
    ledger system = Number.zero

namespace Recorded

variable {config : Sampling} {base l l' : Listing (Exact F)} {m : Registry (Exact F)} {ledger : EntityId → Exact F}
  {d a : Attribute} {system id : EntityId} {template r : Record (Exact F)} {e new : Expression (Exact F)}
  {x : Exact F} {w w' : Workspace (Listing (Exact F)) (Exact F)} {value : Value (Exact F)}

lemma empty : Recorded (fun _ => Number.zero) (Listing.empty : Listing (Exact F)) :=
  ⟨fun _ hr => absurd hr List.not_mem_nil, fun _ hr => absurd hr List.not_mem_nil, fun _ _ => rfl⟩

lemma saved_other (h : Recorded ledger l) (hm : Mirrored config base l m) (hd : d.isDerived = true)
    (hne : d ≠ .totalMass) (hs : Saved d system (RecordStore.find? l d.name system) template e l l') :
    Recorded ledger l' := by
  have hother {r : Record (Exact F)} (hr : r.parameter? = some d.name) (id : EntityId) :
      ¬ r.describes Attribute.totalMass.name id = true := by
    intro hdesc
    have hp := ((r.describes_iff _ _).mp hdesc).1
    exact hne (Attribute.name_injective (Option.some.inj (hr.symm.trans hp)))
  refine ⟨?_, ?_, ?_⟩
  · intro r hr hp
    rcases hm.of_saved hd hs hr with ⟨hr, -⟩ | ⟨hd', -, -⟩
    · exact h.annotated r hr hp
    · exact absurd hd' (hp d hd)
  · intro r hr id hdesc
    rcases hm.of_saved hd hs hr with ⟨hr, -⟩ | ⟨hd', -, -⟩
    · exact h.total r hr id hdesc
    · exact absurd hdesc (hother hd' id)
  · intro id hnone
    refine h.absent id fun r hr hdesc => ?_
    refine hnone r (hm.mem_saved hs hr fun hd' => ?_) hdesc
    exact hother ((r.describes_iff _ _).mp hd').1 id hdesc

lemma saved_total {mo : Moments (Exact F)} (h : Recorded ledger l) (hm : Mirrored config base l m)
    (hs : Saved .totalMass system (RecordStore.find? l Attribute.totalMass.name system) template e l l')
    (he : e.HasMoments mo) : Recorded (Function.update ledger system mo.variance) l' := by
  refine ⟨?_, ?_, ?_⟩
  · intro r hr hp
    rcases hm.of_saved rfl hs hr with ⟨hr, -⟩ | ⟨hd', -, -⟩
    · exact h.annotated r hr hp
    · exact absurd hd' (hp .totalMass rfl)
  · intro r hr id hdesc
    rcases hm.of_saved rfl hs hr with ⟨hr, hne⟩ | ⟨-, hreferenced, hre⟩
    · have hid : id ≠ system := fun hid => hne (hid ▸ hdesc)
      rw [Function.update_of_ne hid]
      exact h.total r hr id hdesc
    · have hid := ((r.describes_iff _ _).mp hdesc).2
      rw [hreferenced, List.mem_singleton] at hid
      rw [hid, Function.update_self]
      exact ⟨e, mo, hre, he, rfl⟩
  · intro id hnone
    have hid : id ≠ system := by
      rintro rfl
      obtain ⟨r, hr, hdesc⟩ := hs.describes
      exact hnone r hr hdesc
    rw [Function.update_of_ne hid]
    refine h.absent id fun r hr hdesc => hnone r (hm.mem_saved hs hr fun hdesc' => hid ?_) hdesc
    exact (hm.describes_unique rfl hr hdesc' hdesc).1

lemma append (h : Recorded ledger l) (hr : ∀ d : Attribute, d.isDerived = true → r.parameter? ≠ some d.name)
    (hlinear : ∀ e, r.expression? = some e → e.IsLinear) : Recorded ledger (l.append r) := by
  refine ⟨?_, ?_, ?_⟩
  · intro a ha hp
    rcases List.mem_append.mp ha with ha | ha
    · exact h.annotated a ha hp
    · rw [List.mem_singleton.mp ha]
      exact hlinear
  · intro a ha id hdesc
    rcases List.mem_append.mp ha with ha | ha
    · exact h.total a ha id hdesc
    · rw [List.mem_singleton.mp ha] at hdesc
      exact absurd ((r.describes_iff _ _).mp hdesc).1 (hr .totalMass rfl)
  · intro id hnone
    exact h.absent id fun a ha => hnone a (List.mem_append_left _ ha)

lemma touches (h : Recorded ledger w.store) (hk : Kept config base w) (hd : d.isDerived = true) (hne : d ≠ .totalMass)
    (ht : Touches d w w') : Recorded ledger w'.store := by
  rcases ht.store with hstore | ⟨system, template, e, hs⟩
  · rw [hstore]
    exact h
  · exact h.saved_other hk hd hne hs

lemma hasMoments_annotated (h : Recorded ledger l) (ha : a.isDerived = false)
    (he : recordedExpression? l a id = some e) : ∃ mo, e.HasMoments mo := by
  obtain ⟨r, hr, hre⟩ := Option.bind_eq_some_iff.mp he
  obtain ⟨hmem, hdesc⟩ := Listing.mem_of_find? hr
  refine (h.annotated r hmem ?_ e hre).hasMoments
  rintro d hd hp
  have hp' := ((r.describes_iff _ _).mp hdesc).1
  obtain rfl := Attribute.name_injective (Option.some.inj (hp.symm.trans hp'))
  exact absurd (ha.symm.trans hd) nofun

lemma hasMoments_total (h : Recorded ledger l) (hm : Mirrored config base l m)
    (he : recordedExpression? l .totalMass system = some e) :
    ∃ x, m.get system .totalMass = .ok x ∧ e.HasMoments ⟨x, ledger system⟩ := by
  obtain ⟨r, hr, hre⟩ := Option.bind_eq_some_iff.mp he
  obtain ⟨hmem, hdesc⟩ := Listing.mem_of_find? hr
  obtain ⟨e', mo, he', hmo, hvariance⟩ := h.total r hmem system hdesc
  obtain rfl : e = e' := Option.some.inj (hre.symm.trans he')
  obtain ⟨e'', x, he'', -, hget, hx⟩ := hm.value r hmem system .totalMass rfl hdesc
  obtain rfl : e = e'' := Option.some.inj (hre.symm.trans he'')
  refine ⟨x, hget, ?_⟩
  rw [Exact.eq_of_beq hx, ← hvariance, Expression.mean, hmo.moments_eq]
  exact hmo

lemma hasMoments_value (h : Recorded ledger l) (hm : Mirrored config base l m)
    (hv : IsValueOf m .totalMass system (recordedExpression? l .totalMass system) value) :
    ∃ x, m.get system .totalMass = .ok x ∧ value.HasMoments ⟨x, ledger system⟩ := by
  cases he : recordedExpression? l .totalMass system with
  | some e =>
    rw [he] at hv
    obtain rfl : value = .expression e := hv
    exact h.hasMoments_total hm he
  | none =>
    rw [he] at hv
    obtain ⟨x, hx, rfl⟩ := hv
    have habsent : ledger system = Number.zero := by
      refine h.absent system fun r hr hdesc => ?_
      cases hfind : RecordStore.find? l Attribute.totalMass.name system with
      | none => exact Listing.not_describes_of_find? hfind hr hdesc
      | some r' =>
        obtain ⟨hmem, hdesc⟩ := Listing.mem_of_find? hfind
        obtain ⟨e, -, hre, -⟩ := h.total r' hmem system hdesc
        rw [recordedExpression?, hfind] at he
        cases he.symm.trans hre
    refine ⟨x, hx, ?_⟩
    rw [habsent]
    exact Expression.hasMoments_literal

lemma written (h : Recorded ledger w.store) (hk : Kept config base w) {mo : Moments (Exact F)} (he : e.HasMoments mo)
    (hw : Written config .totalMass system e w w') :
    Recorded (Function.update ledger system mo.variance) w'.store ∧
      ∃ old, w.model.set system .totalMass mo.mean = .ok (old, w'.model) := by
  obtain ⟨template, hs⟩ := hw.saved
  have hset := hw.set
  rw [Expression.mean, he.moments_eq] at hset
  exact ⟨h.saved_total hk hs he, hset⟩

end Recorded

/-- What one step on the total mass, `x` before it, comes to: the moments of the change that was carried over, as often
as there are items, or else the difference. -/
inductive Posted (ledger : EntityId → Exact F) (change : Change (Exact F)) (delta x : Exact F)
    (w w' : Workspace (Listing (Exact F)) (Exact F)) : Prop
  | carried {n : Nat} {new : Expression (Exact F)} {mo : Moments (Exact F)} {old : Exact F} :
    change.items w.model = .ok n → n ≠ 0 →
    recordedExpression? w.store change.parameter change.affected = some new → new.HasMoments mo →
    Recorded (Function.update ledger change.container (ledger change.container + Number.ofNat n * mo.variance))
      w'.store →
    w.model.set change.container .totalMass (x + Number.ofNat n * (mo.mean - change.old)) = .ok (old, w'.model) →
    Posted ledger change delta x w w'
  | shifted {old : Exact F} : change.Uncarried w → Recorded ledger w'.store →
    w.model.set change.container .totalMass (x + delta) = .ok (old, w'.model) → Posted ledger change delta x w w'

lemma Moved.posted {config : Sampling} {base : Listing (Exact F)} {ledger : EntityId → Exact F}
    {change : Change (Exact F)} {delta : Exact F} {w w' : Workspace (Listing (Exact F)) (Exact F)}
    (h : Moved config .totalMass change delta w w') (hr : Recorded ledger w.store) (hk : Kept config base w)
    (ha : change.parameter.isDerived = false) :
    ∃ x, w.model.get change.container .totalMass = .ok x ∧ Posted ledger change delta x w w' := by
  cases h with
  | carried hitems hn hcarried =>
    obtain ⟨new, e, -, hnew, ⟨value, hvalue, he⟩, hwritten⟩ := hcarried
    obtain ⟨mo, hmo⟩ := hr.hasMoments_annotated ha hnew
    obtain ⟨x, hx, hbase⟩ := hr.hasMoments_value hk hvalue
    obtain ⟨hrecorded, old, hset⟩ := hr.written hk (incremental_hasMoments hn hbase hmo he) hwritten
    exact ⟨x, hx, .carried hitems hn hnew hmo hrecorded hset⟩
  | shifted huncarried hshifted =>
    obtain ⟨e, ⟨current, hcurrent, -, he⟩, hwritten⟩ := hshifted
    obtain ⟨x, hx, hmo⟩ := hr.hasMoments_total hk hcurrent
    obtain ⟨hrecorded, old, hset⟩ := hr.written hk (shifted_hasMoments hmo he) hwritten
    rw [Function.update_eq_self] at hrecorded
    exact ⟨x, hx, .shifted huncarried hrecorded hset⟩
  | plain huncarried _ hstore hget hset =>
    exact ⟨_, hget, .shifted huncarried (hstore ▸ hr) hset⟩

end Uncertainty
