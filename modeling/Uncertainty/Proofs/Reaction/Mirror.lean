import Uncertainty.Number.Laws
import Uncertainty.Proofs.Model.Registry
import Uncertainty.Proofs.Reaction.Effects

namespace Uncertainty

variable {ν : Type}

lemma eq_of_countP_le_one {α : Type} {p : α → Bool} {l : List α} (h : l.countP p ≤ 1) {a b : α} (ha : a ∈ l)
    (hb : b ∈ l) (hpa : p a = true) (hpb : p b = true) : a = b := by
  induction l with
  | nil => cases ha
  | cons c l ih =>
    rw [List.countP_cons] at h
    have hnone : p c = true → ∀ d ∈ l, p d ≠ true := by
      intro hc d hd hpd
      have hpos := List.countP_pos_iff.mpr ⟨d, hd, hpd⟩
      rw [if_pos hc] at h
      omega
    rcases List.mem_cons.mp ha with hac | hal <;> rcases List.mem_cons.mp hb with hbc | hbl
    · exact hac.trans hbc.symm
    · exact absurd hpb (hnone (hac ▸ hpa) b hbl)
    · exact absurd hpa (hnone (hbc ▸ hpb) a hal)
    · exact ih (by omega) hal hbl

variable [Number ν]

/-- Since `base`, records only came. A record of a derived attribute is about one entity and the only one of that
attribute there, and the value in the model is the mean of its expression. -/
structure Mirrored (config : Sampling) (base l : Listing ν) (m : Registry ν) : Prop where
  grows : base.Grows l
  nodup : (l.records.map (·.id)).Nodup
  single : ∀ r ∈ l.records, ∀ d : Attribute, d.isDerived = true → r.parameter? = some d.name →
    ∃ system, r.location.referenced = [system]
  unique : ∀ (system : EntityId) (d : Attribute), d.isDerived = true →
    l.records.countP (·.describes d.name system) ≤ 1
  value : ∀ r ∈ l.records, ∀ (system : EntityId) (d : Attribute), d.isDerived = true →
    r.describes d.name system = true → ∃ e v, r.expression? = some e ∧ Number.isFinite (e.mean config) = true ∧
      m.get system d = .ok v ∧ (v == e.mean config) = true

namespace Mirrored

open Reaction

variable {config : Sampling} {base l l' : Listing ν} {m m' : Registry ν} {d : Attribute} {system : EntityId}
  {r old template : Record ν} {v v' : ν} {e : Expression ν}

lemma empty : Mirrored config Listing.empty Listing.empty m where
  grows := Listing.Grows.refl _
  nodup := List.nodup_nil
  single _ hr := absurd hr List.not_mem_nil
  unique _ _ _ := Nat.zero_le _
  value _ hr := absurd hr List.not_mem_nil

lemma eq_of_describes (h : Mirrored config base l m) (hd : d.isDerived = true) (hr : r ∈ l.records)
    (hold : old ∈ l.records) (hs : r.describes d.name system = true) (hs' : old.describes d.name system = true) :
    r = old := by
  exact eq_of_countP_le_one (h.unique system d hd) hr hold hs hs'

lemma describes_unique (h : Mirrored config base l m) (hd : d.isDerived = true) (hr : r ∈ l.records)
    (hs : r.describes d.name system = true) {d' : Attribute} {system' : EntityId}
    (hs' : r.describes d'.name system' = true) : system' = system ∧ d' = d := by
  obtain ⟨hp, hmem⟩ := (r.describes_iff _ _).mp hs
  obtain ⟨hp', hmem'⟩ := (r.describes_iff _ _).mp hs'
  obtain ⟨only, honly⟩ := h.single r hr d hd hp
  rw [honly, List.mem_singleton] at hmem hmem'
  exact ⟨hmem'.trans hmem.symm, Attribute.name_injective (Option.some.inj (hp'.symm.trans hp))⟩

lemma set (h : Mirrored config base l m) (hset : m.set system d v = .ok (v', m'))
    (hv : d.isDerived = true → ∀ r ∈ l.records, r.describes d.name system = true → ∀ e, r.expression? = some e →
      Number.isFinite (e.mean config) = true → (v == e.mean config) = true) : Mirrored config base l m' := by
  refine ⟨h.grows, h.nodup, h.single, h.unique, ?_⟩
  intro r hr system' d' hd' hs
  obtain ⟨e, w, he, hf, hget, hw⟩ := h.value r hr system' d' hd' hs
  by_cases hsame : system' = system ∧ d' = d
  · obtain ⟨rfl, rfl⟩ := hsame
    exact ⟨e, v, he, hf, Registry.get_set_self hset, hv hd' r hr hs e he hf⟩
  · exact ⟨e, w, he, hf, (Registry.get_set_ne hset hsame).trans hget, hw⟩

lemma update [LawfulZero ν] (h : Mirrored config base l m) (hd : d.isDerived = true)
    (hfind : RecordStore.find? l d.name system = some old) {e : Expression ν}
    (hf : Number.isFinite (e.mean config) = true) (hl : l.update (old.withExpression e) = .ok l')
    (hset : m.set system d (e.mean config) = .ok (v', m')) : Mirrored config base l' m' := by
  obtain ⟨hold, hdesc⟩ := Listing.mem_of_find? hfind
  have hsame : ∀ a ∈ l.records, a.id = old.id → a = old := fun a ha => List.inj_on_of_nodup_map h.nodup ha hold
  have hloc : ∀ a ∈ l.records, a.id = old.id → old.location = a.location := by
    intro a ha hid
    rw [hsame a ha hid]
  refine ⟨h.grows.trans (Listing.grows_update hl hloc), ?_, ?_, ?_, ?_⟩
  · rw [Listing.ids_update hl]
    exact h.nodup
  · intro r hr d' hd' hp
    rcases Listing.mem_update hl hr with ⟨a, ha, ⟨hid, rfl⟩ | ⟨-, rfl⟩⟩
    · exact h.single old hold d' hd' hp
    · exact h.single r ha d' hd' hp
  · intro system' d' hd'
    rw [Listing.countP_update hl hloc]
    exact h.unique system' d' hd'
  · intro r hr system' d' hd' hs
    rcases Listing.mem_update hl hr with ⟨a, ha, ⟨hid, rfl⟩ | ⟨hid, rfl⟩⟩
    · obtain ⟨rfl, rfl⟩ := h.describes_unique hd hold hdesc hs
      exact ⟨e, _, rfl, hf, Registry.get_set_self hset, LawfulZero.beq_refl hf⟩
    · obtain ⟨e', w, he, hf', hget, hw⟩ := h.value r ha system' d' hd' hs
      have hne : ¬ (system' = system ∧ d' = d) := by
        rintro ⟨rfl, rfl⟩
        have he : r = old := h.eq_of_describes hd ha hold hs hdesc
        exact absurd (congrArg Record.id he) hid
      exact ⟨e', w, he, hf', (Registry.get_set_ne hset hne).trans hget, hw⟩

lemma insert [LawfulZero ν] (h : Mirrored config base l m) (hd : d.isDerived = true)
    (hfind : RecordStore.find? l d.name system = none) {template : Record ν} {id : RecordId} {e : Expression ν}
    (hf : Number.isFinite (e.mean config) = true)
    (hl : l.insert (Reaction.derivedRecord d system template id e) = .ok l')
    (hset : m.set system d (e.mean config) = .ok (v', m')) : Mirrored config base l' m' := by
  obtain ⟨rfl, hnew⟩ := Listing.insert_ok hl
  have hnone : ∀ a ∈ l.records, ¬ a.describes d.name system = true := by simpa using List.find?_eq_none.mp hfind
  refine ⟨h.grows.trans (Listing.grows_append l _), Listing.nodup_append h.nodup hnew, ?_, ?_, ?_⟩
  · intro r hr d' hd' hp
    rcases List.mem_append.mp hr with hr | hr
    · exact h.single r hr d' hd' hp
    · rw [List.mem_singleton.mp hr]
      exact ⟨system, rfl⟩
  · intro system' d' hd'
    rw [Listing.append, List.countP_append, List.countP_singleton]
    by_cases hsame : system' = system ∧ d' = d
    · obtain ⟨rfl, rfl⟩ := hsame
      have hzero : l.records.countP (·.describes d'.name system') = 0 := List.countP_eq_zero.mpr hnone
      rw [hzero]
      split <;> omega
    · rw [if_neg fun hs => hsame (describes_derivedRecord.mp hs)]
      exact h.unique system' d' hd'
  · intro r hr system' d' hd' hs
    rcases List.mem_append.mp hr with hmem | hmem
    · obtain ⟨e', w, he, hf', hget, hw⟩ := h.value r hmem system' d' hd' hs
      have hne : ¬ (system' = system ∧ d' = d) := by
        rintro ⟨rfl, rfl⟩
        exact hnone r hmem hs
      exact ⟨e', w, he, hf', (Registry.get_set_ne hset hne).trans hget, hw⟩
    · rw [List.mem_singleton.mp hmem] at hs ⊢
      obtain ⟨rfl, rfl⟩ := describes_derivedRecord.mp hs
      exact ⟨e, _, rfl, hf, Registry.get_set_self hset, LawfulZero.beq_refl hf⟩

lemma of_saved (h : Mirrored config base l m) (hd : d.isDerived = true)
    (hs : Saved d system (RecordStore.find? l d.name system) template e l l') (hr : r ∈ l'.records) :
    r ∈ l.records ∧ ¬ r.describes d.name system = true ∨
      r.parameter? = some d.name ∧ r.location.referenced = [system] ∧ r.expression? = some e := by
  rcases hs.cases with ⟨old, hold, hdesc, hupdate⟩ | ⟨hnone, id, rfl, -⟩
  · obtain ⟨hp, hmem⟩ := (old.describes_iff _ _).mp hdesc
    rcases Listing.mem_update hupdate hr with ⟨a, ha, ⟨-, rfl⟩ | ⟨hid, rfl⟩⟩
    · obtain ⟨only, honly⟩ := h.single old hold d hd hp
      rw [honly, List.mem_singleton] at hmem
      exact .inr ⟨hp, hmem ▸ honly, rfl⟩
    · refine .inl ⟨ha, fun hdesc' => hid ?_⟩
      have he : r = old := h.eq_of_describes hd ha hold hdesc' hdesc
      rw [he]
      rfl
  · rcases List.mem_append.mp hr with hr | hr
    · exact .inl ⟨hr, hnone r hr⟩
    · obtain rfl := List.mem_singleton.mp hr
      exact .inr ⟨rfl, rfl, rfl⟩

lemma mem_saved (h : Mirrored config base l m)
    (hs : Saved d system (RecordStore.find? l d.name system) template e l l') (hr : r ∈ l.records)
    (hne : ¬ r.describes d.name system = true) : r ∈ l'.records := by
  rcases hs.cases with ⟨old, hold, hdesc, hupdate⟩ | ⟨-, id, rfl, -⟩
  · rw [Listing.update_ok hupdate]
    refine List.mem_map.mpr ⟨r, hr, if_neg fun hid => hne ?_⟩
    rw [List.inj_on_of_nodup_map h.nodup hr hold hid]
    exact hdesc
  · exact List.mem_append_left _ hr

lemma append (h : Mirrored config base l m) (hnew : ∀ a ∈ l.records, a.id ≠ r.id)
    (hr : ∀ d : Attribute, d.isDerived = true → r.parameter? ≠ some d.name) : Mirrored config base (l.append r) m := by
  have hdescribes : ∀ d : Attribute, d.isDerived = true → ∀ system, ¬ r.describes d.name system = true :=
    fun d hd system hs => hr d hd ((r.describes_iff _ _).mp hs).1
  refine ⟨h.grows.trans (Listing.grows_append l r), Listing.nodup_append h.nodup hnew, ?_, ?_, ?_⟩
  · intro a ha d hd hp
    rcases List.mem_append.mp ha with ha | ha
    · exact h.single a ha d hd hp
    · exact absurd (List.mem_singleton.mp ha ▸ hp) (hr d hd)
  · intro system d hd
    rw [Listing.append, List.countP_append, List.countP_singleton, if_neg (hdescribes d hd system)]
    exact h.unique system d hd
  · intro a ha system d hd hs
    rcases List.mem_append.mp ha with hmem | hmem
    · exact h.value a hmem system d hd hs
    · exact absurd (List.mem_singleton.mp hmem ▸ hs) (hdescribes d hd system)

lemma addEntity (h : Mirrored config base l m) {kind : EntityKind} {container : Option EntityId} {id : EntityId}
    (hm : m.insert kind container = .ok (id, m')) : Mirrored config base l m' := by
  refine ⟨h.grows, h.nodup, h.single, h.unique, ?_⟩
  intro r hr system d hd hs
  obtain ⟨e, v, he, hf, hget, hv⟩ := h.value r hr system d hd hs
  exact ⟨e, v, he, hf, Registry.get_insert hm hget, hv⟩

lemma written [LawfulZero ν] {w w' : Workspace (Listing ν) ν} (h : Mirrored config base w.store w.model)
    (hd : d.isDerived = true) (hw : Written config d system e w w') : Mirrored config base w'.store w'.model := by
  obtain ⟨hf, ⟨template, hsaved⟩, old, hset⟩ := hw
  cases hfind : RecordStore.find? w.store d.name system with
  | some old =>
    rw [hfind] at hsaved
    exact h.update hd hfind hf hsaved hset
  | none =>
    rw [hfind] at hsaved
    obtain ⟨id, hinsert⟩ := hsaved
    exact h.insert hd hfind hf hinsert hset

lemma rebase (h : Mirrored config base l m) : Mirrored config l l m :=
  ⟨Listing.Grows.refl l, h.nodup, h.single, h.unique, h.value⟩

end Mirrored

abbrev Kept (config : Sampling) (base : Listing ν) (w : Workspace (Listing ν) ν) : Prop :=
  Mirrored config base w.store w.model

end Uncertainty
