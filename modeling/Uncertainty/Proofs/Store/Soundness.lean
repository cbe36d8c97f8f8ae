import Mathlib.Data.List.Basic
import Uncertainty.Proofs.Store.Postings

namespace Uncertainty

variable {ν : Type}

namespace Record

lemma describes_iff (r : Record ν) (name : String) (id : EntityId) :
    r.describes name id = true ↔ r.parameter? = some name ∧ id ∈ r.location.referenced := by
  simp only [describes, Location.isParameter, Location.references, parameter?, Location.parameter?,
    Bool.and_eq_true, decide_eq_true_eq]
  grind

end Record

lemma find?_id_of_mem {rs : List (Record ν)} (h : (rs.map (·.id)).Nodup) {r : Record ν} (hr : r ∈ rs) :
    rs.find? (·.id = r.id) = some r := by
  induction rs with
  | nil => cases hr
  | cons a rs ih =>
    rw [List.map_cons, List.nodup_cons] at h
    rcases List.mem_cons.mp hr with rfl | hr
    · simp
    · have hne : ¬ a.id = r.id := fun he => h.1 (he ▸ List.mem_map_of_mem hr)
      rw [List.find?_cons_of_neg (by simpa using hne)]
      exact ih h.2 hr

namespace Store

/-- Numbers stay below the next one, an id leads to the number of its record, and each number is filed under
exactly the parameter and the entities of its record. -/
structure Sound (s : Store ν) : Prop where
  below : ∀ n r, s.arrivals[n]? = some r → n < s.next
  numbered : ∀ id n, s.numbers[id]? = some n ↔ ∃ r : Record ν, s.arrivals[n]? = some r ∧ r.id = id
  byParameter : ∀ name n, Postings.Files s.byParameter name n ↔
    ∃ r : Record ν, s.arrivals[n]? = some r ∧ r.parameter? = some name
  byEntity : ∀ id n, Postings.Files s.byEntity id n ↔
    ∃ r : Record ν, s.arrivals[n]? = some r ∧ id ∈ r.location.referenced

lemma sound_empty : (empty : Store ν).Sound where
  below := by simp [empty]
  numbered := by simp [empty]
  byParameter name n := by simp [empty, Postings.not_files_empty]
  byEntity id n := by simp [empty, Postings.not_files_empty]

section Writes

variable {s : Store ν} {n : Nat} {r old : Record ν}

lemma files_place_byParameter (name : String) (m : Nat) :
    Postings.Files (s.place n r).byParameter name m ↔
      (r.parameter? = some name ∧ n = m) ∨ Postings.Files s.byParameter name m := by
  rw [← Option.mem_toList]
  exact Postings.files_foldl_file n m name _ s.byParameter

lemma files_place_byEntity (id : EntityId) (m : Nat) :
    Postings.Files (s.place n r).byEntity id m ↔
      (id ∈ r.location.referenced ∧ n = m) ∨ Postings.Files s.byEntity id m :=
  Postings.files_foldl_file n m id _ s.byEntity

lemma files_unindex_byParameter (name : String) (m : Nat) :
    Postings.Files (s.unindex n r).byParameter name m ↔
      Postings.Files s.byParameter name m ∧ ¬ (r.parameter? = some name ∧ n = m) := by
  rw [← Option.mem_toList]
  exact Postings.files_foldl_unfile n m name _ s.byParameter

lemma files_unindex_byEntity (id : EntityId) (m : Nat) :
    Postings.Files (s.unindex n r).byEntity id m ↔
      Postings.Files s.byEntity id m ∧ ¬ (id ∈ r.location.referenced ∧ n = m) :=
  Postings.files_foldl_unfile n m id _ s.byEntity

lemma getElem?_place_arrivals (m : Nat) :
    (s.place n r).arrivals[m]? = if n = m then some r else s.arrivals[m]? := by
  change (s.arrivals.insert n r)[m]? = _
  simp [Std.TreeMap.getElem?_insert]

lemma getElem?_place_numbers (id : RecordId) :
    (s.place n r).numbers[id]? = if r.id = id then some n else s.numbers[id]? := by
  change (s.numbers.insert r.id n)[id]? = _
  simp [Std.TreeMap.getElem?_insert, Std.LawfulEqCmp.compare_eq_iff_eq]

lemma locate?_eq_some (h : s.Sound) {id : RecordId} {n : Nat} {r : Record ν} :
    s.locate? id = some (n, r) ↔ s.arrivals[n]? = some r ∧ r.id = id := by
  have hn := h.numbered id
  simp only [locate?, Option.bind_eq_bind, Option.bind_eq_some_iff, Option.pure_def, Option.some.injEq, Prod.mk.injEq]
  grind

lemma sound_put (h : s.Sound) (hr : s.holds r.id = false) : (s.put r).Sound := by
  have hfree : s.arrivals[s.next]? = none := by
    cases hs : s.arrivals[s.next]? with
    | none => rfl
    | some r => exact absurd (h.below _ r hs) (Nat.lt_irrefl _)
  have hid : ∀ m, s.numbers[r.id]? ≠ some m := by
    intro m hm
    simp [holds, Std.TreeMap.contains_eq_isSome_getElem?, hm] at hr
  constructor
  · intro m r' hm
    change (s.place s.next r).arrivals[m]? = some r' at hm
    change m < s.next + 1
    rw [getElem?_place_arrivals] at hm
    have := h.below m
    grind
  · intro id m
    change (s.place s.next r).numbers[id]? = some m ↔ ∃ r', (s.place s.next r).arrivals[m]? = some r' ∧ _
    rw [getElem?_place_numbers, getElem?_place_arrivals]
    have := h.numbered id m
    grind
  · intro name m
    change Postings.Files (s.place s.next r).byParameter name m ↔ ∃ r', (s.place s.next r).arrivals[m]? = some r' ∧ _
    rw [files_place_byParameter, getElem?_place_arrivals, h.byParameter]
    grind
  · intro id m
    change Postings.Files (s.place s.next r).byEntity id m ↔ ∃ r', (s.place s.next r).arrivals[m]? = some r' ∧ _
    rw [files_place_byEntity, getElem?_place_arrivals, h.byEntity]
    grind

lemma sound_replace (h : s.Sound) (hn : s.arrivals[n]? = some old) (hid : old.id = r.id) :
    ((s.unindex n old).place n r).Sound := by
  constructor
  · intro m r' hm
    change m < s.next
    rw [getElem?_place_arrivals] at hm
    change (if n = m then some r else s.arrivals[m]?) = some r' at hm
    have := h.below m
    grind
  · intro id m
    rw [getElem?_place_numbers, getElem?_place_arrivals]
    change (if r.id = id then some n else s.numbers[id]?) = some m ↔
      ∃ r', (if n = m then some r else s.arrivals[m]?) = some r' ∧ r'.id = id
    have hm := h.numbered id m
    have ho := h.numbered r.id n
    grind
  · intro name m
    rw [files_place_byParameter, getElem?_place_arrivals, files_unindex_byParameter, h.byParameter]
    change _ ↔ ∃ r', (if n = m then some r else s.arrivals[m]?) = some r' ∧ r'.parameter? = some name
    grind
  · intro id m
    rw [files_place_byEntity, getElem?_place_arrivals, files_unindex_byEntity, h.byEntity]
    change _ ↔ ∃ r', (if n = m then some r else s.arrivals[m]?) = some r' ∧ id ∈ r'.location.referenced
    grind

def takeOut (s : Store ν) (n : Nat) (old : Record ν) : Store ν :=
  let t := s.unindex n old
  { t with arrivals := t.arrivals.erase n, numbers := t.numbers.erase old.id }

lemma getElem?_takeOut_arrivals (m : Nat) :
    (s.takeOut n old).arrivals[m]? = if n = m then none else s.arrivals[m]? := by
  change (s.arrivals.erase n)[m]? = _
  simp [Std.TreeMap.getElem?_erase]

lemma getElem?_takeOut_numbers (id : RecordId) :
    (s.takeOut n old).numbers[id]? = if old.id = id then none else s.numbers[id]? := by
  change (s.numbers.erase old.id)[id]? = _
  simp [Std.TreeMap.getElem?_erase, Std.LawfulEqCmp.compare_eq_iff_eq]

lemma sound_takeOut (h : s.Sound) (hn : s.arrivals[n]? = some old) : (s.takeOut n old).Sound := by
  constructor
  · intro m r' hm
    rw [getElem?_takeOut_arrivals] at hm
    have := h.below m r'
    change m < s.next
    grind
  · intro id m
    rw [getElem?_takeOut_numbers, getElem?_takeOut_arrivals]
    have hm := h.numbered id m
    have ho := h.numbered old.id n
    grind
  · intro name m
    change Postings.Files (s.unindex n old).byParameter name m ↔ _
    rw [files_unindex_byParameter, h.byParameter, getElem?_takeOut_arrivals]
    grind
  · intro id m
    change Postings.Files (s.unindex n old).byEntity id m ↔ _
    rw [files_unindex_byEntity, h.byEntity, getElem?_takeOut_arrivals]
    grind

end Writes

section Records

variable {s : Store ν} {n : Nat} {r old : Record ν}

lemma mem_records : r ∈ s.records ↔ ∃ n : Nat, s.arrivals[n]? = some r := by
  simp only [records, List.mem_map, Prod.exists, mem_toList_iff, exists_eq_right]

lemma holds_iff (h : s.Sound) (id : RecordId) : s.holds id = true ↔ ∃ r ∈ s.records, r.id = id := by
  rw [holds, Std.TreeMap.contains_eq_isSome_getElem?, Option.isSome_iff_exists]
  simp only [h.numbered, mem_records]
  constructor
  · rintro ⟨n, r, hn, hid⟩
    exact ⟨r, ⟨n, hn⟩, hid⟩
  · rintro ⟨r, ⟨n, hn⟩, hid⟩
    exact ⟨n, r, hn, hid⟩

lemma Sound.number_unique (h : s.Sound) {m : Nat} (hn : s.arrivals[n]? = some r) (hm : s.arrivals[m]? = some old)
    (hid : r.id = old.id) : n = m := by
  have h₁ := (h.numbered r.id n).mpr ⟨r, hn, rfl⟩
  have h₂ := (h.numbered r.id m).mpr ⟨old, hm, hid.symm⟩
  exact Option.some.inj (h₁.symm.trans h₂)

lemma Sound.ids_nodup (h : s.Sound) : (s.records.map (·.id)).Nodup := by
  rw [records, List.map_map, List.nodup_iff_pairwise_ne, List.pairwise_map]
  have hs := List.pairwise_map.mp (toList_keys_sorted s.arrivals)
  refine hs.imp_of_mem ?_
  rintro ⟨n, r⟩ ⟨m, r'⟩ hn hm hlt he
  rw [mem_toList_iff] at hn hm
  exact absurd (h.number_unique hn hm he) (Nat.ne_of_lt hlt)

lemma records_put (h : s.Sound) : (s.put r).records = s.records ++ [r] := by
  change ((s.arrivals.insert s.next r).toList).map (·.2) = _
  rw [toList_insert_above r h.below, List.map_append]
  rfl

lemma records_replace (h : s.Sound) (hn : s.arrivals[n]? = some old) (hid : old.id = r.id) :
    ((s.unindex n old).place n r).records = s.records.map fun old => if old.id = r.id then r else old := by
  change ((s.arrivals.insert n r).toList).map (·.2) = _
  rw [toList_insert_present r hn, records, List.map_map, List.map_map]
  apply List.map_congr_left
  rintro ⟨m, r'⟩ hm
  rw [mem_toList_iff] at hm
  have hsame : m = n ↔ r'.id = r.id := by
    constructor
    · rintro rfl
      rw [hm, Option.some.injEq] at hn
      rw [hn, hid]
    · intro he
      exact h.number_unique hm hn (he.trans hid.symm)
  by_cases hmn : m = n <;> simp [hmn, ← hsame]

lemma records_takeOut (h : s.Sound) (hn : s.arrivals[n]? = some old) :
    (s.takeOut n old).records = s.records.filter (·.id ≠ old.id) := by
  change ((s.arrivals.erase n).toList).map (·.2) = _
  rw [toList_erase, records, List.filter_map]
  congr 1
  apply List.filter_congr
  rintro ⟨m, r'⟩ hm
  rw [mem_toList_iff] at hm
  have hsame : m = n ↔ r'.id = old.id := by
    constructor
    · rintro rfl
      rw [hm, Option.some.injEq] at hn
      rw [hn]
    · exact h.number_unique hm hn
  simp [← hsame]

lemma recordsAt_eq_filter {ns : List Nat} (p : Record ν → Bool) (hs : ns.Pairwise (· < ·))
    (h : ∀ n, n ∈ ns ↔ ∃ r, s.arrivals[n]? = some r ∧ p r = true) : s.recordsAt ns = s.records.filter p := by
  have hns : ns = (s.arrivals.toList.filter fun e => p e.2).map Prod.fst := by
    apply eq_of_sorted_of_mem hs
    · exact (toList_keys_sorted _).sublist (List.filter_sublist.map _)
    · intro n
      simp only [h, List.mem_map, List.mem_filter, Prod.exists, mem_toList_iff]
      grind
  rw [hns, recordsAt, List.filterMap_map, records, List.filter_map]
  have hmap : ∀ l : List (Nat × Record ν), l.filterMap (fun e => some e.2) = l.map (·.2) :=
    fun l => congrFun List.filterMap_eq_map l
  rw [← hmap]
  apply List.filterMap_congr
  rintro ⟨n, r⟩ he
  exact (mem_toList_iff _ _ _).mp (List.mem_of_mem_filter he)

end Records

section Questions

variable {s : Store ν}

lemma get?_eq_find? (h : s.Sound) (id : RecordId) : s.get? id = s.records.find? (·.id = id) := by
  cases hl : s.locate? id with
  | none =>
    rw [get?, hl, Option.map_none, eq_comm, List.find?_eq_none]
    intro r hr
    obtain ⟨n, hn⟩ := mem_records.mp hr
    intro he
    have := (locate?_eq_some h).mpr ⟨hn, of_decide_eq_true he⟩
    rw [hl] at this
    cases this
  | some e =>
    obtain ⟨n, r⟩ := e
    obtain ⟨hn, rfl⟩ := (locate?_eq_some h).mp hl
    rw [get?, hl, Option.map_some]
    exact (find?_id_of_mem h.ids_nodup (mem_records.mpr ⟨n, hn⟩)).symm

lemma recordsAt_byParameter (h : s.Sound) (name : String) :
    s.recordsAt (s.byParameter.numbers name) = s.records.filter (·.parameter? = some name) := by
  apply recordsAt_eq_filter _ (Postings.numbers_sorted _ _)
  intro n
  rw [Postings.mem_numbers, h.byParameter]
  simp

lemma findParameter?_eq_find? (h : s.Sound) (name : String) :
    s.findParameter? name = s.records.find? (·.parameter? = some name) := by
  rw [findParameter?, recordsAt_byParameter h, List.head?_filter]

lemma find?_eq_find? (h : s.Sound) (name : String) (id : EntityId) :
    s.find? name id = s.records.find? (·.describes name id) := by
  rw [find?, recordsAt_byParameter h, List.find?_filter]
  congr 1
  funext r
  rw [Bool.eq_iff_iff, Record.describes_iff]
  simp [Location.references]

lemma referencing_eq_filter (h : s.Sound) (id : EntityId) :
    s.referencing id = s.records.filter (·.location.references id) := by
  apply recordsAt_eq_filter _ (Postings.numbers_sorted _ _)
  intro n
  rw [Postings.mem_numbers, h.byEntity]
  simp [Location.references]

lemma size_eq_length (h : s.Sound) : s.size = s.records.length := by
  have hp : s.numbers.keys.Perm (s.records.map (·.id)) := by
    have hk : s.numbers.keys.Nodup := by
      refine Std.TreeMap.distinct_keys.imp ?_
      intro a b hab he
      exact hab (Std.LawfulEqCmp.compare_eq_iff_eq.mpr he)
    rw [List.perm_ext_iff_of_nodup hk h.ids_nodup]
    intro id
    rw [Std.TreeMap.mem_keys, Std.TreeMap.mem_iff_contains, List.mem_map]
    exact holds_iff h id
  rw [size, ← Std.TreeMap.length_keys, hp.length_eq, List.length_map]

end Questions

end Store

end Uncertainty
