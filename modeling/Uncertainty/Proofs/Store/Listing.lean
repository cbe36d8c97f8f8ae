import Mathlib.Data.List.Find
import Mathlib.Data.List.Nodup
import Uncertainty.Proofs.Store.Soundness
import Uncertainty.Store.Listing

namespace Uncertainty

variable {ν : Type}

lemma Record.describes_of_location {r r' : Record ν} (h : r'.location = r.location) (name : String) (id : EntityId) :
    r'.describes name id = r.describes name id := by
  rw [describes, describes, h]

namespace Listing

def Grows (l l' : Listing ν) : Prop :=
  ∀ (i : Nat) (r : Record ν), l.records[i]? = some r →
    ∃ r' : Record ν, l'.records[i]? = some r' ∧ r'.id = r.id ∧ r'.location = r.location

variable {l l' l'' : Listing ν} {r old : Record ν}

lemma Grows.refl (l : Listing ν) : l.Grows l := fun _ r h => ⟨r, h, rfl, rfl⟩

lemma Grows.trans (h : l.Grows l') (h' : l'.Grows l'') : l.Grows l'' := by
  intro i r hr
  obtain ⟨r', hr', hid, hloc⟩ := h i r hr
  obtain ⟨r'', hr'', hid', hloc'⟩ := h' i r' hr'
  exact ⟨r'', hr'', hid'.trans hid, hloc'.trans hloc⟩

lemma grows_append (l : Listing ν) (r : Record ν) : l.Grows (l.append r) := by
  intro i r' hr
  obtain ⟨hlt, -⟩ := List.getElem?_eq_some_iff.mp hr
  exact ⟨r', (List.getElem?_append_left hlt).trans hr, rfl, rfl⟩

section Finding

variable {name : String} {id : EntityId}

lemma mem_of_find? (h : RecordStore.find? l name id = some r) : r ∈ l.records ∧ r.describes name id = true := by
  have hfound : l.records.find? (·.describes name id) = some r := h
  exact ⟨List.mem_of_find?_eq_some hfound, by simpa using List.find?_some hfound⟩

lemma not_describes_of_find? (h : RecordStore.find? l name id = none) (hr : r ∈ l.records) :
    ¬ r.describes name id = true := by
  have hnone : l.records.find? (·.describes name id) = none := h
  exact List.find?_eq_none.mp hnone r hr

end Finding

lemma insert_ok (h : l.insert r = .ok l') : l' = l.append r ∧ ∀ a ∈ l.records, a.id ≠ r.id := by
  rw [insert] at h
  cases hr : l.holds r.id with
  | true =>
    rw [hr] at h
    cases h
  | false =>
    rw [hr] at h
    cases h
    exact ⟨rfl, by simpa [holds] using hr⟩

lemma insert_of_unheld (h : ∀ a ∈ l.records, a.id ≠ r.id) : l.insert r = .ok (l.append r) := by
  have hr : l.holds r.id = false := by simpa [holds] using h
  rw [insert, hr]
  rfl

lemma exists_update_of_mem (h : old ∈ l.records) (hid : r.id = old.id) : ∃ l', l.update r = .ok l' := by
  have hr : l.holds r.id = true := List.any_eq_true.mpr ⟨old, h, decide_eq_true hid.symm⟩
  exact ⟨_, if_pos hr⟩

/-- The record takes the place of the one with its id, or else comes last. -/
def put (r : Record ν) (l : Listing ν) : Listing ν :=
  if l.holds r.id then ⟨l.records.map fun old => if old.id = r.id then r else old⟩ else l.append r

lemma eq_put_of_insert (h : l.insert r = .ok l') : l' = l.put r := by
  rw [insert] at h
  rw [put]
  split at h
  · cases h
  · rw [if_neg ‹_›]
    exact (Except.ok.inj h).symm

lemma eq_put_of_update (h : l.update r = .ok l') : l' = l.put r := by
  rw [update] at h
  rw [put]
  split at h
  · rw [if_pos ‹_›]
    exact (Except.ok.inj h).symm
  · cases h

lemma nodup_append (h : (l.records.map (·.id)).Nodup) (hnew : ∀ a ∈ l.records, a.id ≠ r.id) :
    ((l.append r).records.map (·.id)).Nodup := by
  rw [append, List.map_append, List.nodup_append]
  refine ⟨h, List.nodup_singleton _, ?_⟩
  rintro _ hmem _ hid rfl
  obtain ⟨a, ha, ha'⟩ := List.mem_map.mp hmem
  exact hnew a ha (ha'.trans (List.mem_singleton.mp hid))

lemma ofRecords_of_nodup {rs : List (Record ν)} (h : (rs.map (·.id)).Nodup) : ofRecords rs = .ok ⟨rs⟩ := by
  have hfold (done rs : List (Record ν)) (h : ((done ++ rs).map (·.id)).Nodup) :
      rs.foldlM (fun l r => l.insert r) (⟨done⟩ : Listing ν) = .ok ⟨done ++ rs⟩ := by
    induction rs generalizing done with
    | nil =>
      rw [List.append_nil]
      rfl
    | cons r rs ih =>
      have hnew : (⟨done⟩ : Listing ν).holds r.id = false := by
        rw [holds, List.any_eq_false]
        intro a ha hid
        rw [List.map_append, List.nodup_append] at h
        exact h.2.2 a.id (List.mem_map_of_mem ha) r.id List.mem_cons_self (by simpa using hid)
      have hrest := ih (done ++ [r]) (by rwa [List.append_assoc])
      rw [List.append_assoc] at hrest
      rw [List.foldlM_cons, insert, hnew]
      exact hrest
  exact hfold [] rs h

section Updating

variable (h : l.update r = .ok l')
include h

lemma update_ok : l'.records = l.records.map fun old => if old.id = r.id then r else old := by
  rw [update] at h
  cases hr : l.holds r.id with
  | false =>
    rw [hr] at h
    cases h
  | true =>
    rw [hr] at h
    cases h
    rfl

lemma records_update {before after : List (Record ν)} (hn : (l.records.map (·.id)).Nodup)
    (hl : l.records = before ++ old :: after) (hid : r.id = old.id) : l'.records = before ++ r :: after := by
  rw [hl, List.map_append, List.map_cons, List.nodup_append, List.nodup_cons] at hn
  obtain ⟨-, ⟨hafter, -⟩, hbefore⟩ := hn
  have hkept (rs : List (Record ν)) (hrs : ∀ a ∈ rs, a.id ≠ r.id) :
      (rs.map fun a => if a.id = r.id then r else a) = rs := by
    refine (List.map_congr_left fun a ha => ?_).trans (List.map_id rs)
    exact if_neg (hrs a ha)
  rw [update_ok h, hl, List.map_append, List.map_cons, if_pos hid.symm, hkept before, hkept after]
  · intro a ha hne
    exact hafter (List.mem_map.mpr ⟨a, ha, hne.trans hid⟩)
  · intro a ha hne
    exact hbefore _ (List.mem_map_of_mem ha) _ List.mem_cons_self (hne.trans hid)

lemma mem_update {a' : Record ν} (ha' : a' ∈ l'.records) :
    ∃ a ∈ l.records, a.id = r.id ∧ a' = r ∨ a.id ≠ r.id ∧ a' = a := by
  rw [update_ok h] at ha'
  obtain ⟨a, ha, rfl⟩ := List.mem_map.mp ha'
  by_cases hid : a.id = r.id
  · exact ⟨a, ha, .inl ⟨hid, if_pos hid⟩⟩
  · exact ⟨a, ha, .inr ⟨hid, if_neg hid⟩⟩

lemma ids_update : l'.records.map (·.id) = l.records.map (·.id) := by
  rw [update_ok h, List.map_map]
  refine List.map_congr_left fun a _ => ?_
  rw [Function.comp_apply]
  split
  · exact Eq.symm ‹_›
  · rfl

variable (hloc : ∀ a ∈ l.records, a.id = r.id → r.location = a.location)
include hloc

lemma grows_update : l.Grows l' := by
  intro i a ha
  have hmem := List.mem_of_getElem? ha
  refine ⟨if a.id = r.id then r else a, by rw [update_ok h, List.getElem?_map, ha]; rfl, ?_⟩
  split
  · exact ⟨Eq.symm ‹_›, hloc a hmem ‹_›⟩
  · exact ⟨rfl, rfl⟩

lemma countP_update (name : String) (id : EntityId) :
    l'.records.countP (·.describes name id) = l.records.countP (·.describes name id) := by
  rw [update_ok h, List.countP_map]
  refine List.countP_congr fun a ha => ?_
  rw [Function.comp_apply]
  split
  · rw [Record.describes_of_location (hloc a ha ‹_›)]
  · rfl

lemma find?_update (name : String) (id : EntityId) :
    RecordStore.find? l' name id = (RecordStore.find? l name id).map fun a => if a.id = r.id then r else a := by
  have hdescribes (a : Record ν) (ha : a ∈ l.records) :
      (if a.id = r.id then r else a).describes name id = a.describes name id := by
    split
    · exact Record.describes_of_location (hloc a ha ‹_›) name id
    · rfl
  change l'.records.find? _ = (l.records.find? _).map _
  rw [update_ok h, List.find?_map]
  exact congrArg _ (List.find?_congr fun a ha => hdescribes a ha)

end Updating

lemma find?_withExpression (hn : (l.records.map (·.id)).Nodup) (hold : old ∈ l.records) {e : Expression ν}
    (h : l.update (old.withExpression e) = .ok l') (name : String) (id : EntityId) :
    RecordStore.find? l' name id =
      (RecordStore.find? l name id).map fun a => if a.id = old.id then old.withExpression e else a := by
  refine find?_update h (fun a ha hid => ?_) name id
  rw [List.inj_on_of_nodup_map hn ha hold hid]
  rfl

lemma find?_update_self {name : String} {id : EntityId} (h : l.update r = .ok l')
    (hfind : RecordStore.find? l name id = some old) (hid : r.id = old.id) (hloc : r.location = old.location) :
    RecordStore.find? l' name id = some r := by
  have hdesc : r.describes name id = true := (Record.describes_of_location hloc name id).trans (mem_of_find? hfind).2
  change l'.records.find? _ = _
  rw [update_ok h]
  change l.records.find? _ = _ at hfind
  generalize l.records = rs at hfind
  -- Whatever is found before the old record has its id, and so is the new one by now.
  induction rs with
  | nil => cases hfind
  | cons a rs ih =>
    rw [List.map_cons, List.find?_cons]
    rw [List.find?_cons] at hfind
    by_cases ha : a.id = r.id
    · rw [if_pos ha, hdesc]
    · rw [if_neg ha]
      cases hadesc : a.describes name id with
      | true =>
        rw [hadesc] at hfind
        exact absurd (congrArg Record.id (Option.some.inj hfind) ▸ hid.symm) ha
      | false =>
        rw [hadesc] at hfind
        exact ih hfind

lemma update_self (hn : (l.records.map (·.id)).Nodup) (hr : r ∈ l.records) : l.update r = .ok l := by
  obtain ⟨l', hupdate⟩ := exists_update_of_mem hr rfl
  obtain ⟨before, after, hl⟩ := List.append_of_mem hr
  have hrecords : l'.records = l.records := (records_update hupdate hn hl rfl).trans hl.symm
  rw [hupdate]
  exact congrArg (Except.ok ∘ Listing.mk) hrecords

lemma find?_append (name : String) (id : EntityId) : RecordStore.find? (l.append r) name id =
    (RecordStore.find? l name id).or (if r.describes name id then some r else none) := by
  change (l.records ++ [r]).find? _ = (l.records.find? _).or _
  rw [List.find?_append, List.find?_singleton]

end Listing

end Uncertainty
