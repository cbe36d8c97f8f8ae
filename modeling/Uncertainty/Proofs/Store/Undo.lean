import Mathlib.Data.List.Nodup
import Uncertainty.Proofs.Store.Refinement
import Uncertainty.Store.Journal

namespace Uncertainty

variable {ν : Type}

namespace Listing

variable {l : Listing ν} {r old : Record ν}

lemma holds_eq_false : l.holds r.id = false ↔ ∀ a ∈ l.records, a.id ≠ r.id := by
  simp [holds]

lemma holds_of_get? {id : RecordId} (h : l.get? id = some old) : old ∈ l.records ∧ old.id = id ∧ l.holds id = true := by
  have hmem : old ∈ l.records := List.mem_of_find?_eq_some h
  have hid : old.id = id := by simpa using List.find?_some h
  exact ⟨hmem, hid, List.any_eq_true.mpr ⟨old, hmem, decide_eq_true hid⟩⟩

lemma get?_append (h : l.holds r.id = false) : (l.append r).get? r.id = some r := by
  have hn : l.records.find? (·.id = r.id) = none := by
    simpa using holds_eq_false.mp h
  simp [get?, append, List.find?_append, hn]

lemma remove_append (h : l.holds r.id = false) : (l.append r).remove r.id = .ok (r, l) := by
  have hl : l.records.filter (·.id ≠ r.id) = l.records := by
    rw [List.filter_eq_self]
    simpa using holds_eq_false.mp h
  rw [remove, get?_append h, append, List.filter_append, hl]
  simp

lemma update_update (hl : (l.records.map (·.id)).Nodup) (h : l.get? r.id = some old) :
    ∃ m, l.update r = .ok m ∧ m.update old = .ok l := by
  obtain ⟨hmem, hid, hy⟩ := holds_of_get? h
  refine ⟨_, by rw [update, if_pos hy], ?_⟩
  have hback : (⟨l.records.map fun a => if a.id = r.id then r else a⟩ : Listing ν).holds old.id = true := by
    refine List.any_eq_true.mpr ⟨r, List.mem_map.mpr ⟨old, hmem, if_pos hid⟩, decide_eq_true hid.symm⟩
  rw [update, if_pos hback, List.map_map]
  congr 2
  have hmap : ∀ a ∈ l.records, (if (if a.id = r.id then r else a).id = old.id then old else
      if a.id = r.id then r else a) = a := by
    intro a ha
    by_cases he : a.id = r.id
    · have hsame : a = old := List.inj_on_of_nodup_map hl ha hmem (he.trans hid.symm)
      rw [if_pos he, if_pos hid.symm, hsame]
    · rw [if_neg he, if_neg (hid ▸ he)]
  exact (List.map_congr_left hmap).trans (List.map_id l.records)

end Listing

namespace Stands

variable {s : Store ν} {l : Listing ν}

lemma undo (h : Stands s l) (u : Undo ν) : Alike Eq Stands (u.apply s) (u.apply l) := by
  cases u with
  | remove id =>
    have hr := h.remove id
    change Alike Eq Stands ((Store.remove id s).map (·.2)) ((Listing.remove id l).map (·.2))
    revert hr
    generalize Store.remove id s = x
    generalize Listing.remove id l = y
    rintro (⟨-, ht⟩ | he)
    · exact .ok ht
    · exact .error he
  | restore r => exact h.update r
  | reinsert r => exact h.insert r

lemma undoAll (h : Stands s l) (us : List (Undo ν)) :
    (Journal.undoAll us s).1 = (Journal.undoAll us l).1 ∧
      Stands (Journal.undoAll us s).2 (Journal.undoAll us l).2 := by
  induction us generalizing s l with
  | nil => exact ⟨rfl, h⟩
  | cons u us ih =>
    have hu := h.undo u
    rw [Journal.undoAll, Journal.undoAll]
    revert hu
    generalize u.apply s = x
    generalize u.apply l = y
    rintro (ht | he)
    · exact ih ht
    · exact ⟨congrArg Except.error he, h⟩

end Stands

/-- The journal holds the records of `l`, and undoing what it noted would leave those of `base`. -/
structure Covers (base : Listing ν) (j : Journal (Store ν) ν) (l : Listing ν) : Prop where
  stands : Stands j.inner l
  undo : Journal.undoAll j.undo l = (.ok (), base)

namespace Covers

variable {base l : Listing ν} {j : Journal (Store ν) ν}

lemma ofStore {s : Store ν} (h : s.Sound) : Covers s.listing (Journal.ofStore s) s.listing :=
  ⟨⟨h, rfl⟩, rfl⟩

lemma rollback (h : Covers base j l) : j.rollback.1 = .ok () ∧ Stands j.rollback.2 base := by
  have hu := h.stands.undoAll j.undo
  rwa [h.undo] at hu

lemma insert (h : Covers base j l) (r : Record ν) : Alike Eq (Covers base) (j.insert r) (l.insert r) := by
  have hs := h.stands.insert r
  change Alike Eq _ (Store.insert r j.inner >>= fun s => pure (j.note s (.remove r.id))) _
  rw [Listing.insert] at hs ⊢
  cases hr : l.holds r.id with
  | true =>
    rw [hr] at hs
    revert hs
    generalize Store.insert r j.inner = x
    rintro (_ | he)
    exact .error he
  | false =>
    rw [hr] at hs
    revert hs
    generalize Store.insert r j.inner = x
    rintro (ht | _)
    refine .ok ⟨ht, ?_⟩
    change Journal.undoAll (.remove r.id :: j.undo) (l.append r) = _
    have hu : (Undo.remove r.id).apply (l.append r) = .ok l := congrArg (·.map (·.2)) (Listing.remove_append hr)
    rw [Journal.undoAll, hu]
    exact h.undo

lemma update (h : Covers base j l) (r : Record ν) : Alike Eq (Covers base) (j.update r) (l.update r) := by
  have hget : RecordStore.get? j.inner r.id = l.get? r.id := h.stands.answers.get? r.id
  rw [Journal.update, hget]
  cases hg : l.get? r.id with
  | none =>
    have hn : l.holds r.id = false := by
      have hf := List.find?_eq_none.mp hg
      exact Listing.holds_eq_false.mpr (by simpa using hf)
    rw [Listing.update, hn]
    exact .error rfl
  | some old =>
    obtain ⟨m, hm, hback⟩ := Listing.update_update h.stands.ids_nodup hg
    have hs := h.stands.update r
    change Alike Eq _ (Store.update r j.inner >>= fun s => pure (j.note s (.restore old))) _
    rw [hm] at hs ⊢
    revert hs
    generalize Store.update r j.inner = x
    rintro (ht | _)
    refine .ok ⟨ht, ?_⟩
    change Journal.undoAll (.restore old :: j.undo) m = _
    have hu : (Undo.restore old).apply m = .ok l := hback
    rw [Journal.undoAll, hu]
    exact h.undo

end Covers

end Uncertainty
