import Uncertainty.Proofs.Store.Listing
import Uncertainty.Proofs.Store.Renaming

namespace Uncertainty

open Equiv

variable {ν : Type}

namespace Listing

variable {l : Listing ν} {r a : Record ν} {rs us vs : List (Record ν)}

def revise (rs : List (Record ν)) (a : Record ν) : Record ν := (rs.find? (·.id = a.id)).getD a

def news (l : Listing ν) (rs : List (Record ν)) : List (Record ν) := rs.filter fun r => !l.holds r.id

lemma holds_iff {id : RecordId} : l.holds id = true ↔ ∃ a ∈ l.records, a.id = id := by
  simp [holds]

lemma id_revise (rs : List (Record ν)) (a : Record ν) : (revise rs a).id = a.id := by
  rw [revise]
  cases h : rs.find? (·.id = a.id) with
  | none => rfl
  | some r => simpa using List.find?_some h

lemma revise_cons_of_eq (h : r.id = a.id) : revise (r :: rs) a = r := by
  rw [revise, List.find?_cons_of_pos (by simpa using h)]
  rfl

lemma revise_cons_of_ne (h : r.id ≠ a.id) : revise (r :: rs) a = revise rs a := by
  rw [revise, List.find?_cons_of_neg (by simpa using h), revise]

lemma revise_of_notMem (h : a.id ∉ rs.map (·.id)) : revise rs a = a := by
  have hnone : rs.find? (·.id = a.id) = none := by
    refine List.find?_eq_none.mpr fun r hr he => h (List.mem_map.mpr ⟨r, hr, by simpa using he⟩)
  rw [revise, hnone]
  rfl

lemma revise_perm (hn : (us.map (·.id)).Nodup) (hperm : us.Perm vs) (a : Record ν) : revise us a = revise vs a := by
  have hfind : us.find? (·.id = a.id) = vs.find? (·.id = a.id) := by
    cases hu : us.find? (·.id = a.id) with
    | none =>
      rw [List.find?_eq_none] at hu
      exact (List.find?_eq_none.mpr fun r hr => hu r (hperm.mem_iff.mpr hr)).symm
    | some r =>
      have hid : r.id = a.id := by simpa using List.find?_some hu
      rw [← hid]
      have hr : r ∈ vs := hperm.mem_iff.mp (List.mem_of_find?_eq_some hu)
      exact (find?_id_of_mem ((hperm.map (·.id)).nodup_iff.mp hn) hr).symm
  rw [revise, revise, hfind]

section Renaming

variable {ρ : Perm RecordId}

lemma revise_rename (ha : ρ a.id = a.id) : revise (rs.map (Record.rename ρ)) a = revise rs a := by
  have hsame (r : Record ν) : (r.rename ρ).id = a.id ↔ r.id = a.id := by
    change ρ r.id = a.id ↔ _
    rw [← ha, ρ.injective.eq_iff, ha]
  rw [revise, revise, List.find?_map]
  simp only [Function.comp_def, hsame]
  cases h : rs.find? (·.id = a.id) with
  | none => rfl
  | some r =>
    have hid : r.id = a.id := by simpa using List.find?_some h
    exact Record.rename_eq_self (hid ▸ ha)

lemma news_rename (hρ : ∀ a ∈ l.records, ρ a.id = a.id) (rs : List (Record ν)) :
    l.news (rs.map (Record.rename ρ)) = (l.news rs).map (Record.rename ρ) := by
  have hholds (r : Record ν) : l.holds (r.rename ρ).id = l.holds r.id := by
    have h := holds_rename ρ l r.id
    rwa [rename_eq_self hρ] at h
  rw [news, news, List.filter_map]
  simp only [Function.comp_def, hholds]

end Renaming

lemma foldl_put (hn : (rs.map (·.id)).Nodup) :
    (rs.foldl (fun l r => l.put r) l).records = l.records.map (revise rs) ++ l.news rs := by
  induction rs generalizing l with
  | nil =>
    rw [List.foldl_nil, news, List.filter_nil, List.append_nil]
    exact (List.map_id l.records).symm
  | cons r rs ih =>
    rw [List.map_cons, List.nodup_cons] at hn
    rw [List.foldl_cons, ih hn.2, put]
    by_cases hr : l.holds r.id = true
    · rw [if_pos hr]
      have hholds (id : RecordId) : holds ⟨l.records.map fun a => if a.id = r.id then r else a⟩ id = l.holds id := by
        rw [holds, holds, List.any_map]
        congr 1
        funext a
        rw [Function.comp_apply]
        split
        · rw [‹a.id = r.id›]
        · rfl
      have hnews : l.news (r :: rs) = l.news rs := List.filter_cons_of_neg (by simp [hr])
      rw [hnews, news, news]
      simp only [hholds, List.map_map]
      congr 1
      apply List.map_congr_left
      intro a _
      rw [Function.comp_apply]
      by_cases ha : a.id = r.id
      · rw [if_pos ha, revise_of_notMem hn.1, revise_cons_of_eq ha.symm]
      · rw [if_neg ha, revise_cons_of_ne (Ne.symm ha)]
    · rw [if_neg hr]
      have hnews : l.news (r :: rs) = r :: l.news rs := List.filter_cons_of_pos (by simp [hr])
      have hsame : (l.append r).news rs = l.news rs := by
        apply List.filter_congr
        intro b hb
        have hne : r.id ≠ b.id := fun he => hn.1 (List.mem_map.mpr ⟨b, hb, he.symm⟩)
        simp [holds, append, hne]
      have hmap : l.records.map (revise rs) = l.records.map (revise (r :: rs)) := by
        apply List.map_congr_left
        intro a ha
        exact (revise_cons_of_ne fun he => hr (holds_iff.mpr ⟨a, ha, he.symm⟩)).symm
      rw [hsame, hnews, append, List.map_append, hmap, List.append_assoc]
      exact congrArg (_ ++ ·) (congrArg (· :: _) (revise_of_notMem hn.1))

/-- Records that are put in the other way round, with other ids for new ones, leave the places that were there the same,
and follow behind them the other way round. -/
lemma foldl_put_swap (hn : ((us ++ vs).map (·.id)).Nodup) (ρ : Perm RecordId) (hρ : ∀ a ∈ l.records, ρ a.id = a.id) :
    ∃ kept, kept.map (·.id) = l.records.map (·.id) ∧
      ((us ++ vs).foldl (fun l r => l.put r) l).records = kept ++ (l.news us ++ l.news vs) ∧
      (((vs ++ us).map (Record.rename ρ)).foldl (fun l r => l.put r) l).records =
        kept ++ (l.news vs ++ l.news us).map (Record.rename ρ) := by
  have hids {rs : List (Record ν)} : (rs.map (Record.rename ρ)).map (·.id) = (rs.map (·.id)).map ρ := by
    rw [List.map_map, List.map_map]
    rfl
  have hperm : (us ++ vs).Perm (vs ++ us) := List.perm_append_comm
  have hn' : (((vs ++ us).map (Record.rename ρ)).map (·.id)).Nodup := by
    rw [hids]
    exact ((hperm.map (·.id)).nodup_iff.mp hn).map ρ.injective
  have hkept : l.records.map (revise ((vs ++ us).map (Record.rename ρ))) = l.records.map (revise (us ++ vs)) := by
    apply List.map_congr_left
    intro a ha
    rw [revise_rename (hρ a ha), revise_perm hn hperm]
  refine ⟨l.records.map (revise (us ++ vs)), ?_, ?_, ?_⟩
  · rw [List.map_map]
    exact List.map_congr_left fun a _ => id_revise _ a
  · rw [foldl_put hn, news, List.filter_append]
    rfl
  · rw [foldl_put hn', hkept, news_rename hρ, news, List.filter_append]
    rfl

end Listing

end Uncertainty
