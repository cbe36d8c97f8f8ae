import Mathlib.Tactic.Lemma
import Uncertainty.Store.Indexed

namespace Uncertainty

namespace Postings

variable {κ : Type} [Ord κ]

def Files (p : Postings κ) (k : κ) (n : Nat) : Prop := n ∈ p.getD k ∅

lemma mem_numbers (p : Postings κ) (k : κ) (n : Nat) : n ∈ p.numbers k ↔ Files p k n := by
  simp [numbers, Files, Std.TreeSet.mem_toList]

lemma numbers_sorted (p : Postings κ) (k : κ) : (p.numbers k).Pairwise (· < ·) :=
  (Std.TreeSet.ordered_toList (t := p.getD k ∅)).imp Nat.compare_eq_lt.mp

variable [Std.TransOrd κ]

lemma not_files_empty (k : κ) (n : Nat) : ¬ Files (∅ : Postings κ) k n := by
  rw [Files, Std.TreeMap.getD_emptyc]
  exact Std.TreeSet.not_mem_emptyc

variable [Std.LawfulEqOrd κ] [DecidableEq κ]

lemma getD_insert_posting (p : Postings κ) (k k' : κ) (s : Std.TreeSet Nat) :
    (p.insert k s).getD k' ∅ = if k = k' then s else p.getD k' ∅ := by
  simp [Std.TreeMap.getD_insert, Std.LawfulEqCmp.compare_eq_iff_eq]

lemma files_file (p : Postings κ) (n m : Nat) (k k' : κ) :
    Files (p.file n k) k' m ↔ (k = k' ∧ n = m) ∨ Files p k' m := by
  rw [Files, file, getD_insert_posting]
  by_cases hk : k = k'
  · subst hk
    simp [Files, Std.TreeSet.mem_insert, Std.LawfulEqCmp.compare_eq_iff_eq]
  · simp [Files, hk]

lemma files_unfile (p : Postings κ) (n m : Nat) (k k' : κ) :
    Files (p.unfile n k) k' m ↔ Files p k' m ∧ ¬ (k = k' ∧ n = m) := by
  have hrest : m ∈ (p.getD k ∅).erase n ↔ Files p k m ∧ ¬ n = m := by
    simp [Files, Std.TreeSet.mem_erase, Std.LawfulEqCmp.compare_eq_iff_eq, and_comm]
  by_cases he : ((p.getD k ∅).erase n).isEmpty
  · have hnone : ¬ m ∈ (p.getD k ∅).erase n := Std.TreeSet.not_mem_of_isEmpty he
    rw [hrest] at hnone
    by_cases hk : k = k'
    · subst hk
      simp only [unfile, he, if_true, Files, Std.TreeMap.getD_erase_self, true_and]
      simpa [Files] using hnone
    · simp [Files, unfile, he, Std.TreeMap.getD_erase, Std.LawfulEqCmp.compare_eq_iff_eq, hk]
  · rw [Files, unfile]
    simp only [he, Bool.false_eq_true, if_false, getD_insert_posting]
    by_cases hk : k = k'
    · subst hk
      simpa using hrest
    · simp [Files, hk]

lemma files_foldl_file (n m : Nat) (k' : κ) (ks : List κ) (p : Postings κ) :
    Files (ks.foldl (fun p k => p.file n k) p) k' m ↔ (k' ∈ ks ∧ n = m) ∨ Files p k' m := by
  induction ks generalizing p with
  | nil => simp
  | cons k ks ih =>
    rw [List.foldl_cons, ih, files_file, List.mem_cons]
    grind

lemma files_foldl_unfile (n m : Nat) (k' : κ) (ks : List κ) (p : Postings κ) :
    Files (ks.foldl (fun p k => p.unfile n k) p) k' m ↔ Files p k' m ∧ ¬ (k' ∈ ks ∧ n = m) := by
  induction ks generalizing p with
  | nil => simp
  | cons k ks ih =>
    rw [List.foldl_cons, ih, files_unfile, List.mem_cons]
    grind

end Postings

variable {β : Type}

lemma eq_of_sorted_of_mem {as bs : List Nat} (ha : as.Pairwise (· < ·)) (hb : bs.Pairwise (· < ·))
    (h : ∀ n, n ∈ as ↔ n ∈ bs) : as = bs := by
  have hp : as.Perm bs := (List.perm_ext_iff_of_nodup (ha.imp Nat.ne_of_lt) (hb.imp Nat.ne_of_lt)).mpr h
  exact hp.eq_of_pairwise (fun a b _ _ hab hba => absurd (Nat.lt_trans hab hba) (Nat.lt_irrefl a)) ha hb

lemma toList_keys_sorted (m : Std.TreeMap Nat β) : (m.toList.map Prod.fst).Pairwise (· < ·) := by
  rw [Std.TreeMap.map_fst_toList_eq_keys]
  exact Std.TreeMap.ordered_keys.imp Nat.compare_eq_lt.mp

lemma toList_eq_of_sorted {m : Std.TreeMap Nat β} {l : List (Nat × β)} (hl : (l.map Prod.fst).Pairwise (· < ·))
    (h : ∀ n b, (n, b) ∈ l ↔ m[n]? = some b) : m.toList = l := by
  have hm : ∀ e, e ∈ m.toList ↔ e ∈ l := by
    rintro ⟨n, b⟩
    rw [Std.TreeMap.mem_toList_iff_getElem?_eq_some, h]
  have hs : ∀ {as : List (Nat × β)}, (as.map Prod.fst).Pairwise (· < ·) → as.Pairwise (·.1 < ·.1) :=
    fun h => List.pairwise_map.mp h
  have hn : ∀ {as : List (Nat × β)}, as.Pairwise (·.1 < ·.1) → as.Nodup :=
    fun h => h.imp fun hab he => Nat.ne_of_lt hab (congrArg Prod.fst he)
  have hp : m.toList.Perm l :=
    (List.perm_ext_iff_of_nodup (hn (hs (toList_keys_sorted m))) (hn (hs hl))).mpr hm
  exact hp.eq_of_pairwise (fun a b _ _ hab hba => absurd (Nat.lt_trans hab hba) (Nat.lt_irrefl a.1))
    (hs (toList_keys_sorted m)) (hs hl)

lemma mem_toList_iff (m : Std.TreeMap Nat β) (n : Nat) (b : β) : (n, b) ∈ m.toList ↔ m[n]? = some b :=
  Std.TreeMap.mem_toList_iff_getElem?_eq_some

lemma toList_insert_above {m : Std.TreeMap Nat β} {n : Nat} (b : β) (h : ∀ k c, m[k]? = some c → k < n) :
    (m.insert n b).toList = m.toList ++ [(n, b)] := by
  apply toList_eq_of_sorted
  · rw [List.map_append, List.pairwise_append]
    refine ⟨toList_keys_sorted m, by simp, ?_⟩
    intro k hk k' hk'
    obtain ⟨⟨_, c⟩, he, rfl⟩ := List.mem_map.mp hk
    simp only [List.map_cons, List.map_nil, List.mem_singleton] at hk'
    exact hk' ▸ h _ c ((mem_toList_iff m _ _).mp he)
  · intro k c
    simp only [List.mem_append, mem_toList_iff, List.mem_singleton, Prod.mk.injEq, Std.TreeMap.getElem?_insert,
      Nat.compare_eq_eq]
    grind

lemma toList_insert_present {m : Std.TreeMap Nat β} {n : Nat} {old : β} (b : β) (h : m[n]? = some old) :
    (m.insert n b).toList = m.toList.map fun e => if e.1 = n then (n, b) else e := by
  have hkeys : (m.toList.map fun e => if e.1 = n then (n, b) else e).map Prod.fst = m.toList.map Prod.fst := by
    rw [List.map_map]
    apply List.map_congr_left
    intro e _
    by_cases he : e.1 = n <;> simp [he]
  apply toList_eq_of_sorted
  · rw [hkeys]
    exact toList_keys_sorted m
  · intro k c
    rw [List.mem_map]
    simp only [Prod.exists, mem_toList_iff, Std.TreeMap.getElem?_insert, Nat.compare_eq_eq]
    grind

lemma toList_erase (m : Std.TreeMap Nat β) (n : Nat) : (m.erase n).toList = m.toList.filter (·.1 ≠ n) := by
  apply toList_eq_of_sorted
  · exact (toList_keys_sorted m).sublist (List.filter_sublist.map _)
  · intro k c
    simp only [List.mem_filter, mem_toList_iff, Std.TreeMap.getElem?_erase, Nat.compare_eq_eq]
    grind

end Uncertainty
