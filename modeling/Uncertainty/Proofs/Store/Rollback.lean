import Mathlib.Data.List.Perm.Basic
import Uncertainty.Proofs.Store.Undo
import Uncertainty.Store.Writes

/-! A journal does what the store under it does, and taking back everything that it noted brings back the records of
the start: in their places where they were never taken out, and after all of those where they were. -/

namespace Uncertainty

variable {ν : Type}

namespace Listing

def Returned (taken : List RecordId) (l l' : Listing ν) : Prop :=
  ∃ returned, l'.records = l.records.filter (·.id ∉ taken) ++ returned ∧
    returned.Perm (l.records.filter (·.id ∈ taken))

variable {taken : List RecordId} {l l' : Listing ν} {id : RecordId} {r old : Record ν}

lemma get?_of_mem (hr : r ∈ l.records) : ∃ a, l.get? r.id = some a :=
  Option.isSome_iff_exists.mp (List.find?_isSome.mpr ⟨r, hr, decide_eq_true rfl⟩)

lemma update_of_get?_eq_none (h : l.get? r.id = none) : l.update r = .error (.recordNotFound r.id) := by
  have hn : l.holds r.id = false := holds_eq_false.mpr (by simpa using List.find?_eq_none.mp h)
  rw [update, hn]
  rfl

namespace Returned

lemma refl (l : Listing ν) : Returned [] l l := ⟨[], by simp, by simp⟩

lemma perm (h : Returned taken l l') : l'.records.Perm l.records := by
  obtain ⟨returned, hl', hperm⟩ := h
  have hsplit := List.filter_append_perm (fun a : Record ν => decide (a.id ∉ taken)) l.records
  simp only [decide_not, Bool.not_not] at hsplit hl'
  rw [hl']
  exact (hperm.append_left _).trans hsplit

lemma records_eq (h : Returned [] l l') : l'.records = l.records := by
  obtain ⟨returned, hl', hperm⟩ := h
  simp only [List.not_mem_nil, not_false_eq_true, decide_true, decide_false, List.filter_true, List.filter_false,
    List.perm_nil] at hl' hperm
  rw [hl', hperm, List.append_nil]

lemma holds (h : Returned taken l l') (id : RecordId) : l'.holds id = l.holds id := by
  rw [Bool.eq_iff_iff]
  simp [Listing.holds, h.perm.mem_iff]

lemma without (h : Returned taken l l') (id : RecordId) :
    Returned taken ⟨l.records.filter (·.id ≠ id)⟩ ⟨l'.records.filter (·.id ≠ id)⟩ := by
  obtain ⟨returned, hl', hperm⟩ := h
  refine ⟨returned.filter (·.id ≠ id), ?_, ?_⟩
  · rw [hl', List.filter_append, List.filter_comm]
  · rw [List.filter_comm]
    exact hperm.filter _

lemma map (h : Returned taken l l') {f : Record ν → Record ν} (hf : ∀ a, (f a).id = a.id) :
    Returned taken ⟨l.records.map f⟩ ⟨l'.records.map f⟩ := by
  obtain ⟨returned, hl', hperm⟩ := h
  refine ⟨returned.map f, ?_, ?_⟩
  · simp [hl', List.filter_map, Function.comp_def, hf]
  · simpa [List.filter_map, Function.comp_def, hf] using hperm.map f

lemma append (hl : (l.records.map (·.id)).Nodup) (hold : l.get? id = some old)
    (h : Returned taken ⟨l.records.filter (·.id ≠ id)⟩ l') : Returned (id :: taken) l (l'.append old) := by
  obtain ⟨returned, hl', hperm⟩ := h
  obtain ⟨hmem, hid, -⟩ := holds_of_get? hold
  refine ⟨returned ++ [old], ?_, ?_⟩
  · rw [Listing.append, hl', List.append_assoc, List.filter_filter]
    simp [Bool.and_comm]
  · have hreturned (a : Record ν) : a ∈ returned ↔ (a ∈ l.records ∧ a.id ≠ id) ∧ a.id ∈ taken := by
      rw [hperm.mem_iff, List.mem_filter, List.mem_filter, decide_eq_true_eq, decide_eq_true_eq]
    have hnodup : l.records.Nodup := List.Nodup.of_map _ hl
    refine (List.perm_ext_iff_of_nodup ?_ (hnodup.filter _)).mpr fun a => ?_
    · refine List.nodup_append.mpr ⟨hperm.nodup_iff.mpr ((hnodup.filter _).filter _), List.nodup_singleton old, ?_⟩
      rintro a ha _ hold' rfl
      exact ((hreturned a).mp ha).1.2 (List.mem_singleton.mp hold' ▸ hid)
    · have hsame : a ∈ l.records → a.id = id → a = old := fun ha he =>
        List.inj_on_of_nodup_map hl ha hmem (he.trans hid.symm)
      rw [List.mem_append, hreturned, List.mem_singleton, List.mem_filter, decide_eq_true_eq, List.mem_cons]
      constructor
      · rintro (⟨⟨ha, -⟩, ht⟩ | rfl)
        · exact ⟨ha, .inr ht⟩
        · exact ⟨hmem, .inl hid⟩
      · rintro ⟨ha, ht⟩
        by_cases he : a.id = id
        · exact .inr (hsame ha he)
        · exact .inl ⟨⟨ha, he⟩, ht.resolve_left he⟩

lemma undo_append (h : Returned taken (l.append r) l') (hnew : l.holds r.id = false) :
    ∃ l'', Journal.undoAll [.remove r.id] l' = (.ok (), l'') ∧ Returned taken l l'' := by
  obtain ⟨a, ha⟩ := get?_of_mem (h.perm.mem_iff.mpr (List.mem_append_right l.records (List.mem_singleton.mpr rfl)))
  have hwithout := h.without r.id
  have hl : (⟨(l.append r).records.filter (·.id ≠ r.id)⟩ : Listing ν) = l := by
    have hremove := remove_append hnew
    rw [remove, get?_append hnew] at hremove
    exact (Prod.ext_iff.mp (Except.ok.inj hremove)).2
  rw [hl] at hwithout
  refine ⟨_, ?_, hwithout⟩
  have hremove : (Undo.remove r.id).apply l' = .ok ⟨l'.records.filter (·.id ≠ r.id)⟩ := by
    change (Listing.remove r.id l').map (·.2) = _
    rw [remove, ha]
    rfl
  rw [Journal.undoAll, hremove]
  rfl

lemma undo_update {m : Listing ν} (hl : (l.records.map (·.id)).Nodup) (hold : l.get? r.id = some old)
    (hm : l.update r = .ok m) (h : Returned taken m l') :
    ∃ l'', Journal.undoAll [.restore old] l' = (.ok (), l'') ∧ Returned taken l l'' := by
  obtain ⟨-, hid, hholds⟩ := holds_of_get? hold
  obtain ⟨m', hm', hback⟩ := update_update hl hold
  obtain rfl : m = m' := Except.ok.inj (hm.symm.trans hm')
  rw [update] at hback
  split at hback
  · have hl' : l'.update old = .ok ⟨l'.records.map fun a => if a.id = old.id then old else a⟩ := by
      rw [update, h.holds, if_pos ‹_›]
    have hmap := h.map (f := fun a => if a.id = old.id then old else a) fun a => by
      split
      · exact Eq.symm ‹_›
      · rfl
    rw [Except.ok.inj hback] at hmap
    refine ⟨_, ?_, hmap⟩
    have happly : (Undo.restore old).apply l' = .ok ⟨l'.records.map fun a => if a.id = old.id then old else a⟩ := hl'
    rw [Journal.undoAll, happly]
    rfl
  · cases hback

lemma undo_remove (hl : (l.records.map (·.id)).Nodup) (hold : l.get? id = some old)
    (h : Returned taken ⟨l.records.filter (·.id ≠ id)⟩ l') :
    ∃ l'', Journal.undoAll [.reinsert old] l' = (.ok (), l'') ∧ Returned (id :: taken) l l'' := by
  refine ⟨l'.append old, ?_, h.append hl hold⟩
  obtain ⟨-, hid, -⟩ := holds_of_get? hold
  have hnew : l'.holds old.id = false := by
    rw [h.holds, holds_eq_false, hid]
    simp
  have happly : (Undo.reinsert old).apply l' = .ok (l'.append old) := by
    change l'.insert old = _
    rw [insert, hnew]
    rfl
  rw [Journal.undoAll, happly]
  rfl

end Returned

/-- What a write may do to the records, with what a journal notes on it and the id that it takes out. -/
inductive Noted (l : Listing ν) : List (Undo ν) → Option RecordId → Listing ν → Prop
  | nothing : Noted l [] none l
  | append {r : Record ν} (hr : l.holds r.id = false) : Noted l [.remove r.id] none (l.append r)
  | update {r old : Record ν} {m : Listing ν} (hold : l.get? r.id = some old) (hm : l.update r = .ok m) :
    Noted l [.restore old] none m
  | remove {id : RecordId} {old : Record ν} (hold : l.get? id = some old) :
    Noted l [.reinsert old] (some id) ⟨l.records.filter (·.id ≠ id)⟩

lemma Noted.undo {us : List (Undo ν)} {gone : Option RecordId} {m : Listing ν} (h : Noted l us gone m)
    (hl : (l.records.map (·.id)).Nodup) (hm : Returned taken m l') :
    ∃ l'', Journal.undoAll us l' = (.ok (), l'') ∧ Returned (gone.toList ++ taken) l l'' := by
  cases h with
  | nothing => exact ⟨l', rfl, hm⟩
  | append hr => exact hm.undo_append hr
  | update hold hup => exact hm.undo_update hl hold hup
  | remove hold => exact hm.undo_remove hl hold

end Listing

lemma StoreReply.filterMap_taken?_cons (reply : StoreReply ν) (replies : List (StoreReply ν)) :
    (reply :: replies).filterMap taken? = reply.taken?.toList ++ replies.filterMap taken? := by
  cases h : reply.taken? <;> simp [h]

lemma Journal.sameAnswers (j : Journal (Store ν) ν) : SameAnswers j j.inner :=
  ⟨rfl, rfl, fun _ => rfl, fun _ => rfl, fun _ _ => rfl, fun _ => rfl⟩

lemma Journal.undoAll_append {s t : Listing ν} {us us' : List (Undo ν)} (h : undoAll us s = (.ok (), t)) :
    undoAll (us ++ us') s = undoAll us' t := by
  induction us generalizing s with
  | nil =>
    cases h
    rfl
  | cons u us ih =>
    rw [undoAll] at h
    rw [List.cons_append, undoAll]
    cases hu : u.apply s with
    | error e =>
      rw [hu] at h
      cases h
    | ok s' =>
      rw [hu] at h
      exact ih h

section Journaling

variable {j : Journal (Store ν) ν} {l : Listing ν}

lemma Stands.perform_journal (h : Stands j.inner l) (write : StoreWrite ν) :
    (write.perform j).1 = (write.perform j.inner).1 ∧ (write.perform j).2.inner = (write.perform j.inner).2 ∧
      ∃ us, (write.perform j).2.undo = us ++ j.undo ∧
        l.Noted us (write.perform l).1.taken? (write.perform l).2 := by
  cases write with
  | insert r =>
    have hs := h.holds r.id
    simp only [StoreWrite.perform, RecordStore.insert, Journal.insert, Store.insert, Listing.insert, hs]
    cases hr : l.holds r.id with
    | true => exact ⟨rfl, rfl, [], rfl, .nothing⟩
    | false => exact ⟨rfl, rfl, [.remove r.id], rfl, .append hr⟩
  | insertIfAbsent r =>
    have hs := h.holds r.id
    simp only [StoreWrite.perform, RecordStore.insertIfAbsent, Journal.insertIfAbsent, Store.insertIfAbsent,
      Listing.insertIfAbsent, hs]
    cases hr : l.holds r.id with
    | true => exact ⟨rfl, rfl, [], rfl, .nothing⟩
    | false => exact ⟨rfl, rfl, [.remove r.id], rfl, .append hr⟩
  | update r =>
    have hl : (j.inner.locate? r.id).map (·.2) = l.get? r.id := h.locate? r.id
    simp only [StoreWrite.perform, RecordStore.update, RecordStore.get?, Journal.update, Store.update, Store.get?]
    cases hs : j.inner.locate? r.id with
    | none =>
      rw [hs, eq_comm] at hl
      rw [Listing.update_of_get?_eq_none hl]
      exact ⟨rfl, rfl, [], rfl, .nothing⟩
    | some e =>
      rw [hs, eq_comm] at hl
      obtain ⟨m, hm, -⟩ := Listing.update_update h.ids_nodup hl
      rw [hm]
      exact ⟨rfl, rfl, [.restore e.2], rfl, .update hl hm⟩
  | remove id =>
    have hl := h.locate? id
    simp only [StoreWrite.perform, RecordStore.remove, Journal.remove, Store.remove, Listing.remove, ← hl]
    cases hs : j.inner.locate? id with
    | none => exact ⟨rfl, rfl, [], rfl, .nothing⟩
    | some e =>
      rw [hs, eq_comm] at hl
      obtain ⟨-, hid, -⟩ := Listing.holds_of_get? hl
      refine ⟨rfl, rfl, [.reinsert e.2], rfl, ?_⟩
      have hnoted := Listing.Noted.remove hl
      exact hid.symm ▸ hnoted

lemma Stands.performAll_journal (h : Stands j.inner l) (writes : List (StoreWrite ν)) :
    (StoreWrite.performAll writes j).1 = (StoreWrite.performAll writes j.inner).1 ∧
      (StoreWrite.performAll writes j).2.inner = (StoreWrite.performAll writes j.inner).2 ∧
      ∃ us m l', (StoreWrite.performAll writes j).2.undo = us ++ j.undo ∧
        Stands (StoreWrite.performAll writes j).2.inner m ∧ Journal.undoAll us m = (.ok (), l') ∧
        Listing.Returned ((StoreWrite.performAll writes j).1.filterMap StoreReply.taken?) l l' := by
  induction writes generalizing j l with
  | nil => exact ⟨rfl, rfl, [], l, l, rfl, h, rfl, .refl l⟩
  | cons write writes ih =>
    obtain ⟨hreply, hinner, us, hundo, hnoted⟩ := h.perform_journal write
    have hstep := h.perform write.toCall
    rw [StoreWrite.perform_toCall, StoreWrite.perform_toCall] at hstep
    have hnext : Stands (write.perform j).2.inner (write.perform l).2 := hinner ▸ hstep.2
    obtain ⟨hreplies, hinner', us', m, l', hundo', hm, hback, hreturned⟩ := ih hnext
    obtain ⟨l'', hback', hreturned'⟩ := hnoted.undo h.ids_nodup hreturned
    rw [hinner] at hreplies hinner'
    refine ⟨congrArg₂ List.cons hreply hreplies, hinner', us' ++ us, m, l'', ?_, hm, ?_, ?_⟩
    · rw [List.append_assoc, ← hundo]
      exact hundo'
    · rw [Journal.undoAll_append hback, hback']
    · rw [← hstep.1, ← hreply, ← StoreReply.filterMap_taken?_cons] at hreturned'
      exact hreturned'

theorem journal_takes_back_its_writes (calls : List (StoreCall ν)) (writes : List (StoreWrite ν)) :
    let s : Store ν := (StoreCall.performAll calls Store.empty).2
    let alone := StoreWrite.performAll writes s
    let journaled := StoreWrite.performAll writes (Journal.ofStore s)
    let taken := journaled.1.filterMap StoreReply.taken?
    journaled.1 = alone.1 ∧ journaled.2.inner = alone.2 ∧ SameAnswers journaled.2 alone.2 ∧
      ∃ (t : Store ν) (returned : List (Record ν)), journaled.2.rollback = (.ok (), t) ∧
        SameAnswers t (Listing.mk (s.records.filter (·.id ∉ taken) ++ returned)) ∧
        returned.Perm (s.records.filter (·.id ∈ taken)) ∧ t.records.Perm s.records ∧
        (taken = [] → t.records = s.records) := by
  intro s alone journaled taken
  obtain ⟨-, hs⟩ := Stands.empty.performAll calls
  have hj : Stands (Journal.ofStore s : Journal (Store ν) ν).inner s.listing := ⟨hs.sound, rfl⟩
  obtain ⟨hreplies, hinner, us, m, l', hundo, hm, hback, hreturned⟩ := hj.performAll_journal writes
  have hnotes : journaled.2.undo = us := hundo.trans (List.append_nil us)
  have hrollback := hm.undoAll us
  rw [hback, ← hnotes] at hrollback
  obtain ⟨hok, ht⟩ := hrollback
  have hrecords : journaled.2.rollback.2.records = l'.records := congrArg Listing.records ht.listing
  obtain ⟨returned, hl', hperm⟩ := id hreturned
  refine ⟨hreplies, hinner, hinner ▸ Journal.sameAnswers _, journaled.2.rollback.2, returned, Prod.ext hok rfl, ?_,
    hperm, ?_, ?_⟩
  · obtain ⟨rs⟩ := l'
    subst hl'
    exact ht.answers
  · rw [hrecords]
    exact hreturned.perm
  · intro hnone
    rw [hrecords]
    exact Listing.Returned.records_eq (hnone ▸ hreturned)

end Journaling

end Uncertainty
