import Uncertainty.Proofs.Attempt
import Uncertainty.Proofs.Store.Soundness
import Uncertainty.Store.Calls

/-! The indexed store answers as the plain list of its records does, whatever it was told before. -/

namespace Uncertainty

variable {ν : Type}

def Store.listing (s : Store ν) : Listing ν := ⟨s.records⟩

structure Stands (s : Store ν) (l : Listing ν) : Prop where
  sound : s.Sound
  listing : s.listing = l

namespace SameAnswers

variable {σ τ υ : Type} [RecordStore σ ν] [RecordStore τ ν] [RecordStore υ ν] {s : σ} {t : τ} {u : υ}

lemma symm (h : SameAnswers s t) : SameAnswers t s where
  records := h.records.symm
  size := h.size.symm
  get? id := (h.get? id).symm
  findParameter? name := (h.findParameter? name).symm
  find? name id := (h.find? name id).symm
  referencing id := (h.referencing id).symm

lemma trans (h : SameAnswers s t) (h' : SameAnswers t u) : SameAnswers s u where
  records := h.records.trans h'.records
  size := h.size.trans h'.size
  get? id := (h.get? id).trans (h'.get? id)
  findParameter? name := (h.findParameter? name).trans (h'.findParameter? name)
  find? name id := (h.find? name id).trans (h'.find? name id)
  referencing id := (h.referencing id).trans (h'.referencing id)

end SameAnswers

namespace Stands

variable {s : Store ν} {l : Listing ν}

lemma empty : Stands (Store.empty : Store ν) Listing.empty :=
  ⟨Store.sound_empty, rfl⟩

lemma ids_nodup (h : Stands s l) : (l.records.map (·.id)).Nodup := h.listing ▸ h.sound.ids_nodup

lemma answers (h : Stands s l) : SameAnswers s l := by
  obtain ⟨hs, rfl⟩ := h
  exact {
    records := rfl
    size := Store.size_eq_length hs
    get? := Store.get?_eq_find? hs
    findParameter? := Store.findParameter?_eq_find? hs
    find? := Store.find?_eq_find? hs
    referencing := Store.referencing_eq_filter hs }

lemma holds (h : Stands s l) (id : RecordId) : s.holds id = l.holds id := by
  obtain ⟨hs, rfl⟩ := h
  rw [Bool.eq_iff_iff, Store.holds_iff hs]
  simp [Store.listing, Listing.holds]

lemma put (h : Stands s l) {r : Record ν} (hr : s.holds r.id = false) : Stands (s.put r) (l.append r) := by
  obtain ⟨hs, rfl⟩ := h
  exact ⟨Store.sound_put hs hr, congrArg Listing.mk (Store.records_put hs)⟩

lemma locate? (h : Stands s l) (id : RecordId) : (s.locate? id).map (·.2) = l.get? id := h.answers.get? id

lemma insert (h : Stands s l) (r : Record ν) : Alike Eq Stands (s.insert r) (l.insert r) := by
  rw [Store.insert, Listing.insert, ← h.holds]
  cases hr : s.holds r.id with
  | true => exact .error rfl
  | false => exact .ok (h.put hr)

lemma insertIfAbsent (h : Stands s l) (r : Record ν) :
    (s.insertIfAbsent r).1 = (l.insertIfAbsent r).1 ∧ Stands (s.insertIfAbsent r).2 (l.insertIfAbsent r).2 := by
  rw [Store.insertIfAbsent, Listing.insertIfAbsent, ← h.holds]
  cases hr : s.holds r.id with
  | true => exact ⟨rfl, h⟩
  | false => exact ⟨rfl, h.put hr⟩

lemma update (h : Stands s l) (r : Record ν) : Alike Eq Stands (s.update r) (l.update r) := by
  have hl := h.locate? r.id
  rw [Store.update, Listing.update]
  cases hs : s.locate? r.id with
  | none =>
    rw [hs, Option.map_none, eq_comm, Listing.get?, List.find?_eq_none] at hl
    have hn : l.holds r.id = false := by simpa [Listing.holds] using hl
    rw [hn]
    exact .error rfl
  | some e =>
    obtain ⟨n, old⟩ := e
    rw [hs, Option.map_some, eq_comm] at hl
    have hf : l.records.find? (·.id = r.id) = some old := hl
    have hid : old.id = r.id := by simpa using List.find?_some hf
    have hy : l.holds r.id = true :=
      List.any_eq_true.mpr ⟨old, List.mem_of_find?_eq_some hf, decide_eq_true hid⟩
    rw [hy]
    obtain ⟨hn, -⟩ := (Store.locate?_eq_some h.sound).mp hs
    obtain ⟨hs, rfl⟩ := h
    exact .ok ⟨Store.sound_replace hs hn hid, congrArg Listing.mk (Store.records_replace hs hn hid)⟩

lemma remove (h : Stands s l) (id : RecordId) :
    Alike Eq (fun x y => x.1 = y.1 ∧ Stands x.2 y.2) (s.remove id) (l.remove id) := by
  have hl := h.locate? id
  rw [Store.remove, Listing.remove, ← hl]
  cases hs : s.locate? id with
  | none => exact .error rfl
  | some e =>
    obtain ⟨n, old⟩ := e
    obtain ⟨hn, rfl⟩ := (Store.locate?_eq_some h.sound).mp hs
    obtain ⟨hs, rfl⟩ := h
    exact .ok ⟨rfl, Store.sound_takeOut hs hn, congrArg Listing.mk (Store.records_takeOut hs hn)⟩

lemma ofRecords (rs : List (Record ν)) : Alike Eq Stands (Store.ofRecords rs) (Listing.ofRecords rs) := by
  have hfold : ∀ {s : Store ν} {l : Listing ν}, Stands s l →
      Alike Eq Stands (rs.foldlM (fun s r => s.insert r) s) (rs.foldlM (fun l r => l.insert r) l) := by
    induction rs with
    | nil => exact fun h => .ok h
    | cons r rs ih => exact fun h => (h.insert r).bind fun _ _ h => ih h
  exact hfold empty

end Stands

section Runs

variable {s : Store ν} {l : Listing ν}

lemma Stands.ofWrite (h : Stands s l) {x : Except StoreError (Store ν)} {y : Except StoreError (Listing ν)}
    (hxy : Alike Eq Stands x y) :
    (StoreReply.ofWrite s x : StoreReply ν × _).1 = (StoreReply.ofWrite l y).1 ∧
      Stands (StoreReply.ofWrite s x : StoreReply ν × _).2 (StoreReply.ofWrite l y : StoreReply ν × _).2 := by
  cases hxy with
  | ok h => exact ⟨rfl, h⟩
  | error he => exact ⟨congrArg (fun e => StoreReply.done (.error e)) he, h⟩

lemma Stands.perform (h : Stands s l) (call : StoreCall ν) :
    (call.perform s).1 = (call.perform l).1 ∧ Stands (call.perform s).2 (call.perform l).2 := by
  cases call with
  | insert r => exact h.ofWrite (h.insert r)
  | insertIfAbsent r => exact ⟨congrArg StoreReply.added (h.insertIfAbsent r).1, (h.insertIfAbsent r).2⟩
  | update r => exact h.ofWrite (h.update r)
  | remove id =>
    have hr := h.remove id
    change Alike Eq _ (RecordStore.remove id s) (RecordStore.remove id l) at hr
    rw [StoreCall.perform, StoreCall.perform]
    revert hr
    generalize RecordStore.remove id s = x
    generalize RecordStore.remove id l = y
    rintro (⟨⟨hr, ht⟩⟩ | ⟨rfl⟩)
    · exact ⟨congrArg (fun r => StoreReply.removed (.ok r)) hr, ht⟩
    · exact ⟨rfl, h⟩
  | restore rs => exact h.ofWrite (ofRecords rs)

lemma Stands.performAll (h : Stands s l) (calls : List (StoreCall ν)) :
    (StoreCall.performAll calls s).1 = (StoreCall.performAll calls l).1 ∧
      Stands (StoreCall.performAll calls s).2 (StoreCall.performAll calls l).2 := by
  induction calls generalizing s l with
  | nil => exact ⟨rfl, h⟩
  | cons call calls ih =>
    obtain ⟨hreply, hnext⟩ := h.perform call
    obtain ⟨hreplies, hlast⟩ := ih hnext
    exact ⟨congrArg₂ List.cons hreply hreplies, hlast⟩

theorem indexed_store_answers_as_listing (calls : List (StoreCall ν)) :
    let s := StoreCall.performAll calls (Store.empty : Store ν)
    let l := StoreCall.performAll calls (Listing.empty : Listing ν)
    s.1 = l.1 ∧ SameAnswers s.2 l.2 ∧ (l.2.records.map (·.id)).Nodup := by
  obtain ⟨hreplies, hlast⟩ := Stands.empty.performAll calls
  exact ⟨hreplies, hlast.answers, hlast.ids_nodup⟩

end Runs

end Uncertainty
