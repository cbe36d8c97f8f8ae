import Mathlib.Logic.Equiv.Basic
import Uncertainty.Proofs.Attempt
import Uncertainty.Record.Renaming
import Uncertainty.Store.Listing

namespace Uncertainty

open Equiv

variable {ν : Type}

namespace Record

variable (f : RecordId → RecordId) (r : Record ν)

@[simp]
lemma rename_id : (r.rename f).id = f r.id := rfl

@[simp]
lemma rename_expression? : (r.rename f).expression? = r.expression? := rfl

@[simp]
lemma rename_describes (name : String) (id : EntityId) : (r.rename f).describes name id = r.describes name id := rfl

variable {f r}

lemma rename_eq_self (h : f r.id = r.id) : r.rename f = r := congrArg (fun id => { r with id := id }) h

end Record

@[simp]
lemma StoreError.rename_id (e : StoreError) : e.rename id = e := by
  cases e <;> rfl

@[simp]
lemma Error.rename_id (e : Error ν) : e.rename id = e := by
  cases e with
  | store e => exact congrArg Error.store e.rename_id
  | _ => rfl

lemma map_rename_id (rs : List (Record ν)) : rs.map (Record.rename id) = rs := List.map_id rs

lemma exists_perm {α : Type} [DecidableEq α] (a b : Nat → α) (n : Nat)
    (ha : ∀ i < n, ∀ j < n, a i = a j → i = j) (hb : ∀ i < n, ∀ j < n, b i = b j → i = j) :
    ∃ ρ : Perm α, (∀ i < n, ρ (a i) = b i) ∧ ∀ x, (∀ i < n, x ≠ a i ∧ x ≠ b i) → ρ x = x := by
  induction n with
  | zero => exact ⟨Equiv.refl α, fun i hi => absurd hi (Nat.not_lt_zero i), fun x _ => rfl⟩
  | succ n ih =>
    obtain ⟨ρ, hρ, hfix⟩ := ih (fun i hi j hj => ha i (by omega) j (by omega))
      fun i hi j hj => hb i (by omega) j (by omega)
    refine ⟨ρ.trans (swap (ρ (a n)) (b n)), ?_, ?_⟩
    · intro i hi
      rw [Equiv.trans_apply]
      by_cases hin : i = n
      · rw [hin, swap_apply_left]
      · have hlt : i < n := by omega
        rw [hρ i hlt, swap_apply_of_ne_of_ne]
        · rw [← hρ i hlt]
          exact fun h => hin (ha i hi n (by omega) (ρ.injective h))
        · exact fun h => hin (hb i hi n (by omega) h)
    · intro x hx
      have hρx : ρ x = x := hfix x fun i hi => hx i (by omega)
      rw [Equiv.trans_apply, hρx, swap_apply_of_ne_of_ne]
      · intro h
        rw [← hρx] at h
        exact (hx n (by omega)).1 (ρ.injective h)
      · exact (hx n (by omega)).2

namespace Listing

variable (ρ : Perm RecordId) (l : Listing ν) (r : Record ν)

def rename : Listing ν := ⟨l.records.map (Record.rename ρ)⟩

lemma holds_rename (id : RecordId) : (l.rename ρ).holds (ρ id) = l.holds id := by
  rw [holds, holds, rename, List.any_map]
  congr 1
  funext a
  simp

lemma rename_eq_self {ρ : Perm RecordId} {l : Listing ν} (h : ∀ r ∈ l.records, ρ r.id = r.id) : l.rename ρ = l := by
  have hr : ∀ r ∈ l.records, r.rename ρ = r := fun r hr => Record.rename_eq_self (h r hr)
  exact congrArg Listing.mk ((List.map_congr_left hr).trans (List.map_id l.records))

lemma append_rename : (l.rename ρ).append (r.rename ρ) = (l.append r).rename ρ := by
  simp [append, rename]

lemma find?_rename (name : String) (id : EntityId) :
    RecordStore.find? (l.rename ρ) name id = (RecordStore.find? l name id).map (Record.rename ρ) :=
  List.find?_map

lemma insert_rename :
    Alike (fun e e' => e' = e.rename ρ) (fun m m' => m' = m.rename ρ) (l.insert r)
      ((l.rename ρ).insert (r.rename ρ)) := by
  rw [insert, insert, Record.rename_id, holds_rename]
  cases l.holds r.id with
  | true => exact .error rfl
  | false => exact .ok (append_rename ρ l r)

lemma update_rename :
    Alike (fun e e' => e' = e.rename ρ) (fun m m' => m' = m.rename ρ) (l.update r)
      ((l.rename ρ).update (r.rename ρ)) := by
  rw [update, update, Record.rename_id, holds_rename]
  cases l.holds r.id with
  | false => exact .error rfl
  | true =>
    refine .ok (congrArg Listing.mk ?_)
    rw [rename, List.map_map, List.map_map]
    apply List.map_congr_left
    intro a _
    by_cases h : a.id = r.id <;> simp [h]

lemma insertIfAbsent_rename :
    (l.rename ρ).insertIfAbsent (r.rename ρ) = ((l.insertIfAbsent r).1, (l.insertIfAbsent r).2.rename ρ) := by
  rw [insertIfAbsent, insertIfAbsent, Record.rename_id, holds_rename]
  cases l.holds r.id with
  | true => rfl
  | false => exact congrArg (Prod.mk true) (append_rename ρ l r)

end Listing

end Uncertainty
