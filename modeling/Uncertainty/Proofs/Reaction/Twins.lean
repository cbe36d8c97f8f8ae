import Uncertainty.Proofs.Reaction.Kin

namespace Uncertainty

variable {σ τ ν α β : Type}

/-- Two kinds of stores and two supplies of ids side by side. The index of `supplies` says how many ids can still be
drawn from both. -/
structure Twins (σ τ ν : Type) [RecordStore σ ν] [RecordStore τ ν] where
  rename : RecordId → RecordId
  stores : σ → τ → Prop
  supplies : Nat → IdSupply → IdSupply → Prop
  find? : ∀ {s t}, stores s t → ∀ name id,
    RecordStore.find? t name id = (RecordStore.find? s name id).map (Record.rename rename)
  insert : ∀ {s t}, stores s t → ∀ r : Record ν,
    Alike (fun e e' => e' = e.rename rename) stores (RecordStore.insert r s) (RecordStore.insert (r.rename rename) t)
  update : ∀ {s t}, stores s t → ∀ r : Record ν,
    Alike (fun e e' => e' = e.rename rename) stores (RecordStore.update r s) (RecordStore.update (r.rename rename) t)
  draw : ∀ {k a b}, supplies (k + 1) a b → b.fresh = rename a.fresh ∧ supplies k a.next b.next
  spare : ∀ {k a b}, supplies (k + 1) a b → supplies k a b

namespace Twins

variable [RecordStore σ ν] [RecordStore τ ν] (T : Twins σ τ ν)

structure Works (k : Nat) (w : Workspace σ ν) (w' : Workspace τ ν) : Prop where
  store : T.stores w.store w'.store
  model : w'.model = w.model
  supply : T.supplies k w.supply w'.supply

instance : Attempt.Sparing T.Works where
  spare h := ⟨h.store, h.model, T.spare h.supply⟩

abbrev Same (k : Nat) (A : α → β → Prop) (work : Workspace.Work σ ν α) (work' : Workspace.Work τ ν β) : Prop :=
  Attempt.Sim T.Works (fun e e' => e' = e.rename T.rename) k A work work'

variable {T}

namespace Same

lemma freshId : T.Same 1 (fun i j => j = T.rename i) Workspace.freshId Workspace.freshId := by
  intro j w w' h
  obtain ⟨hid, hnext⟩ := T.draw h.supply
  exact ⟨.ok hid, ⟨h.store, h.model, hnext⟩⟩

lemma writeModel (f : Registry ν → Except ModelError (α × Registry ν)) :
    T.Same 0 Eq (Workspace.writeModel f) (Workspace.writeModel f) := by
  apply Attempt.Sim.step
  intro j w w' h
  rw [h.model]
  cases f w.model with
  | ok a => exact .ok ⟨rfl, h.store, rfl, h.supply⟩
  | error e => exact .error rfl

lemma writeStore {f : σ → Except StoreError σ} {g : τ → Except StoreError τ}
    (hfg : ∀ s t, T.stores s t → Alike (fun e e' => e' = e.rename T.rename) T.stores (f s) (g t)) :
    T.Same 0 Eq (Workspace.writeStore f) (Workspace.writeStore g) := by
  apply Attempt.Sim.step
  intro j w w' h
  have hs := hfg w.store w'.store h.store
  cases hf : f w.store <;> cases hg : g w'.store <;> rw [hf, hg] at hs <;> cases hs
  case error.error.error he => exact .error (congrArg Error.store he)
  case ok.ok.ok hs => exact .ok ⟨rfl, hs, h.model, h.supply⟩

lemma insert (r : Record ν) :
    T.Same 0 Eq (Workspace.writeStore (RecordStore.insert r))
      (Workspace.writeStore (RecordStore.insert (r.rename T.rename))) :=
  writeStore fun _ _ h => T.insert h r

lemma update (r : Record ν) :
    T.Same 0 Eq (Workspace.writeStore (RecordStore.update r))
      (Workspace.writeStore (RecordStore.update (r.rename T.rename))) :=
  writeStore fun _ _ h => T.update h r

lemma saveExpression (derived : Attribute) (container : EntityId) (existing : Option (Record ν))
    (template : Record ν) (e : Expression ν) :
    T.Same (existing.elim 1 fun _ => 0) (fun r r' => r' = r.rename T.rename)
      (Reaction.saveExpression derived container existing template e)
      (Reaction.saveExpression derived container (existing.map (Record.rename T.rename)) (template.rename T.rename)
        e) := by
  unfold Reaction.saveExpression
  cases existing with
  | some old =>
    apply (update (old.withExpression e)).bind
    rintro _ _ rfl
    exact .done rfl
  | none =>
    apply freshId.bind
    rintro id _ rfl
    apply (insert (Reaction.derivedRecord derived container template id e)).bind
    rintro _ _ rfl
    exact .done rfl

end Same

variable (T)

abbrev kin : Kin σ τ ν where
  rename := T.rename
  zone _ := True
  fails e e' := e' = e.rename T.rename
  works := T.Works
  spare := Attempt.Sparing.spare
  fails_refl he := (he _).symm
  shares h := ⟨.of_eq h.model, fun _ => h.model ▸ rfl, fun _ _ => trivial, fun _ _ _ _ => trivial⟩
  find? h _ name := T.find? h.store name _
  save _ _ template e := (Same.saveExpression _ _ _ template e).at _ _
  set _ _ _ := Same.writeModel _

end Twins

end Uncertainty
