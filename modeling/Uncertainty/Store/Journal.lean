import Uncertainty.Store.Basic
/-!
A journal over a store: it passes every call on and notes how to undo each write.
-/
namespace Uncertainty

inductive Undo (ν : Type) where
  | remove (id : RecordId)
  | restore (r : Record ν)
  | reinsert (r : Record ν)
deriving Inhabited

structure Journal (σ ν : Type) where
  inner : σ
  undo : List (Undo ν)

variable {σ ν : Type}

namespace Journal

def ofStore (s : σ) : Journal σ ν := ⟨s, []⟩

def note (j : Journal σ ν) (s : σ) (u : Undo ν) : Journal σ ν := ⟨s, u :: j.undo⟩

def pending (j : Journal σ ν) : Nat := j.undo.length

end Journal

variable [RecordStore σ ν]

def Undo.apply (s : σ) : Undo ν → Except StoreError σ
  | remove id => (RecordStore.remove id s).map (·.2)
  | restore r => RecordStore.update r s
  | reinsert r => RecordStore.insert r s

namespace Journal

def insert (r : Record ν) (j : Journal σ ν) : Except StoreError (Journal σ ν) := do
  return j.note (← RecordStore.insert r j.inner) (.remove r.id)

def insertIfAbsent (r : Record ν) (j : Journal σ ν) : Bool × Journal σ ν :=
  match RecordStore.insertIfAbsent r j.inner with
  | (true, s) => (true, j.note s (.remove r.id))
  | (false, s) => (false, ⟨s, j.undo⟩)

def update (r : Record ν) (j : Journal σ ν) : Except StoreError (Journal σ ν) :=
  match RecordStore.get? j.inner r.id with
  | some old => do return j.note (← RecordStore.update r j.inner) (.restore old)
  | none => .error (.recordNotFound r.id)

def remove (id : RecordId) (j : Journal σ ν) : Except StoreError (Record ν × Journal σ ν) := do
  let (old, s) ← RecordStore.remove id j.inner
  return (old, j.note s (.reinsert old))

def undoAll : List (Undo ν) → σ → Except StoreError Unit × σ
  | [], s => (.ok (), s)
  | u :: us, s =>
    match u.apply s with
    | .ok s => undoAll us s
    | .error e => (.error e, s)

def rollback (j : Journal σ ν) : Except StoreError Unit × σ := undoAll j.undo j.inner

instance : RecordStore (Journal σ ν) ν where
  records j := RecordStore.records j.inner
  get? j := RecordStore.get? j.inner
  findParameter? j := RecordStore.findParameter? j.inner
  find? j := RecordStore.find? j.inner
  referencing j := RecordStore.referencing j.inner
  size j := RecordStore.size j.inner
  insert := insert
  insertIfAbsent := insertIfAbsent
  update := update
  remove := remove

end Journal

end Uncertainty
