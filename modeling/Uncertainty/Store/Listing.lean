import Uncertainty.Store.Basic
/-!
The plainest store: a list of records in the order of their arrival, searched from the front.
-/
namespace Uncertainty

structure Listing (ν : Type) where
  records : List (Record ν)
deriving Inhabited

namespace Listing

variable {ν : Type}

def empty : Listing ν := ⟨[]⟩

def get? (l : Listing ν) (id : RecordId) : Option (Record ν) := l.records.find? (·.id = id)

def holds (l : Listing ν) (id : RecordId) : Bool := l.records.any (·.id = id)

def append (r : Record ν) (l : Listing ν) : Listing ν := ⟨l.records ++ [r]⟩

def insert (r : Record ν) (l : Listing ν) : Except StoreError (Listing ν) :=
  if l.holds r.id then .error (.duplicateKey r.id) else .ok (l.append r)

def insertIfAbsent (r : Record ν) (l : Listing ν) : Bool × Listing ν :=
  if l.holds r.id then (false, l) else (true, l.append r)

def update (r : Record ν) (l : Listing ν) : Except StoreError (Listing ν) :=
  if l.holds r.id then .ok ⟨l.records.map fun old => if old.id = r.id then r else old⟩
  else .error (.recordNotFound r.id)

def remove (id : RecordId) (l : Listing ν) : Except StoreError (Record ν × Listing ν) :=
  match l.get? id with
  | some r => .ok (r, ⟨l.records.filter (·.id ≠ id)⟩)
  | none => .error (.recordNotFound id)

def ofRecords (rs : List (Record ν)) : Except StoreError (Listing ν) := rs.foldlM (fun l r => l.insert r) empty

instance : RecordStore (Listing ν) ν where
  records := records
  get? := get?
  findParameter? l name := l.records.find? (·.parameter? = some name)
  find? l name id := l.records.find? (·.describes name id)
  referencing l id := l.records.filter (·.location.references id)
  size l := l.records.length
  insert := insert
  insertIfAbsent := insertIfAbsent
  update := update
  remove := remove

end Listing

end Uncertainty
