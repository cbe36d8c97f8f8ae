import Std.Data.TreeMap
import Std.Data.TreeSet
import Uncertainty.Store.Basic
/-!
The store in use. Records are numbered as they arrive; the numbers are found by id, by parameter name and by
entity.
-/
namespace Uncertainty

instance : Ord RecordId := ⟨compareLex (compareOn RecordId.high) (compareOn RecordId.low)⟩

instance : Std.TransOrd RecordId :=
  inferInstanceAs (Std.TransCmp (compareLex (compareOn RecordId.high) (compareOn RecordId.low)))

instance : Std.LawfulEqOrd RecordId where
  eq_of_compare {a b} h := by
    have h : compareLex (compareOn RecordId.high) (compareOn RecordId.low) a b = .eq := h
    simp [compareLex_eq_eq, compareOn] at h
    cases a; cases b; simp_all

instance : Ord EntityId := ⟨compareOn EntityId.index⟩

instance : Std.TransOrd EntityId := inferInstanceAs (Std.TransCmp (compareOn EntityId.index))

instance : Std.LawfulEqOrd EntityId where
  eq_of_compare {a b} h := by
    have h : compareOn EntityId.index a b = .eq := h
    simp [compareOn] at h
    cases a; cases b; simp_all

/-- For each key the numbers that are filed under it, in ascending order. -/
abbrev Postings (κ : Type) [Ord κ] := Std.TreeMap κ (Std.TreeSet Nat)

namespace Postings

variable {κ : Type} [Ord κ]

def numbers (p : Postings κ) (k : κ) : List Nat := (p.getD k ∅).toList

def file (p : Postings κ) (n : Nat) (k : κ) : Postings κ := p.insert k ((p.getD k ∅).insert n)

def unfile (p : Postings κ) (n : Nat) (k : κ) : Postings κ :=
  let rest := (p.getD k ∅).erase n
  if rest.isEmpty then p.erase k else p.insert k rest

end Postings

structure Store (ν : Type) where
  next : Nat
  arrivals : Std.TreeMap Nat (Record ν)
  numbers : Std.TreeMap RecordId Nat
  byParameter : Postings String
  byEntity : Postings EntityId

namespace Store

variable {ν : Type}

def empty : Store ν := ⟨0, ∅, ∅, ∅, ∅⟩

instance : Inhabited (Store ν) := ⟨empty⟩

def index (n : Nat) (r : Record ν) (s : Store ν) : Store ν :=
  { s with
    byParameter := r.parameter?.toList.foldl (fun p k => p.file n k) s.byParameter
    byEntity := r.location.referenced.foldl (fun p k => p.file n k) s.byEntity }

def unindex (n : Nat) (r : Record ν) (s : Store ν) : Store ν :=
  { s with
    byParameter := r.parameter?.toList.foldl (fun p k => p.unfile n k) s.byParameter
    byEntity := r.location.referenced.foldl (fun p k => p.unfile n k) s.byEntity }

def place (n : Nat) (r : Record ν) (s : Store ν) : Store ν :=
  let s := s.index n r
  { s with arrivals := s.arrivals.insert n r, numbers := s.numbers.insert r.id n }

def put (r : Record ν) (s : Store ν) : Store ν := { s.place s.next r with next := s.next + 1 }

def locate? (s : Store ν) (id : RecordId) : Option (Nat × Record ν) := do
  let n ← s.numbers[id]?
  return (n, ← s.arrivals[n]?)

def recordsAt (s : Store ν) (numbers : List Nat) : List (Record ν) := numbers.filterMap (s.arrivals[·]?)

def records (s : Store ν) : List (Record ν) := s.arrivals.toList.map (·.2)

def get? (s : Store ν) (id : RecordId) : Option (Record ν) := (s.locate? id).map (·.2)

def holds (s : Store ν) (id : RecordId) : Bool := s.numbers.contains id

def findParameter? (s : Store ν) (name : String) : Option (Record ν) := (s.recordsAt (s.byParameter.numbers name)).head?

def find? (s : Store ν) (name : String) (id : EntityId) : Option (Record ν) :=
  (s.recordsAt (s.byParameter.numbers name)).find? (·.location.references id)

def referencing (s : Store ν) (id : EntityId) : List (Record ν) := s.recordsAt (s.byEntity.numbers id)

def size (s : Store ν) : Nat := s.numbers.size

def insert (r : Record ν) (s : Store ν) : Except StoreError (Store ν) :=
  if s.holds r.id then .error (.duplicateKey r.id) else .ok (s.put r)

def insertIfAbsent (r : Record ν) (s : Store ν) : Bool × Store ν :=
  if s.holds r.id then (false, s) else (true, s.put r)

def update (r : Record ν) (s : Store ν) : Except StoreError (Store ν) :=
  match s.locate? r.id with
  | some (n, old) => .ok ((s.unindex n old).place n r)
  | none => .error (.recordNotFound r.id)

def remove (id : RecordId) (s : Store ν) : Except StoreError (Record ν × Store ν) :=
  match s.locate? id with
  | some (n, old) =>
    let s := s.unindex n old
    .ok (old, { s with arrivals := s.arrivals.erase n, numbers := s.numbers.erase id })
  | none => .error (.recordNotFound id)

def ofRecords (rs : List (Record ν)) : Except StoreError (Store ν) := rs.foldlM (fun s r => s.insert r) empty

instance : RecordStore (Store ν) ν where
  records := records
  get? := get?
  findParameter? := findParameter?
  find? := find?
  referencing := referencing
  size := size
  insert := insert
  insertIfAbsent := insertIfAbsent
  update := update
  remove := remove

end Store

end Uncertainty
