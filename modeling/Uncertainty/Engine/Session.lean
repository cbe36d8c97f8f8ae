import Uncertainty.Engine.Basic
import Uncertainty.Record.Renaming
import Uncertainty.Store.Calls

namespace Uncertainty

inductive Request (ν : Type) where
  | addEntity (kind : EntityKind) (container : Option EntityId)
  | annotate (r : Record ν)
  | setAttribute (id : EntityId) (a : Attribute) (v : ν)
deriving Inhabited

def Request.LeavesDerived {ν : Type} : Request ν → Prop
  | addEntity _ _ => True
  | annotate r => ∀ d : Attribute, d.isDerived = true → r.parameter? ≠ some d.name
  | setAttribute _ a _ => a.isDerived = false

inductive Reply (ν : Type) where
  | entity (result : Except (Error ν) EntityId)
  | added (result : Except (Error ν) Bool)
  | outcome (result : Except (Error ν) (Outcome ν))
deriving Inhabited

namespace Engine

variable {ν : Type} [Number ν]

def respond (g : Engine ν) : Request ν → Reply ν × Engine ν
  | .addEntity kind container =>
    match g.addEntity kind container with
    | .ok (id, g) => (.entity (.ok id), g)
    | .error e => (.entity (.error e), g)
  | .annotate r =>
    match g.annotate r with
    | .ok (added, g) => (.added (.ok added), g)
    | .error e => (.added (.error e), g)
  | .setAttribute id a v =>
    let (result, g) := g.setAttribute id a v
    (.outcome result, g)

def serve : List (Request ν) → Engine ν → List (Reply ν) × Engine ν
  | [], g => ([], g)
  | q :: qs, g =>
    let (reply, g) := g.respond q
    let (replies, g) := serve qs g
    (reply :: replies, g)

def Reachable (g : Engine ν) : Prop :=
  ∃ (_ : IdSource) (config : Config) (g₀ : Engine ν) (qs : List (Request ν)),
    Engine.new config = .ok g₀ ∧ g = (serve qs g₀).2

end Engine

section Renaming

variable {ν : Type} (f : RecordId → RecordId)

def HistoryEntry.rename (entry : HistoryEntry ν) : HistoryEntry ν :=
  { entry with source := entry.source.map f, derived := f entry.derived }

def Outcome.rename (o : Outcome ν) : Outcome ν := { o with updated := o.updated.map (Record.rename f) }

def Request.rename : Request ν → Request ν
  | annotate r => annotate (r.rename f)
  | q => q

def Reply.rename : Reply ν → Reply ν
  | entity result => entity (result.mapError (Error.rename f))
  | added result => added (result.mapError (Error.rename f))
  | outcome result => outcome ((result.map (Outcome.rename f)).mapError (Error.rename f))

end Renaming

namespace Engine

variable {ν : Type}

structure DrawsApart (g : Engine ν) (n : Nat) : Prop where
  nodup : (g.supply.upcoming n).Nodup
  unused : ∀ r ∈ g.store.records, r.id ∉ g.supply.upcoming n

/-- The engines cannot be told apart but for the ids of records and for those in what the history says after
`past`. -/
structure SameUpTo (f : RecordId → RecordId) (past : List (HistoryEntry ν)) (g g' : Engine ν) : Prop where
  config : g'.config = g.config
  model : g'.model = g.model
  store : SameAnswers g'.store (Listing.mk (g.store.records.map (Record.rename f)))
  history : ∃ news, g.history = past ++ news ∧ g'.history = past ++ news.map (HistoryEntry.rename f)

end Engine

end Uncertainty
