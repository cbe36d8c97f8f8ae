import Uncertainty.Engine.Config
import Uncertainty.Engine.History
import Uncertainty.Model.Damper
import Uncertainty.Reaction.Basic
import Uncertainty.Store.Indexed
import Uncertainty.Store.Journal
/-!
The engine holds a model and its records, and lets each write of an attribute run through to the derived
attributes. A write that fails anywhere on the way leaves no trace.
-/
namespace Uncertainty

structure Outcome (ν : Type) where
  old : ν
  updated : List (Record ν)
deriving Inhabited

structure Engine (ν : Type) where
  config : Config
  model : Registry ν
  store : Store ν
  history : List (HistoryEntry ν)
  supply : IdSupply
deriving Inhabited

structure Pass (σ ν : Type) where
  work : Workspace σ ν
  history : List (HistoryEntry ν)
  updated : List (Record ν)
deriving Inhabited

namespace Pass

variable {σ ν α : Type}

abbrev Work (σ ν : Type) := Attempt (Error ν) (Pass σ ν)

def onWorkspace (work : Workspace.Work σ ν α) : Work σ ν α :=
  Attempt.zoom Pass.work (fun w pass => { pass with work := w }) work

def readModel (f : Registry ν → Except ModelError α) : Work σ ν α := onWorkspace (Workspace.readModel f)

def setValue (id : EntityId) (a : Attribute) (v : ν) : Work σ ν ν := onWorkspace (Workspace.writeModel (·.set id a v))

def remember (config : Config) (rule : Rule) (change : Change ν) (source : Option RecordId) (derived : Attribute)
    (r : Record ν) : Work σ ν Unit :=
  if config.recordHistory then do
    let mean ← readModel (·.get change.container derived)
    modify fun pass =>
      { pass with history := pass.history ++ [⟨rule, change.parameter, source, r.id, r.expression?, mean⟩] }
  else return ()

def log (config : Config) (rule : Rule) (change : Change ν) (source : Option RecordId) (derived : Attribute)
    (r : Record ν) : Work σ ν Unit := do
  remember config rule change source derived r
  modify fun pass => { pass with updated := pass.updated ++ [r] }

variable [RecordStore σ ν]

def sourceRecord (change : Change ν) : Work σ ν (Option RecordId) := do
  let found ← onWorkspace (Workspace.readStore (RecordStore.find? · change.parameter.name change.affected))
  return found.map (·.id)

variable [Number ν]

def itemsOf (change : Change ν) : Work σ ν Nat :=
  if change.parameter.isCount then return 0
  else readModel (·.multiplicity change.affected change.parameter)

def carryOver (config : Config) (reaction : Reaction) (change : Change ν) (count : Nat) :
    Work σ ν (Option (Record ν)) :=
  match count with
  | 0 => return none
  | 1 => onWorkspace (reaction.handle config.sampling change)
  | n => onWorkspace (reaction.handleMultiple config.sampling change n)

/-- Brings a total up to date: with the recorded expression of the changed mass if there is one, else by
shifting the recorded total, else by shifting its value. -/
def propagateMass (config : Config) (reaction : Reaction) (change : Change ν) (delta : ν) : Work σ ν Unit := do
  let count ← itemsOf change
  match ← carryOver config reaction change count with
  | some r => do
    let source ← sourceRecord change
    log config (if 1 < count then .incrementalBatched else .incremental) change source reaction.derived r
  | none =>
    match ← onWorkspace (reaction.absorb config.sampling change.container delta) with
    | some r => log config .crispAdjustment change none reaction.derived r
    | none => do
      let current ← readModel (·.get change.container reaction.derived)
      let _ ← setValue change.container reaction.derived (current + delta)

def propagateDamping (config : Config) (change : Change ν) : Work σ ν Unit := do
  match ← readModel (·.dampingRatio? change.container) with
  | none => return ()
  | some ratio =>
    let reaction := Reaction.dampingRatio
    match ← onWorkspace (reaction.handle config.sampling change) with
    | some r => do
      let source ← sourceRecord change
      log config .recompute change source reaction.derived r
    | none =>
      match ← onWorkspace (reaction.absorb config.sampling change.container Number.zero) with
      | some r => log config .crispAdjustment change none reaction.derived r
      | none => do
        let _ ← setValue change.container .dampingRatio ratio

def propagateWeight (config : Config) (change : Change ν) (delta : ν) : Work σ ν Unit :=
  if config.propagateWeight then propagateMass config .totalWeight change delta else return ()

def propagateTotals (config : Config) (change : Change ν) (delta : ν) : Work σ ν Unit := do
  let system := change.container
  let before ← readModel (·.get system .totalMass)
  propagateMass config .totalMass change delta
  propagateWeight config change delta
  let after ← readModel (·.get system .totalMass)
  if after == before then return ()
  else propagateDamping config ⟨.totalMass, before, after, system, system⟩

def propagateInput (config : Config) (change : Change ν) : Work σ ν Unit :=
  if change.parameter.isDampingInput then propagateDamping config change else return ()

def writeMass (config : Config) (system id : EntityId) (a : Attribute) (v : ν) : Work σ ν ν := do
  let before ← readModel (·.totalMass system)
  let old ← setValue id a v
  let after ← readModel (·.totalMass system)
  propagateTotals config ⟨a, old, v, id, system⟩ (after - before)
  return old

def write (config : Config) (id : EntityId) (a : Attribute) (v : ν) : Work σ ν ν := do
  let system ← readModel (·.rootOf id)
  if a.isMass || a.isCount then writeMass config system id a v
  else do
    let old ← setValue id a v
    propagateInput config ⟨a, old, v, id, system⟩
    return old

end Pass

namespace Engine

variable {ν : Type}

def ofParts (config : Config) (model : Registry ν) (store : Store ν) (supply : IdSupply) :
    Except (Error ν) (Engine ν) := do
  let config ← config.check.mapError Error.validation
  return ⟨config, model, store, [], supply⟩

def new [IdSource] (config : Config) : Except (Error ν) (Engine ν) := ofParts config Registry.empty Store.empty ⟨0⟩

def attributeValue (g : Engine ν) (id : EntityId) (a : Attribute) : Except (Error ν) ν :=
  (g.model.get id a).mapError Error.model

def checkSupport (g : Engine ν) (a : Attribute) : List EntityId → Except ModelError Unit
  | [] => return ()
  | id :: ids => do
    let kind ← g.model.kind id
    if kind.supports a then g.checkSupport a ids else throw (.attributeNotSupported kind a)

def checkRecord (g : Engine ν) (r : Record ν) : Except (Error ν) Unit :=
  match r.parameter? with
  | none => return ()
  | some name =>
    match Attribute.ofName? name with
    | none => throw (.validation (.unknownAttribute name))
    | some a => (g.checkSupport a r.location.referenced).mapError Error.model

def annotate (g : Engine ν) (r : Record ν) : Except (Error ν) (Bool × Engine ν) := do
  g.checkRecord r
  let (added, store) := g.store.insertIfAbsent r
  return (added, { g with store := store })

def beginPass (g : Engine ν) : Pass (Journal (Store ν) ν) ν :=
  ⟨⟨Journal.ofStore g.store, g.model, g.supply⟩, g.history, []⟩

def commit (g : Engine ν) (pass : Pass (Journal (Store ν) ν) ν) : Engine ν :=
  { g with
    model := pass.work.model
    store := pass.work.store.inner
    history := pass.history
    supply := pass.work.supply }

def rollback (g : Engine ν) (pass : Pass (Journal (Store ν) ν) ν) : Except StoreError Unit × Engine ν :=
  let (undone, store) := pass.work.store.rollback
  (undone, { g with
    store := store
    history := pass.history.take g.history.length
    supply := pass.work.supply })

variable [Number ν]

def addEntity (g : Engine ν) (kind : EntityKind) (container : Option EntityId) :
    Except (Error ν) (EntityId × Engine ν) := do
  let (id, model) ← (g.model.insert kind container).mapError Error.model
  return (id, { g with model := model })

def setAttribute (g : Engine ν) (id : EntityId) (a : Attribute) (v : ν) : Except (Error ν) (Outcome ν) × Engine ν :=
  match (Pass.write g.config id a v).start g.beginPass with
  | (.ok old, pass) => (.ok ⟨old, pass.updated⟩, g.commit pass)
  | (.error e, pass) =>
    match g.rollback pass with
    | (.ok (), g) => (.error e, g)
    | (.error f, g) => (.error (.store f), g)

end Engine

end Uncertainty
