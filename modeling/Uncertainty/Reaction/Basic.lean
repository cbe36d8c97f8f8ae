import Uncertainty.Attempt
import Uncertainty.Expression.Estimate
import Uncertainty.Expression.Repeated
import Uncertainty.Formula.Evaluation
import Uncertainty.Store.Basic
/-!
Reactions keep the record of a derived attribute, and the value in the model beside it, in step with a change
elsewhere. An incremental reaction adds the difference that the change makes; a recomputing one evaluates
its formula over what is known now.
-/
namespace Uncertainty

structure Change (ν : Type) where
  parameter : Attribute
  old : ν
  new : ν
  affected : EntityId
  container : EntityId
deriving Inhabited

structure Input where
  name : String
  source : Attribute
deriving DecidableEq, Inhabited

inductive Policy where
  | incremental
  | recompute (formula : String) (inputs : List Input)
deriving DecidableEq, Inhabited

structure Reaction where
  derived : Attribute
  policy : Policy
deriving DecidableEq, Inhabited

structure Workspace (σ ν : Type) where
  store : σ
  model : Registry ν
  supply : IdSupply
deriving Inhabited

namespace Workspace

variable {σ ν α : Type}

abbrev Work (σ ν : Type) := Attempt (Error ν) (Workspace σ ν)

def ofExpression (r : Except (ExpressionError ν) α) : Work σ ν α := liftM (r.mapError Error.expression)

def freshId : Work σ ν RecordId := modifyGet fun w => (w.supply.fresh, { w with supply := w.supply.next })

def readModel (f : Registry ν → Except ModelError α) : Work σ ν α :=
  Attempt.look fun w => (f w.model).mapError Error.model

def writeModel (f : Registry ν → Except ModelError (α × Registry ν)) : Work σ ν α :=
  Attempt.step fun w =>
    match f w.model with
    | .ok (a, model) => .ok (a, { w with model := model })
    | .error e => .error (.model e)

def readStore (f : σ → α) : Work σ ν α := do return f (← get).store

def writeStore (f : σ → Except StoreError σ) : Work σ ν Unit :=
  Attempt.step fun w =>
    match f w.store with
    | .ok store => .ok ((), { w with store := store })
    | .error e => .error (.store e)

end Workspace

namespace Reaction

def dampingFormula : String := "c / (2 * (k * m) ^ 0.5)"

def totalMass : Reaction := ⟨.totalMass, .incremental⟩

def totalWeight : Reaction := ⟨.totalWeight, .incremental⟩

def dampingRatio : Reaction :=
  ⟨.dampingRatio, .recompute dampingFormula [⟨"c", .dampingConstant⟩, ⟨"k", .stiffness⟩, ⟨"m", .totalMass⟩]⟩

variable {σ ν : Type} [Number ν]

def incremental (derived : Attribute) (baseline : Value ν) (new : Expression ν) (old : ν) (count : Nat) :
    Except (ExpressionError ν) (Expression ν) := do
  let name := derived.name
  let env := Environment.empty.bind name baseline
  if count = 1 then
    let env := (env.bind "newValue" (.expression new)).bind "oldValue" (.scalar old)
    return (← env.evaluateText (name ++ " + newValue - oldValue")).toExpression
  else
    let deltaEnv := (Environment.empty.bind "massNew" (.expression new)).bind "massOld" (.scalar old)
    let delta := (← deltaEnv.evaluateText "massNew - massOld").toExpression
    let total ← (delta.repeated count).mapError fun e => .malformed 0 (.leaf e)
    return (← (env.bind "totalDelta" (.expression total)).evaluateText (name ++ " + totalDelta")).toExpression

def shifted (derived : Attribute) (current : Expression ν) (delta : ν) :
    Except (ExpressionError ν) (Expression ν) := do
  let name := derived.name
  let env := (Environment.empty.bind name (.expression current)).bind "delta" (.scalar delta)
  return (← env.evaluateText (name ++ " + delta")).toExpression

variable [RecordStore σ ν]

open Workspace

def recordedValue (a : Attribute) (id : EntityId) (recorded : Option (Record ν)) : Work σ ν (Value ν) :=
  match recorded.bind (·.expression?) with
  | some e => return .expression e
  | none => do return .scalar (← readModel (·.get id a))

def currentValue (container : EntityId) (a : Attribute) : Work σ ν (Value ν) := do
  match ← readModel (·.findHolder container a) with
  | none => do
    let kind ← readModel (·.kind container)
    throw (.model (.attributeNotSupported kind a))
  | some holder => do
    let recorded ← readStore (RecordStore.find? · a.name holder)
    recordedValue a holder recorded

def bindInputs (container : EntityId) : List Input → Environment ν → Work σ ν (Environment ν)
  | [], env => return env
  | input :: rest, env => do
    let value ← currentValue container input.source
    bindInputs container rest (env.bind input.name value)

def recomputed (container : EntityId) (formula : String) (inputs : List Input) : Work σ ν (Expression ν) := do
  let env ← bindInputs container inputs Environment.empty
  return (← ofExpression (env.evaluateText formula)).toExpression

def derivedRecord (derived : Attribute) (container : EntityId) (template : Record ν) (id : RecordId)
    (e : Expression ν) : Record ν :=
  let copied := template.copy id
  ({ copied with location :=
    { copied.location with
      type := .parameter
      parameter := some derived.name
      referenced := [container] } }).withExpression e

def saveExpression (derived : Attribute) (container : EntityId) (existing : Option (Record ν))
    (template : Record ν) (e : Expression ν) : Work σ ν (Record ν) :=
  match existing with
  | some old => do
    let record := old.withExpression e
    writeStore (RecordStore.update record)
    return record
  | none => do
    let record := derivedRecord derived container template (← freshId) e
    writeStore (RecordStore.insert record)
    return record

def writeBack (reaction : Reaction) (config : Sampling) (container : EntityId) (existing : Option (Record ν))
    (template : Record ν) (e : Expression ν) : Work σ ν (Record ν) :=
  let mean := e.mean config
  if Number.isFinite mean then do
    let _ ← readModel (·.get container reaction.derived)
    let record ← saveExpression reaction.derived container existing template e
    let _ ← writeModel (·.set container reaction.derived mean)
    return record
  else throw (.expression (.invalidResult (.estimate reaction.derived container mean)))

def derivedExpression (reaction : Reaction) (change : Change ν) (count : Nat) (existing : Option (Record ν))
    (new : Expression ν) : Work σ ν (Expression ν) :=
  match reaction.policy with
  | .incremental => do
    let base ← recordedValue reaction.derived change.container existing
    ofExpression (incremental reaction.derived base new change.old count)
  | .recompute formula inputs => recomputed change.container formula inputs

def propagate (reaction : Reaction) (config : Sampling) (change : Change ν) (count : Nat) :
    Work σ ν (Option (Record ν)) := do
  match ← readStore (RecordStore.find? · change.parameter.name change.affected) with
  | none => return none
  | some source =>
    match source.expression? with
    | none => return none
    | some new => do
      let existing ← readStore (RecordStore.find? · reaction.derived.name change.container)
      let e ← derivedExpression reaction change count existing new
      return some (← reaction.writeBack config change.container existing source e)

def handle (reaction : Reaction) (config : Sampling) (change : Change ν) : Work σ ν (Option (Record ν)) :=
  reaction.propagate config change 1

def handleMultiple (reaction : Reaction) (config : Sampling) (change : Change ν) (count : Nat) :
    Work σ ν (Option (Record ν)) :=
  if maxRepeatedTerms < count then throw (.validation (.tooManyTerms count))
  else reaction.propagate config change count

def absorb (reaction : Reaction) (config : Sampling) (container : EntityId) (delta : ν) :
    Work σ ν (Option (Record ν)) := do
  match ← readStore (RecordStore.find? · reaction.derived.name container) with
  | none => return none
  | some existing =>
    match reaction.policy with
    | .incremental =>
      match existing.expression? with
      | none => return none
      | some current =>
        if delta == Number.zero then return none
        else do
          let e ← ofExpression (shifted reaction.derived current delta)
          return some (← reaction.writeBack config container (some existing) existing e)
    | .recompute formula inputs => do
      let e ← recomputed container formula inputs
      return some (← reaction.writeBack config container (some existing) existing e)

end Reaction

end Uncertainty
