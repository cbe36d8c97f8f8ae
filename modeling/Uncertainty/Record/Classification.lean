/-!
How a record classifies an uncertainty. Each classification is a short list of names, the first or a marked
one of which is taken where nothing is said.
-/
namespace Uncertainty

class Named (α : Type) where
  all : List α
  name : α → String

def Named.ofName? {α : Type} [Named α] (text : String) : Option α := Named.all.find? (Named.name · == text)

inductive UncertaintyKind where
  | behavior
  | measurement
deriving DecidableEq, Repr, Inhabited

instance : Named UncertaintyKind where
  all := [.behavior, .measurement]
  name
    | .behavior => "behavior_uncertainty"
    | .measurement => "measurement_uncertainty"

inductive Nature where
  | aleatory
  | epistemic
deriving DecidableEq, Repr, Inhabited

instance : Named Nature where
  all := [.aleatory, .epistemic]
  name
    | .aleatory => "aleatory"
    | .epistemic => "epistemic"

inductive Reducibility where
  | unknown
  | irreducible
  | partly
deriving DecidableEq, Repr, Inhabited

instance : Named Reducibility where
  all := [.unknown, .irreducible, .partly]
  name
    | .unknown => "unknown"
    | .irreducible => "irreducible"
    | .partly => "partially_reducible"

inductive Deletion where
  | cascade
  | keep
deriving DecidableEq, Repr, Inhabited

instance : Named Deletion where
  all := [.cascade, .keep]
  name
    | .cascade => "cascade"
    | .keep => "keep"

inductive LocationType where
  | parameter
  | component
  | connector
deriving DecidableEq, Repr, Inhabited

instance : Named LocationType where
  all := [.parameter, .component, .connector]
  name
    | .parameter => "parameter"
    | .component => "component"
    | .connector => "connector"

inductive Representation where
  | continuous
  | discrete
deriving DecidableEq, Repr, Inhabited

instance : Named Representation where
  all := [.continuous, .discrete]
  name
    | .continuous => "continuous"
    | .discrete => "discrete"

inductive Stochasticity where
  | probabilistic
  | deterministic
deriving DecidableEq, Repr, Inhabited

instance : Named Stochasticity where
  all := [.probabilistic, .deterministic]
  name
    | .probabilistic => "probabilistic"
    | .deterministic => "deterministic"

inductive Pattern where
  | persistent
  | transient
deriving DecidableEq, Repr, Inhabited

instance : Named Pattern where
  all := [.persistent, .transient]
  name
    | .persistent => "persistent"
    | .transient => "transient"

inductive Viewpoint where
  | subjective
  | objective
deriving DecidableEq, Repr

instance : Inhabited Viewpoint := ⟨.objective⟩

instance : Named Viewpoint where
  all := [.subjective, .objective]
  name
    | .subjective => "subjective"
    | .objective => "objective"

inductive Source where
  | environment
  | input
  | model
  | expert
deriving DecidableEq, Repr, Inhabited

instance : Named Source where
  all := [.environment, .input, .model, .expert]
  name
    | .environment => "environment"
    | .input => "input"
    | .model => "model"
    | .expert => "expert"

end Uncertainty
