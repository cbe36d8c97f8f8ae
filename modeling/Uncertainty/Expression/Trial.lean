import Uncertainty.Expression.Basic
import Uncertainty.Random.Stream
/-!
Random trials of an expression. Trees may be deep, so a trial works on explicit stacks, which the next trial
uses again; `Expression.draw` says what it computes.
-/
namespace Uncertainty

variable {ν : Type}

namespace Expression

inductive Task (ν : Type) where
  | visit (e : Expression ν)
  | apply (op : Operator)
deriving Inhabited

def work : Expression ν → Nat
  | literal _ => 1
  | distribution _ => 1
  | binary _ l r => 2 + l.work + r.work

def Task.work : Task ν → Nat
  | visit e => e.work
  | apply _ => 1

def Task.pending : List (Task ν) → Nat
  | [] => 0
  | t :: tasks => t.work + Task.pending tasks

end Expression

variable [Number ν]

def Number.undefined : ν := Number.zero / Number.zero

def Distribution.draw : Distribution ν → Random.Stream → ν × Random.Stream
  | normal mu sigma, s =>
    let (z, s) : ν × Random.Stream := s.standardNormal
    (mu + sigma * z, s)
  | sampled values, s =>
    if values.isEmpty then (Number.undefined, s)
    else
      let (i, s) := s.indexBelow values.length
      (values.getD i Number.undefined, s)

namespace Expression

/-- The value of one trial: each occurrence of a distribution draws for itself, the left operand before
the right one. -/
def draw : Expression ν → Random.Stream → ν × Random.Stream
  | literal v, s => (v, s)
  | distribution d, s => d.draw s
  | binary op l r, s =>
    let (a, s) := l.draw s
    let (b, s) := r.draw s
    (op.apply a b, s)

def applyTop (op : Operator) : List ν → List ν
  | r :: l :: values => op.apply l r :: values
  | [r] => [op.apply Number.undefined r]
  | [] => [op.apply Number.undefined Number.undefined]

def runTasks : List (Task ν) → List ν → Random.Stream → List ν × Random.Stream
  | [], values, s => (values, s)
  | .visit (literal v) :: tasks, values, s => runTasks tasks (v :: values) s
  | .visit (distribution d) :: tasks, values, s =>
    let (v, s) := d.draw s
    runTasks tasks (v :: values) s
  | .visit (binary op l r) :: tasks, values, s => runTasks (.visit l :: .visit r :: .apply op :: tasks) values s
  | .apply op :: tasks, values, s => runTasks tasks (applyTop op values) s
termination_by tasks => Task.pending tasks
decreasing_by
  all_goals simp only [Task.pending, Task.work, work]
  all_goals omega

def trial (e : Expression ν) (s : Random.Stream) : ν × Random.Stream :=
  let (values, s) := runTasks [.visit e] [] s
  (values.headD Number.undefined, s)

theorem runTasks_visit (e : Expression ν) (tasks : List (Task ν)) (values : List ν) (s : Random.Stream) :
    runTasks (.visit e :: tasks) values s = runTasks tasks ((e.draw s).1 :: values) (e.draw s).2 := by
  induction e generalizing tasks values s with
  | literal v => simp [runTasks, draw]
  | distribution d => simp [runTasks, draw]
  | binary op l r hl hr => simp [runTasks, draw, hl, hr, applyTop]

end Expression

structure Sampler (ν : Type) where
  root : Expression ν
  tasks : List (Expression.Task ν)
  values : List ν

namespace Sampler

def new {ν : Type} (e : Expression ν) : Sampler ν := ⟨e, [], []⟩

def restart {ν : Type} (p : Sampler ν) : Sampler ν := ⟨p.root, [.visit p.root], []⟩

def draw (p : Sampler ν) (s : Random.Stream) : ν × Sampler ν × Random.Stream :=
  let p := p.restart
  let (values, s) := Expression.runTasks p.tasks p.values s
  (values.headD Number.undefined, ⟨p.root, [], values.tail⟩, s)

end Sampler

end Uncertainty
