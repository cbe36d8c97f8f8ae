import Mathlib.Computability.StateTransition
import Mathlib.Tactic.Lemma
import Uncertainty.Expression.Trial

/-! A trial on explicit stacks is the recursion over the expression. -/

namespace Uncertainty

open StateTransition

variable {ν : Type} [Number ν]

namespace Sampler

def step : Sampler ν × Random.Stream → Option (Sampler ν × Random.Stream)
  | (⟨_, [], _⟩, _) => none
  | (⟨root, .visit (.literal v) :: tasks, values⟩, s) => some (⟨root, tasks, v :: values⟩, s)
  | (⟨root, .visit (.distribution d) :: tasks, values⟩, s) =>
    let (v, s) := d.draw s
    some (⟨root, tasks, v :: values⟩, s)
  | (⟨root, .visit (.binary op l r) :: tasks, values⟩, s) =>
    some (⟨root, .visit l :: .visit r :: .apply op :: tasks, values⟩, s)
  | (⟨root, .apply op :: tasks, values⟩, s) => some (⟨root, tasks, Expression.applyTop op values⟩, s)

def finish (q : Sampler ν × Random.Stream) : List ν × Random.Stream := Expression.runTasks q.1.tasks q.1.values q.2

lemma finish_of_step {q q' : Sampler ν × Random.Stream} (h : step q = some q') : finish q = finish q' := by
  obtain ⟨⟨root, tasks, values⟩, s⟩ := q
  cases tasks with
  | nil => cases h
  | cons task tasks =>
    rw [finish]
    cases task with
    | apply op =>
      obtain rfl := Option.some.inj h
      rw [Expression.runTasks]
      rfl
    | visit e =>
      cases e with
      | literal v =>
        obtain rfl := Option.some.inj h
        rw [Expression.runTasks]
        rfl
      | distribution d =>
        obtain rfl := Option.some.inj h
        rw [Expression.runTasks]
        rfl
      | binary op l r =>
        obtain rfl := Option.some.inj h
        rw [Expression.runTasks]
        rfl

def HasOperands (p : Sampler ν) : Prop :=
  ∀ op tasks, p.tasks = .apply op :: tasks → ∃ r l values, p.values = r :: l :: values

/-- With so many values waiting, each operator among the tasks will have two operands, and one value remains. -/
def Balanced : List (Expression.Task ν) → Nat → Prop
  | [], n => n = 1
  | .visit _ :: tasks, n => Balanced tasks (n + 1)
  | .apply _ :: tasks, n => ∃ k, n = k + 2 ∧ Balanced tasks (k + 1)

omit [Number ν] in
lemma Balanced.hasOperands {p : Sampler ν} (h : Balanced p.tasks p.values.length) : p.HasOperands := by
  intro op tasks htasks
  rw [htasks] at h
  obtain ⟨k, hk, -⟩ := h
  match p.values, hk with
  | r :: l :: values, _ => exact ⟨r, l, values, rfl⟩

lemma Balanced.step {q q' : Sampler ν × Random.Stream} (h : Balanced q.1.tasks q.1.values.length)
    (hstep : step q = some q') : Balanced q'.1.tasks q'.1.values.length := by
  obtain ⟨⟨root, tasks, values⟩, s⟩ := q
  cases tasks with
  | nil => cases hstep
  | cons task tasks =>
    cases task with
    | apply op =>
      obtain rfl := Option.some.inj hstep
      obtain ⟨r, l, values, rfl⟩ := Balanced.hasOperands h op tasks rfl
      obtain ⟨k, hk, hrest⟩ := h
      obtain rfl : values.length = k := by simpa using hk
      exact hrest
    | visit e =>
      cases e with
      | literal v =>
        obtain rfl := Option.some.inj hstep
        exact h
      | distribution d =>
        obtain rfl := Option.some.inj hstep
        exact h
      | binary op l r =>
        obtain rfl := Option.some.inj hstep
        exact ⟨values.length, rfl, h⟩

lemma balanced_of_reaches {q q' : Sampler ν × Random.Stream} (h : Reaches step q q')
    (hq : Balanced q.1.tasks q.1.values.length) : Balanced q'.1.tasks q'.1.values.length := by
  induction h with
  | refl => exact hq
  | tail _ hstep ih => exact ih.step hstep

lemma finish_of_reaches {q q' : Sampler ν × Random.Stream} (h : Reaches step q q') : finish q = finish q' := by
  induction h with
  | refl => rfl
  | tail _ hstep ih => exact ih.trans (finish_of_step hstep)

lemma reaches_of_visit (e root : Expression ν) (tasks : List (Expression.Task ν)) (values : List ν)
    (s : Random.Stream) :
    Reaches step (⟨root, .visit e :: tasks, values⟩, s) (⟨root, tasks, (e.draw s).1 :: values⟩, (e.draw s).2) := by
  induction e generalizing tasks values s with
  | literal v => exact .single rfl
  | distribution d => exact .single rfl
  | binary op l r ihl ihr =>
    have hleft := ihl (.visit r :: .apply op :: tasks) values s
    have hright := ihr (.apply op :: tasks) ((l.draw s).1 :: values) (l.draw s).2
    have hboth : Reaches step (⟨root, .visit (.binary op l r) :: tasks, values⟩, s)
        (⟨root, .apply op :: tasks, (r.draw (l.draw s).2).1 :: (l.draw s).1 :: values⟩, (r.draw (l.draw s).2).2) :=
      .head rfl (hleft.trans hright)
    exact hboth.tail rfl

lemma finish_restart (p : Sampler ν) (s : Random.Stream) :
    finish (p.restart, s) = ([(p.root.draw s).1], (p.root.draw s).2) := by
  rw [finish, restart, Expression.runTasks_visit, Expression.runTasks]

lemma draw_eq (p : Sampler ν) (s : Random.Stream) :
    p.draw s = ((p.root.draw s).1, .new p.root, (p.root.draw s).2) := by
  have hfinish := finish_restart p s
  rw [finish] at hfinish
  rw [draw, hfinish]
  rfl

theorem trial_is_recursion (p : Sampler ν) (s : Random.Stream) :
    (∀ q, Reaches step (p.restart, s) q → q.1.HasOperands ∧ finish q = finish (p.restart, s)) ∧
      (⟨p.root, [], [(p.root.draw s).1]⟩, (p.root.draw s).2) ∈ StateTransition.eval step (p.restart, s) ∧
      p.draw s = ((p.root.draw s).1, .new p.root, (p.root.draw s).2) := by
  have hend : Reaches step (p.restart, s) (⟨p.root, [], [(p.root.draw s).1]⟩, (p.root.draw s).2) :=
    reaches_of_visit p.root p.root [] [] s
  refine ⟨fun q hq => ⟨?_, (finish_of_reaches hq).symm⟩, mem_eval.mpr ⟨hend, rfl⟩, draw_eq p s⟩
  exact (balanced_of_reaches hq rfl).hasOperands

end Sampler

end Uncertainty
