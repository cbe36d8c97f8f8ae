/-!
Work on a state that may fail. What was written before a failure stays written.
-/
namespace Uncertainty

abbrev Attempt (ε σ : Type) := ExceptT ε (StateM σ)

namespace Attempt

variable {ε σ α : Type}

def start (work : Attempt ε σ α) (s : σ) : Except ε α × σ := (work.run).run s

def step (f : σ → Except ε (α × σ)) : Attempt ε σ α := ExceptT.mk fun s =>
  match f s with
  | .ok (a, s) => (.ok a, s)
  | .error e => (.error e, s)

def look (f : σ → Except ε α) : Attempt ε σ α := ExceptT.mk fun s => (f s, s)

def zoom {τ : Type} (get : σ → τ) (set : τ → σ → σ) (work : Attempt ε τ α) : Attempt ε σ α := ExceptT.mk fun s =>
  let (result, t) := work.start (get s)
  (result, set t s)

def mapError {δ : Type} (f : ε → δ) (work : Attempt ε σ α) : Attempt δ σ α := ExceptT.mk fun s =>
  match work.start s with
  | (.ok a, s) => (.ok a, s)
  | (.error e, s) => (.error (f e), s)

@[simp]
theorem start_pure (a : α) (s : σ) : start (pure a : Attempt ε σ α) s = (.ok a, s) := rfl

@[simp]
theorem start_throw (e : ε) (s : σ) : start (throw e : Attempt ε σ α) s = (.error e, s) := rfl

theorem start_bind {β : Type} (work : Attempt ε σ α) (next : α → Attempt ε σ β) (s : σ) :
    start (work >>= next) s = match start work s with
      | (.ok a, s) => start (next a) s
      | (.error e, s) => (.error e, s) := by
  simp only [start, ExceptT.run_bind, StateT.run_bind]
  rcases StateT.run (ExceptT.run work) s with ⟨r, s⟩
  cases r <;> rfl

@[simp]
theorem start_step (f : σ → Except ε (α × σ)) (s : σ) :
    start (step f) s = match f s with
      | .ok (a, s) => (.ok a, s)
      | .error e => (.error e, s) := rfl

@[simp]
theorem start_look (f : σ → Except ε α) (s : σ) : start (look f) s = (f s, s) := rfl

@[simp]
theorem start_zoom {τ : Type} (get : σ → τ) (set : τ → σ → σ) (work : Attempt ε τ α) (s : σ) :
    start (zoom get set work) s = ((work.start (get s)).1, set (work.start (get s)).2 s) := rfl

end Attempt

end Uncertainty
