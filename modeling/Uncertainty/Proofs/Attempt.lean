import Mathlib.Tactic.Lemma
import Uncertainty.Attempt

namespace Uncertainty

variable {ε δ σ τ α β α' β' : Type}

lemma exists_of_bind_ok {x : Except ε α} {f : α → Except ε β} {b : β} (h : (x >>= f) = .ok b) :
    ∃ a, x = .ok a ∧ f a = .ok b := by
  cases x with
  | error e => cases h
  | ok a => exact ⟨a, rfl, h⟩

lemma Except.map_eq_ok {x : Except ε α} {f : α → β} {b : β} :
    x.map f = .ok b ↔ ∃ a, x = .ok a ∧ f a = b := by
  cases x with
  | error e => exact ⟨nofun, nofun⟩
  | ok a =>
    constructor
    · intro h
      exact ⟨a, rfl, Except.ok.inj h⟩
    · rintro ⟨_, ⟨⟩, rfl⟩
      rfl

lemma ok_of_mapError_ok {x : Except ε α} {f : ε → δ} {a : α} (h : x.mapError f = .ok a) : x = .ok a := by
  cases x with
  | error e => cases h
  | ok b => exact congrArg Except.ok (Except.ok.inj h)

inductive Alike (E : ε → δ → Prop) (A : α → β → Prop) : Except ε α → Except δ β → Prop
  | ok {a b} (h : A a b) : Alike E A (.ok a) (.ok b)
  | error {e f} (h : E e f) : Alike E A (.error e) (.error f)

namespace Alike

variable {E : ε → δ → Prop} {A : α → β → Prop} {B : α' → β' → Prop}

lemma mono {E' : ε → δ → Prop} {A' : α → β → Prop} {x : Except ε α} {y : Except δ β} (h : Alike E A x y)
    (hE : ∀ e f, E e f → E' e f) (hA : ∀ a b, A a b → A' a b) : Alike E' A' x y := by
  cases h with
  | ok h => exact .ok (hA _ _ h)
  | error h => exact .error (hE _ _ h)

lemma bind {x : Except ε α} {y : Except δ β} {f : α → Except ε α'} {g : β → Except δ β'} (h : Alike E A x y)
    (hfg : ∀ a b, A a b → Alike E B (f a) (g b)) : Alike E B (x >>= f) (y >>= g) := by
  cases h with
  | ok h => exact hfg _ _ h
  | error h => exact .error h

lemma mapError {ε' δ' : Type} {E' : ε' → δ' → Prop} {f : ε → ε'} {g : δ → δ'} {x : Except ε α} {y : Except δ β}
    (h : Alike E A x y) (hfg : ∀ e d, E e d → E' (f e) (g d)) : Alike E' A (x.mapError f) (y.mapError g) := by
  cases h with
  | ok h => exact .ok h
  | error h => exact .error (hfg _ _ h)

lemma refl {E : ε → ε → Prop} (hE : ∀ e, E e e) (x : Except ε α) : Alike E Eq x x := by
  cases x with
  | ok a => exact .ok rfl
  | error e => exact .error (hE e)

lemma exists_ok {x : Except ε α} {y : Except δ β} (h : Alike E A x y) (hy : ∃ b, y = .ok b) : ∃ a, x = .ok a := by
  obtain ⟨b, rfl⟩ := hy
  cases h with
  | ok _ => exact ⟨_, rfl⟩

end Alike

namespace Attempt

@[simp]
lemma start_liftM (x : Except ε α) (s : σ) : start (liftM x : Attempt ε σ α) s = (x, s) := by
  cases x <;> rfl

lemma start_pure_eq_ok {a b : α} {s t : σ} : start (pure a : Attempt ε σ α) s = (.ok b, t) ↔ a = b ∧ t = s := by
  simp [eq_comm]

lemma start_bind_eq_ok {work : Attempt ε σ α} {next : α → Attempt ε σ β} {s t : σ} {b : β} :
    start (work >>= next) s = (.ok b, t) ↔ ∃ a u, start work s = (.ok a, u) ∧ start (next a) u = (.ok b, t) := by
  rw [start_bind]
  rcases start work s with ⟨e | a, u⟩
  · exact ⟨nofun, fun ⟨_, _, h, _⟩ => nomatch h⟩
  · constructor
    · exact fun h => ⟨a, u, rfl, h⟩
    · rintro ⟨_, _, ⟨⟩, h⟩
      exact h

def Leads (P : σ → Prop) (work : Attempt ε σ α) (Q : α → σ → Prop) : Prop :=
  ∀ s a t, P s → start work s = (.ok a, t) → Q a t

namespace Leads

variable {P P' : σ → Prop} {Q Q' : α → σ → Prop} {R : β → σ → Prop}

lemma done {a : α} (h : ∀ s, P s → Q a s) : Leads P (pure a : Attempt ε σ α) Q := by
  rintro s _ _ hs ⟨⟩
  exact h s hs

lemma fails (e : ε) : Leads P (throw e : Attempt ε σ α) Q := by
  rintro s a t hs ⟨⟩

lemma bind {work : Attempt ε σ α} {next : α → Attempt ε σ β} (hw : Leads P work Q)
    (hn : ∀ a, Leads (Q a) (next a) R) : Leads P (work >>= next) R := by
  intro s b t hs h
  rw [start_bind] at h
  rcases hx : start work s with ⟨a | e, u⟩
  · rw [hx] at h
    cases h
  · rw [hx] at h
    exact hn _ u b t (hw s _ u hs hx) h

lemma mono {work : Attempt ε σ α} (h : Leads P work Q) (hP : ∀ s, P' s → P s) (hQ : ∀ a s, Q a s → Q' a s) :
    Leads P' work Q' :=
  fun s a t hs ht => hQ a t (h s a t (hP s hs) ht)

lemma modifies {f : σ → σ} (h : ∀ s, P s → P' (f s)) : Leads P (modify f : Attempt ε σ Unit) fun _ => P' := by
  rintro s _ _ hs ⟨⟩
  exact h s hs

lemma known {φ : Prop} {work : Attempt ε σ α} (hφ : ∀ s, P s → φ) (h : φ → Leads P work Q) : Leads P work Q :=
  fun s a t hs ht => h (hφ s hs) s a t hs ht

lemma pointwise {work : Attempt ε σ α} (h : ∀ s, P s → Leads (· = s) work Q) : Leads P work Q :=
  fun s a t hs ht => h s hs s a t rfl ht

end Leads

def Reads (work : Attempt ε σ α) : Prop := ∀ s, (start work s).2 = s

def Spares (P : Except ε α → Prop) (work : Attempt ε σ α) (s : σ) : Prop :=
  P (start work s).1 → (start work s).2 = s

namespace Reads

lemma done (a : α) : Reads (pure a : Attempt ε σ α) := fun _ => rfl

lemma fails (e : ε) : Reads (throw e : Attempt ε σ α) := fun _ => rfl

lemma look (f : σ → Except ε α) : Reads (Attempt.look f) := fun _ => rfl

lemma lift (x : Except ε α) : Reads (liftM x : Attempt ε σ α) := fun s => by rw [start_liftM]

variable {work : Attempt ε σ α} {next : α → Attempt ε σ β}

lemma start_bind (hw : Reads work) (s : σ) : start (work >>= next) s = match (start work s).1 with
    | .ok a => start (next a) s
    | .error e => (.error e, s) := by
  have hs := hw s
  rw [Attempt.start_bind]
  rcases hx : start work s with ⟨e | a, t⟩ <;> rw [hx] at hs <;> obtain rfl : t = s := hs <;> rfl

lemma bind (hw : Reads work) (hn : ∀ a, Reads (next a)) : Reads (work >>= next) := by
  intro s
  rw [hw.start_bind]
  rcases (start work s).1 with e | a
  · rfl
  · exact hn a s

lemma then_spares {P : Except ε β → Prop} {s : σ} (hw : Reads work)
    (hn : ∀ a, start work s = (.ok a, s) → Spares P (next a) s) : Spares P (work >>= next) s := by
  have hs := hw s
  unfold Spares
  rw [hw.start_bind]
  rcases hx : start work s with ⟨e | a, u⟩ <;> rw [hx] at hs
  · exact fun _ => rfl
  · obtain rfl : u = s := hs
    exact hn a hx

lemma spares {P : Except ε α → Prop} (hw : Reads work) (s : σ) : Spares P work s := fun _ => hw s

end Reads

class Sparing (R : Nat → σ → τ → Prop) : Prop where
  spare : ∀ {j s t}, R (j + 1) s t → R j s t

/-- Work on states that stay related while a budget is used up: from states related with `k` to spare, both
end with related outcomes in states that are still related. -/
def Sim (R : Nat → σ → τ → Prop) (E : ε → δ → Prop) (k : Nat) (A : α → β → Prop) (work : Attempt ε σ α)
    (work' : Attempt δ τ β) : Prop :=
  ∀ j s t, R (j + k) s t → Alike E A (start work s).1 (start work' t).1 ∧ R j (start work s).2 (start work' t).2

namespace Sim

variable {R : Nat → σ → τ → Prop} {E : ε → δ → Prop} {k k₁ k₂ : Nat} {A : α → β → Prop} {B : α' → β' → Prop}

lemma look {f : σ → Except ε α} {g : τ → Except δ β} (h : ∀ j s t, R j s t → Alike E A (f s) (g t)) :
    Sim R E 0 A (Attempt.look f) (Attempt.look g) :=
  fun j s t hR => ⟨h j s t hR, hR⟩

lemma lift {x : Except ε α} {y : Except δ β} (h : Alike E A x y) : Sim R E 0 A (liftM x) (liftM y) := by
  intro j s t hR
  rw [start_liftM, start_liftM]
  exact ⟨h, hR⟩

lemma step {f : σ → Except ε (α × σ)} {g : τ → Except δ (β × τ)}
    (h : ∀ j s t, R j s t → Alike E (fun x y => A x.1 y.1 ∧ R j x.2 y.2) (f s) (g t)) :
    Sim R E 0 A (Attempt.step f) (Attempt.step g) := by
  intro j s t hR
  rw [start_step, start_step]
  have hfg := h j s t hR
  cases hf : f s <;> cases hg : g t <;> rw [hf, hg] at hfg <;> cases hfg
  case error.error.error he => exact ⟨.error he, hR⟩
  case ok.ok.ok h => exact ⟨.ok h.1, h.2⟩

lemma modifies {f : σ → σ} {g : τ → τ} (h : ∀ j s t, R j s t → R j (f s) (g t)) :
    Sim R E 0 Eq (modify f : Attempt ε σ Unit) (modify g : Attempt δ τ Unit) :=
  fun j s t hR => ⟨.ok rfl, h j s t hR⟩

variable [Sparing R]

lemma le_of_spare {j k : Nat} (h : j ≤ k) {s : σ} {t : τ} (hk : R k s t) : R j s t := by
  induction h with
  | refl => exact hk
  | step _ ih => exact ih (Sparing.spare hk)

lemma spare {work : Attempt ε σ α} {work' : Attempt δ τ β} (h : Sim R E k₁ A work work') (hk : k₁ ≤ k₂) :
    Sim R E k₂ A work work' :=
  fun j s t ht => h j s t (le_of_spare (Nat.add_le_add_left hk j) ht)

lemma done {a : α} {b : β} (h : A a b) : Sim R E k A (pure a) (pure b) :=
  fun j _ _ hR => ⟨.ok h, le_of_spare (Nat.le_add_right j k) hR⟩

lemma fails {e : ε} {f : δ} (h : E e f) : Sim R E k A (throw e) (throw f) :=
  fun j _ _ hR => ⟨.error h, le_of_spare (Nat.le_add_right j k) hR⟩

section Bind

variable {work : Attempt ε σ α} {work' : Attempt δ τ β} {next : α → Attempt ε σ α'} {next' : β → Attempt δ τ β'}

lemma add (hw : Sim R E k₁ A work work') (hn : ∀ a b, A a b → Sim R E k₂ B (next a) (next' b)) :
    Sim R E (k₁ + k₂) B (work >>= next) (work' >>= next') := by
  intro j s t h
  rw [start_bind, start_bind]
  have hs := hw (j + k₂) s t (by rwa [Nat.add_assoc, Nat.add_comm k₂])
  revert hs
  rcases start work s with ⟨x, s⟩
  rcases start work' t with ⟨y, t⟩
  rintro ⟨h, ht⟩
  cases h with
  | ok hab => exact hn _ _ hab j s t ht
  | error he => exact ⟨.error he, le_of_spare (Nat.le_add_right j k₂) ht⟩

-- The first piece uses the whole budget, or leaves it all to the rest.
lemma bind (hw : Sim R E k A work work') (hn : ∀ a b, A a b → Sim R E 0 B (next a) (next' b)) :
    Sim R E k B (work >>= next) (work' >>= next') :=
  hw.add hn

lemma before (hw : Sim R E 0 A work work') (hn : ∀ a b, A a b → Sim R E k B (next a) (next' b)) :
    Sim R E k B (work >>= next) (work' >>= next') := by
  have h := hw.add hn
  rwa [Nat.zero_add] at h

end Bind

end Sim

def SimAt (R : Nat → σ → τ → Prop) (E : ε → δ → Prop) (k : Nat) (A : α → β → Prop) (work : Attempt ε σ α)
    (work' : Attempt δ τ β) (s : σ) (t : τ) : Prop :=
  ∀ j, R (j + k) s t → Alike E A (start work s).1 (start work' t).1 ∧ R j (start work s).2 (start work' t).2

section SimAt

variable {R : Nat → σ → τ → Prop} {E : ε → δ → Prop} {k : Nat} {A : α → β → Prop} {B : α' → β' → Prop}
  {work : Attempt ε σ α} {work' : Attempt δ τ β} {next : α → Attempt ε σ α'} {next' : β → Attempt δ τ β'}
  {s : σ} {t : τ}

lemma SimAt.sim (h : ∀ s t, SimAt R E k A work work' s t) : Sim R E k A work work' := fun j s t => h s t j

lemma Sim.at (h : Sim R E k A work work') (s : σ) (t : τ) : SimAt R E k A work work' s t := fun j => h j s t

lemma SimAt.bind (hw : SimAt R E k A work work' s t) (hn : ∀ a b, A a b → Sim R E 0 B (next a) (next' b)) :
    SimAt R E k B (work >>= next) (work' >>= next') s t := by
  intro j h
  rw [start_bind, start_bind]
  have hs := hw j h
  revert hs
  rcases start work s with ⟨x, s⟩
  rcases start work' t with ⟨y, t⟩
  rintro ⟨h, ht⟩
  cases h with
  | ok hab => exact hn _ _ hab j s t ht
  | error he => exact ⟨.error he, ht⟩

section Spare

variable [Sparing R]

lemma SimAt.spare {k₁ k₂ : Nat} (h : SimAt R E k₁ A work work' s t) (hk : k₁ ≤ k₂) : SimAt R E k₂ A work work' s t :=
  fun j ht => h j (Sim.le_of_spare (Nat.add_le_add_left hk j) ht)

lemma SimAt.done {a : α} {b : β} (h : A a b) : SimAt R E k A (pure a) (pure b) s t := (Sim.done h).at s t

lemma SimAt.fails {e : ε} {f : δ} (h : E e f) : SimAt R E k A (throw e) (throw f) s t := (Sim.fails h).at s t

end Spare

lemma Sim.reading [Sparing R] (hw : Sim R E 0 A work work') (hr : Reads work) (hr' : Reads work')
    (hn : ∀ a b, A a b → start work s = (.ok a, s) → start work' t = (.ok b, t) →
      SimAt R E k B (next a) (next' b) s t) :
    SimAt R E k B (work >>= next) (work' >>= next') s t := by
  intro j h
  rw [hr.start_bind, hr'.start_bind]
  have hs := (hw (j + k) s t h).1
  have hsame := hr s
  have hsame' := hr' t
  rcases hx : start work s with ⟨x, u⟩
  rcases hy : start work' t with ⟨y, u'⟩
  rw [hx] at hs hsame
  rw [hy] at hs hsame'
  obtain rfl : u = s := hsame
  obtain rfl : u' = t := hsame'
  cases hs with
  | ok hab => exact hn _ _ hab hx hy j h
  | error he => exact ⟨.error he, Sim.le_of_spare (Nat.le_add_right j k) h⟩

end SimAt

end Attempt

end Uncertainty
