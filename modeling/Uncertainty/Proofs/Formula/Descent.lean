import Mathlib.Computability.StateTransition
import Uncertainty.Formula.Descent
import Uncertainty.Proofs.Formula.Exactness
import Uncertainty.Proofs.Formula.Tiling

/-! Turn by turn a formula is read as the parser reads it, and the count of open calls stays within its bound. -/

namespace Uncertainty.Formula

open StateTransition

variable {ν : Type}

namespace Descent

structure IsCounted (q : Descent ν) : Prop where
  depth : q.depth = q.entered
  bounded : q.entered ≤ maxNesting

section Counting

variable {stop least depth : Nat} {waiting : List (OpenCall ν)} {ts : List (Lexeme ν)}

lemma isCounted_onward (hdepth : depth = waiting.length + 1) (hle : depth ≤ maxNesting)
    (r : Except (ExpressionError ν) (Formula ν × List (Lexeme ν))) : (onward least depth waiting r).IsCounted := by
  cases r with
  | error e =>
    have hleft : depth - 1 = waiting.length := by omega
    exact ⟨hleft, Nat.le_trans (Nat.le_of_eq hleft.symm) (Nat.le_trans (Nat.sub_le depth 1) hle)⟩
  | ok x => exact ⟨hdepth, hdepth ▸ hle⟩

lemma isCounted_enter (hdepth : depth = waiting.length + 1) (hle : depth ≤ maxNesting) :
    (enter stop least depth waiting ts).IsCounted := by
  unfold enter
  split
  · exact ⟨hdepth, hdepth ▸ hle⟩
  · exact isCounted_onward hdepth hle _
  · exact isCounted_onward hdepth hle _
  · exact ⟨hdepth, hdepth ▸ hle⟩
  · exact isCounted_onward hdepth hle _
  · exact ⟨hdepth, hdepth ▸ hle⟩
  · exact isCounted_onward hdepth hle _

lemma isCounted_resume (hdepth : depth = waiting.length + 1) (hle : depth ≤ maxNesting) (f : Formula ν)
    (c : OpenCall ν) : (resume stop depth waiting f ts c).IsCounted := by
  unfold resume
  split
  · exact isCounted_onward hdepth hle _
  · exact isCounted_onward hdepth hle _
  · split
    · exact ⟨hdepth, hdepth ▸ hle⟩
    · exact isCounted_onward hdepth hle _
  · exact ⟨hdepth, hdepth ▸ hle⟩

lemma IsCounted.step {q q' : Descent ν} (h : q.IsCounted) (hstep : step stop q = some q') : q'.IsCounted := by
  obtain ⟨hdepth, hle⟩ := h
  unfold Descent.step at hstep
  split at hstep
  · split at hstep <;> obtain rfl := Option.some.inj hstep
    · exact ⟨hdepth, hle⟩
    · exact isCounted_enter (congrArg (· + 1) hdepth) (by dsimp only [entered] at hdepth hle; omega)
  · split at hstep <;> obtain rfl := Option.some.inj hstep
    · exact ⟨congrArg (· - 1) hdepth, Nat.le_of_succ_le hle⟩
    · exact ⟨hdepth, hle⟩
  · obtain rfl := Option.some.inj hstep
    exact ⟨congrArg (· - 1) hdepth, Nat.le_of_succ_le hle⟩
  · obtain rfl := Option.some.inj hstep
    exact isCounted_resume hdepth (hdepth ▸ hle) _ _
  · obtain rfl := Option.some.inj hstep
    exact ⟨congrArg (· - 1) hdepth, Nat.le_of_succ_le hle⟩
  · cases hstep
  · cases hstep

lemma isCounted_start [Number ν] (source : String) : (start source : Descent ν).IsCounted := by
  unfold start
  split <;> exact ⟨rfl, Nat.zero_le _⟩

lemma isCounted_of_reaches {q q' : Descent ν} (h : Reaches (Descent.step stop) q q') (hq : q.IsCounted) :
    q'.IsCounted := by
  induction h with
  | refl => exact hq
  | tail _ hstep ih => exact ih.step hstep

lemma IsCounted.openCalls_le {q : Descent ν} (h : q.IsCounted) (stop : Nat) :
    q.openCalls ≤ maxNesting ∨ q.openCalls = maxNesting + 1 ∧
      ∃ position, Descent.step stop q = some ⟨.failed (.malformed position .tooDeep), q.depth, q.waiting⟩ := by
  obtain ⟨hdepth, hle⟩ := h
  obtain ⟨stage, depth, waiting⟩ := q
  cases stage with
  | asked least ts =>
    change depth = waiting.length at hdepth
    change waiting.length ≤ maxNesting at hle
    change waiting.length + 1 ≤ maxNesting ∨ waiting.length + 1 = maxNesting + 1 ∧ _
    rcases Nat.lt_or_eq_of_le hle with hlt | heq
    · exact .inl hlt
    · exact .inr ⟨congrArg (· + 1) heq, offset stop ts, if_pos (hdepth.trans heq)⟩
  | chain | answered | failed => exact .inl hle

end Counting

section Groups

variable {stop depth p n : Nat}

def openings (p : Nat) : Nat → List (Lexeme ν)
  | 0 => []
  | n + 1 => ⟨.openParen, p, p + 1⟩ :: openings (p + 1) n

lemma tiles_openings [Number ν] (p n : Nat) :
    Token.Tiles p (List.replicate n '(') (openings (ν := ν) p n) (p + n) [] := by
  induction n generalizing p with
  | zero => exact .nil
  | succ n ih =>
    have hlong : Token.longest (['('] ++ List.replicate n '(') = 1 := rfl
    have hrest := ih (p + 1)
    rw [Nat.add_right_comm] at hrest
    exact .token (List.cons_ne_nil _ _) hlong rfl hrest

lemma exists_reaches_openings (least : Nat) (waiting : List (OpenCall ν)) (h : depth + n ≤ maxNesting) :
    ∃ least' waiting', waiting'.length = waiting.length + n ∧ Reaches (Descent.step stop)
      ⟨.asked least (openings p n), depth, waiting⟩ ⟨.asked least' [], depth + n, waiting'⟩ := by
  induction n generalizing p depth least waiting with
  | zero => exact ⟨least, waiting, rfl, .refl⟩
  | succ n ih =>
    have hopen : Descent.step stop ⟨.asked least (openings p (n + 1)), depth, waiting⟩ =
        some ⟨.asked 0 (openings (p + 1) n), depth + 1, ⟨least, .group⟩ :: waiting⟩ := if_neg (by omega)
    obtain ⟨least', waiting', hlength, hreaches⟩ :=
      ih 0 (⟨least, .group⟩ :: waiting) (by omega : depth + 1 + n ≤ maxNesting)
    refine ⟨least', waiting', ?_, .head hopen ?_⟩
    · rw [hlength, List.length_cons, Nat.add_right_comm, Nat.add_assoc]
    · rwa [Nat.add_right_comm, Nat.add_assoc] at hreaches

end Groups

def settled : Except (ExpressionError ν) (Formula ν × List (Lexeme ν)) → Stage ν
  | .ok (f, rest) => .answered f rest
  | .error e => .failed e

section Reading

variable {stop n least depth : Nat} {waiting : List (OpenCall ν)} {ts : List (Lexeme ν)}

lemma length_lt_of_view {α : Type} {bound : Nat} {r : Result ν α bound} {x : α × List (Lexeme ν)}
    (h : view r = .ok x) : x.2.length < bound := by
  cases r with
  | error e => cases h
  | ok p =>
    cases h
    exact p.shorter

/-- Calls for formulas are answered as the parser of so many levels answers them, whatever else is open. -/
def Answers (stop n depth : Nat) : Prop :=
  ∀ (least : Nat) (ts : List (Lexeme ν)) (waiting : List (OpenCall ν)),
    Reaches (step stop) ⟨.asked least ts, depth, waiting⟩ ⟨settled (view (level stop n least ts)), depth, waiting⟩

lemma step_closed (h : Closed least ts) (head : Formula ν) (done : List (Operator × Formula ν)) :
    step stop ⟨.chain least head done ts, depth, waiting⟩ =
      some ⟨.answered (ofChain head done.reverse) ts, depth - 1, waiting⟩ := by
  match ts with
  | ⟨.operator op, start, stop'⟩ :: rest => exact if_pos (h op start stop' rest rfl)
  | [] | ⟨.number _, _, _⟩ :: _ | ⟨.identifier _, _, _⟩ :: _ | ⟨.openParen, _, _⟩ :: _ | ⟨.closeParen, _, _⟩ :: _
  | ⟨.comma, _, _⟩ :: _ => rfl

lemma reaches_resumed (hop : Answers (ν := ν) stop n (depth + 1)) (head : Formula ν)
    (done : List (Operator × Formula ν)) :
    Reaches (step stop) ⟨.chain least head done ts, depth + 1, waiting⟩
      ⟨settled (resumed stop n least head done ts), depth, waiting⟩ := by
  induction hn : ts.length using Nat.strongRecOn generalizing ts done with
  | ind k ih =>
    by_cases hc : Closed least ts
    · rw [resumed_closed hc]
      exact .single (step_closed hc head done)
    · simp only [Closed, not_forall, Nat.not_lt] at hc
      obtain ⟨op, start, stop', rest, rfl, hop'⟩ := hc
      rw [resumed_operator hop']
      have hasked := hop (operandPrecedence op) rest (⟨least, .operand op head done⟩ :: waiting)
      refine .head (if_neg (Nat.not_lt.mpr hop')) (hasked.trans ?_)
      cases hx : view (level stop n (operandPrecedence op) rest) with
      | error e => exact .single rfl
      | ok x =>
        have hshorter : x.2.length < k := by
          have := length_lt_of_view hx
          rw [← hn, List.length_cons]
          omega
        exact .head rfl (ih x.2.length hshorter _ rfl)

lemma reaches_arguments (hop : Answers (ν := ν) stop n (depth + 1)) {name : String} {position bound : Nat}
    (done : List (Formula ν)) (hb : ts.length ≤ bound) :
    Reaches (step stop) ⟨.asked 0 ts, depth + 1, ⟨least, .argument name position done⟩ :: waiting⟩
      (onward least (depth + 1) waiting ((view (arguments (level stop n) done ts hb)).bind fun x =>
        (close stop x.2).bind fun p => (call name position x.1).map fun g => (g, p.rest))) := by
  induction hn : ts.length using Nat.strongRecOn generalizing ts done bound with
  | ind k ih =>
    refine (hop 0 ts (⟨least, .argument name position done⟩ :: waiting)).trans ?_
    rw [arguments_step]
    cases hx : view (level stop n 0 ts) with
    | error e => exact .single rfl
    | ok x =>
      have hshorter := length_lt_of_view hx
      have hresume : step stop ⟨.answered x.1 x.2, depth + 1, ⟨least, .argument name position done⟩ :: waiting⟩ =
          some (resume stop (depth + 1) waiting x.1 x.2 ⟨least, .argument name position done⟩) := rfl
      refine .head hresume ?_
      dsimp only [resume, Except.bind]
      cases hcomma : afterComma? x.2 with
      | some rest =>
        have hlength := length_of_afterComma? hcomma
        exact ih rest.length (by omega) (x.1 :: done) (Nat.le_refl _) rfl
      | none => exact .refl

lemma call_after_close {name : String} {position : Nat}
    (r : Except (ExpressionError ν) (List (Formula ν) × List (Lexeme ν))) :
    (r.bind fun x => (view (close stop x.2)).map fun y => (x.1, y.2)).bind
      (fun x => (call name position x.1).map fun f => (f, x.2)) =
    r.bind fun x => (close stop x.2).bind fun p => (call name position x.1).map fun g => (g, p.rest) := by
  cases r with
  | error e => rfl
  | ok x =>
    change (Except.map _ (view (close stop x.2))).bind _ = (close stop x.2).bind _
    cases close stop x.2 <;> rfl

lemma reaches_signed (hop : Answers (ν := ν) stop n (depth + 1)) (hdepth : depth ≠ maxNesting) :
    Reaches (step stop) ⟨.asked least ts, depth, waiting⟩
      (onward least (depth + 1) waiting (view (signed stop (level stop n) ts))) := by
  have hentered : Reaches (step stop) ⟨.asked least ts, depth, waiting⟩ (enter stop least (depth + 1) waiting ts) :=
    .single (if_neg hdepth)
  refine hentered.trans ?_
  match ts with
  | [] | ⟨.closeParen, _, _⟩ :: _ | ⟨.comma, _, _⟩ :: _ | ⟨.number _, _, _⟩ :: _ => exact .refl
  | ⟨.operator op, _, _⟩ :: rest =>
    cases op with
    | sub =>
      rw [signed_minus]
      refine (hop negationPrecedence rest _).trans ?_
      cases view (level stop n negationPrecedence rest) <;> exact .single rfl
    | add | mul | div | pow => exact .refl
  | ⟨.openParen, _, _⟩ :: rest =>
    rw [signed_paren]
    refine (hop 0 rest _).trans ?_
    cases view (level stop n 0 rest) with
    | error e => exact .single rfl
    | ok x =>
      have hclosed : ((view (close stop x.2)).map fun y => (x.1, y.2)) =
          (close stop x.2).map fun p => (x.1, p.rest) := by
        cases close stop x.2 <;> rfl
      change Reaches _ _ (onward least (depth + 1) waiting ((view (close stop x.2)).map fun y => (x.1, y.2)))
      rw [hclosed]
      exact .single rfl
  | ⟨.identifier name, start, stop'⟩ :: rest =>
    by_cases hopen : ∃ a b us, rest = ⟨.openParen, a, b⟩ :: us
    · obtain ⟨a, b, rest, rfl⟩ := hopen
      rw [signed_call]
      by_cases hclose : ∃ a b us, rest = ⟨.closeParen, a, b⟩ :: us
      · obtain ⟨a, b, rest, rfl⟩ := hclose
        exact .refl
      · simp only [not_exists] at hclose
        have hentered : enter stop least (depth + 1) waiting (⟨.identifier name, start, stop'⟩ ::
            ⟨.openParen, a, b⟩ :: rest) = ⟨.asked 0 rest, depth + 1, ⟨least, .argument name start []⟩ :: waiting⟩ := by
          rw [enter]
          exact hclose
        rw [hentered, callArguments_some hclose, call_after_close]
        exact reaches_arguments hop [] (Nat.le_refl rest.length)
    · simp only [not_exists] at hopen
      have hentered : enter stop least (depth + 1) waiting (⟨.identifier name, start, stop'⟩ :: rest) =
          onward least (depth + 1) waiting (.ok (.named name start, rest)) := by
        rw [enter]
        · exact fun _ _ _ _ _ h => hopen _ _ _ h
        · exact hopen
      rw [signed_named hopen, hentered]

lemma answers_level (h : depth + n = maxNesting) : Answers (ν := ν) stop n depth := by
  induction n generalizing depth with
  | zero => exact fun least ts waiting => .single (if_pos h)
  | succ n ih =>
    intro least ts waiting
    have hop := ih (by omega : depth + 1 + n = maxNesting)
    refine (reaches_signed hop (by omega)).trans ?_
    rw [level_succ]
    cases view (signed stop (level stop n) ts) with
    | error e => exact .refl
    | ok x => exact reaches_resumed hop x.1 []

end Reading

section Sources

variable [Number ν]

lemma exists_end (source : String) : ∃ q : Descent ν, Reaches (step source.utf8ByteSize) (start source) q ∧
    step source.utf8ByteSize q = none ∧ q.outcome? source.utf8ByteSize = some (parse source) ∧ q.openCalls = 0 := by
  rw [start, parse]
  cases (Token.tokenize source : Except (ExpressionError ν) (List (Lexeme ν))) with
  | error e => exact ⟨_, .refl, rfl, rfl, rfl⟩
  | ok ts =>
    refine ⟨_, answers_level (Nat.zero_add maxNesting) 0 ts [], ?_⟩
    dsimp only
    rw [ofTokens_eq]
    cases view (level source.utf8ByteSize maxNesting 0 ts) with
    | error e => exact ⟨rfl, rfl, rfl⟩
    | ok x => exact ⟨rfl, rfl, rfl⟩

end Sources

end Descent

end Uncertainty.Formula
