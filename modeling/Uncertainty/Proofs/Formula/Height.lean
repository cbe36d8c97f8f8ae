import Uncertainty.Formula.Height
import Uncertainty.Proofs.Formula.Descent
import Uncertainty.Proofs.Formula.Evaluation

namespace Uncertainty.Formula

open StateTransition

variable {ν : Type}

section Trees

variable {f : Formula ν} {op : Operator} {head : Formula ν} {tail : List (Operator × Formula ν)}
  {values : List (Formula ν)} {n : Nat}

lemma height_pos (f : Formula ν) : 0 < f.height := by
  cases f with
  | number | named => exact Nat.one_pos
  | negation | chain | normal | sampled =>
    rw [height]
    omega

lemma heightOfTail_le_iff : heightOfTail tail ≤ n ↔ ∀ step ∈ tail, step.2.height ≤ n := by
  induction tail with
  | nil => exact iff_of_true (Nat.zero_le n) nofun
  | cons step tail ih =>
    obtain ⟨op, operand⟩ := step
    rw [heightOfTail, Nat.max_le, ih, List.forall_mem_cons]

lemma heightOfAll_le_iff : heightOfAll values ≤ n ↔ ∀ value ∈ values, value.height ≤ n := by
  induction values with
  | nil => exact iff_of_true (Nat.zero_le n) nofun
  | cons value values ih => rw [heightOfAll, Nat.max_le, ih, List.forall_mem_cons]

end Trees

section Parsing

def ReadsLow (n : Nat) (operand : OperandParser ν) : Prop :=
  ∀ least ts x, view (operand least ts) = .ok x → x.1.height ≤ n

variable {stop n least bound : Nat} {operand : OperandParser ν} {ts : List (Lexeme ν)}

lemma arguments_height (hop : ReadsLow n operand) {done : List (Formula ν)} (hdone : ∀ f ∈ done, f.height ≤ n)
    {hb : ts.length ≤ bound} {x : List (Formula ν) × List (Lexeme ν)}
    (h : view (arguments operand done ts hb) = .ok x) : ∀ f ∈ x.1, f.height ≤ n := by
  induction hn : ts.length using Nat.strongRecOn generalizing ts done bound with
  | ind k ih =>
    rw [arguments_step] at h
    obtain ⟨y, hy, hrest⟩ := exists_of_bind_ok h
    have hnext : ∀ f ∈ y.1 :: done, f.height ≤ n := List.forall_mem_cons.mpr ⟨hop 0 ts y hy, hdone⟩
    split at hrest
    · have hshorter := Descent.length_lt_of_view hy
      have hlength := length_of_afterComma? ‹afterComma? y.2 = some _›
      exact ih _ (by omega) hnext hrest rfl
    · obtain rfl := Except.ok.inj hrest
      exact fun f hf => hnext f (List.mem_reverse.mp hf)

lemma call_height {name : String} {position : Nat} {values : List (Formula ν)} {f : Formula ν}
    (hvalues : ∀ f ∈ values, f.height ≤ n) (h : call name position values = .ok f) : f.height ≤ 1 + n := by
  unfold call at h
  split at h
  · split at h
    · obtain rfl := Except.ok.inj h
      have hmu := hvalues _ List.mem_cons_self
      have hsigma := hvalues _ (List.mem_cons_of_mem _ List.mem_cons_self)
      rw [height]
      omega
    · cases h
  · split at h
    · split at h
      · cases h
      · obtain rfl := Except.ok.inj h
        rw [height]
        exact Nat.add_le_add_left (heightOfAll_le_iff.mpr hvalues) 1
    · cases h

lemma callArguments_height (hop : ReadsLow n operand) {x : List (Formula ν) × List (Lexeme ν)}
    (h : view (callArguments stop operand ts) = .ok x) : ∀ f ∈ x.1, f.height ≤ n := by
  by_cases hfirst : ∃ a b us, ts = ⟨.closeParen, a, b⟩ :: us
  · obtain ⟨a, b, us, rfl⟩ := hfirst
    obtain rfl := Except.ok.inj h
    exact nofun
  · simp only [not_exists] at hfirst
    rw [callArguments_some hfirst] at h
    obtain ⟨y, hy, hclose⟩ := exists_of_bind_ok h
    have hlow := arguments_height hop (List.forall_mem_nil _) hy
    obtain ⟨z, -, rfl⟩ := Except.map_eq_ok.mp hclose
    exact hlow

lemma signed_height (hop : ReadsLow n operand) {x : Formula ν × List (Lexeme ν)}
    (h : view (signed stop operand ts) = .ok x) : x.1.height ≤ 1 + n := by
  match ts with
  | [] | ⟨.closeParen, _, _⟩ :: _ | ⟨.comma, _, _⟩ :: _ => cases h
  | ⟨.number v, _, _⟩ :: rest =>
    obtain rfl := Except.ok.inj h
    exact Nat.le_add_right 1 n
  | ⟨.operator op, _, _⟩ :: rest =>
    cases op with
    | sub =>
      rw [signed_minus] at h
      obtain ⟨y, hy, hx⟩ := exists_of_bind_ok h
      obtain rfl := Except.ok.inj hx
      exact Nat.add_le_add_left (hop _ _ y hy) 1
    | add | mul | div | pow => cases h
  | ⟨.openParen, _, _⟩ :: rest =>
    rw [signed_paren] at h
    obtain ⟨y, hy, hclose⟩ := exists_of_bind_ok h
    obtain ⟨z, -, rfl⟩ := Except.map_eq_ok.mp hclose
    exact Nat.le_trans (hop _ _ y hy) (Nat.le_add_left n 1)
  | ⟨.identifier name, start, stop'⟩ :: rest =>
    by_cases hopen : ∃ a b us, rest = ⟨.openParen, a, b⟩ :: us
    · obtain ⟨a, b, us, rfl⟩ := hopen
      rw [signed_call] at h
      obtain ⟨y, hy, hcall⟩ := exists_of_bind_ok h
      obtain ⟨f, hf, rfl⟩ := Except.map_eq_ok.mp hcall
      exact call_height (callArguments_height hop hy) hf
    · simp only [not_exists] at hopen
      rw [signed_named hopen] at h
      obtain rfl := Except.ok.inj h
      exact Nat.le_add_right 1 n

lemma exists_of_resumed (hop : ReadsLow (ν := ν) n (level stop bound)) {head : Formula ν}
    {done : List (Operator × Formula ν)} (hdone : ∀ step ∈ done, step.2.height ≤ n) {x : Formula ν × List (Lexeme ν)}
    (h : resumed stop bound least head done ts = .ok x) :
    ∃ tail, x.1 = ofChain head tail ∧ ∀ step ∈ tail, step.2.height ≤ n := by
  induction hn : ts.length using Nat.strongRecOn generalizing ts done with
  | ind k ih =>
    by_cases hc : Closed least ts
    · rw [resumed_closed hc] at h
      obtain rfl := Except.ok.inj h
      exact ⟨done.reverse, rfl, fun step hstep => hdone step (List.mem_reverse.mp hstep)⟩
    · simp only [Closed, not_forall, Nat.not_lt] at hc
      obtain ⟨op, start, stop', rest, rfl, hop'⟩ := hc
      rw [resumed_operator hop'] at h
      obtain ⟨y, hy, hrest⟩ := exists_of_bind_ok h
      have hshorter : y.2.length < k := by
        have := Descent.length_lt_of_view hy
        rw [← hn, List.length_cons]
        omega
      have hnext : ∀ step ∈ (op, y.1) :: done, step.2.height ≤ n := List.forall_mem_cons.mpr ⟨hop _ _ y hy, hdone⟩
      exact ih y.2.length hshorter hnext hrest rfl

/-- A level adds two to the height: one for what holds the operands, and one for the chain that this begins. -/
lemma level_height (levels : Nat) : ReadsLow (ν := ν) (2 * levels - 1) (level stop levels) := by
  induction levels with
  | zero =>
    rintro least ts x ⟨⟩
  | succ levels ih =>
    intro least ts x h
    rw [level_succ] at h
    obtain ⟨y, hy, hx⟩ := exists_of_bind_ok h
    have hhead := signed_height ih hy
    obtain ⟨tail, htail, hsteps⟩ := exists_of_resumed ih (List.forall_mem_nil _) hx
    rw [htail]
    cases tail with
    | nil =>
      change y.1.height ≤ _
      omega
    | cons step tail =>
      have hpos := height_pos step.2
      have hfirst := hsteps step List.mem_cons_self
      have hrest := heightOfTail_le_iff.mpr hsteps
      change height (.chain y.1 (step :: tail)) ≤ _
      rw [height]
      omega

lemma height_le_of_parse [Number ν] {source : String} {f : Formula ν} (h : parse source = .ok f) : f.height ≤ 511 := by
  rw [parse] at h
  split at h
  · cases h
  · rw [ofTokens_eq] at h
    obtain ⟨x, hx, hend⟩ := exists_of_bind_ok h
    split at hend
    · obtain rfl := Except.ok.inj hend
      exact level_height maxNesting 0 _ x hx
    · cases hend

end Parsing

section Evaluating

variable [Number ν] {env : Environment ν} {levels : Nat}

lemma evaluateTail_within {tail : List (Operator × Formula ν)}
    (h : ∀ step ∈ tail, evaluateWithin env levels step.2 = ready (step.2.evaluate env)) (left : Value ν) :
    tail.foldlM (fun left step => do
      let right ← evaluateWithin env levels step.2
      ready (left.combine step.1 right)) left = ready (evaluateTail env left tail) := by
  induction tail generalizing left with
  | nil =>
    rw [evaluateTail]
    rfl
  | cons step tail ih =>
    obtain ⟨hstep, htail⟩ := List.forall_mem_cons.mp h
    obtain ⟨op, operand⟩ := step
    rw [List.foldlM_cons, hstep, evaluateTail]
    cases operand.evaluate env with
    | error e => rfl
    | ok right =>
      change ready (left.combine op right) >>= _ = _
      dsimp only
      cases left.combine op right with
      | error e => rfl
      | ok v => exact ih htail v

lemma evaluateConstants_within {values : List (Formula ν)} {position : Nat} {α : Type}
    (h : ∀ value ∈ values, evaluateWithin env levels value = ready (value.evaluate env)) (done : List ν)
    (k : List ν → Except (ExpressionError ν) α) :
    (do
      let vs ← values.foldlM (fun done value => do
        let v ← evaluateWithin env levels value
        let v ← ready (constantAt position "sampled" v)
        return v :: done) done
      ready (k vs.reverse)) = ready ((evaluateConstants env position done values).bind k) := by
  induction values generalizing done with
  | nil =>
    rw [evaluateConstants]
    rfl
  | cons value values ih =>
    obtain ⟨hvalue, hvalues⟩ := List.forall_mem_cons.mp h
    rw [List.foldlM_cons, hvalue, evaluateConstants]
    cases value.evaluate env with
    | error e => rfl
    | ok v =>
      cases v with
      | expression e => rfl
      | scalar v => exact ih hvalues (v :: done)

lemma evaluateWithin_eq {f : Formula ν} (h : f.height ≤ levels) :
    evaluateWithin env levels f = ready (f.evaluate env) := by
  induction levels generalizing f with
  | zero => exact absurd h (Nat.not_le.mpr (height_pos f))
  | succ levels ih =>
    cases f with
    | number v =>
      rw [evaluateWithin, evaluate]
      rfl
    | named name position => rw [evaluateWithin, evaluate]
    | negation operand =>
      rw [height] at h
      rw [evaluateWithin, evaluate, ih (by omega)]
      cases operand.evaluate env <;> rfl
    | chain head tail =>
      rw [height] at h
      have htail := heightOfTail_le_iff.mp (by omega : heightOfTail tail ≤ levels)
      rw [evaluateWithin, evaluate, ih (by omega)]
      cases head.evaluate env with
      | error e => rfl
      | ok v => exact evaluateTail_within (fun step hstep => ih (htail step hstep)) v
    | normal mu sigma position =>
      rw [height] at h
      rw [evaluateWithin, evaluate, ih (by omega), ih (by omega)]
      cases mu.evaluate env with
      | error e => rfl
      | ok m =>
        cases m with
        | expression e => rfl
        | scalar m =>
          cases sigma.evaluate env with
          | error e => rfl
          | ok s => cases s <;> rfl
    | sampled values position =>
      rw [height] at h
      have hvalues := heightOfAll_le_iff.mp (by omega : heightOfAll values ≤ levels)
      rw [evaluateWithin, evaluate]
      exact evaluateConstants_within (fun value hvalue => ih (hvalues value hvalue)) [] fun vs =>
        leafAt position (Expression.ofSamples vs)

end Evaluating

/-- However long the text is, at every moment of the reading no more than 256 calls are open, but for one that is
refused at once, and the reading comes to an end. A formula that is read is no higher than 511, so that evaluating it
opens no more than 511 calls at once. -/
theorem reading_nests_boundedly [Number ν] (source : String) :
    (∀ q : Descent ν, Reaches (Descent.step source.utf8ByteSize) (.start source) q →
      q.depth = q.entered ∧ (q.openCalls ≤ 256 ∨ q.openCalls = 257 ∧ ∃ position,
        Descent.step source.utf8ByteSize q = some ⟨.failed (.malformed position .tooDeep), q.depth, q.waiting⟩)) ∧
    (∃ q : Descent ν, q ∈ StateTransition.eval (Descent.step source.utf8ByteSize) (.start source) ∧
      q.openCalls = 0 ∧ q.outcome? source.utf8ByteSize = some (parse source)) ∧
    ∀ f : Formula ν, parse source = .ok f →
      f.height ≤ 511 ∧ ∀ env, (f.evaluateWithin env 511).run = some (f.evaluate env) := by
  refine ⟨fun q hq => ?_, ?_, fun f hf => ?_⟩
  · have hcounted := Descent.isCounted_of_reaches hq (Descent.isCounted_start source)
    exact ⟨hcounted.depth, hcounted.openCalls_le source.utf8ByteSize⟩
  · obtain ⟨q, hq, hend, houtcome, hopen⟩ := Descent.exists_end (ν := ν) source
    exact ⟨q, mem_eval.mpr ⟨hq, hend⟩, hopen, houtcome⟩
  · have hheight := height_le_of_parse hf
    exact ⟨hheight, fun env => congrArg ExceptT.run (evaluateWithin_eq hheight)⟩

theorem signed_product_opens_four_calls : ∃ (q : Descent Float) (f : Formula Float),
    Reaches (Descent.step 8) (.start "-(y * x)") q ∧ q.openCalls = 4 ∧ q.depth = 4 ∧ parse "-(y * x)" = .ok f ∧
      f.height ≤ 511 ∧ ∀ env, (f.evaluateWithin env 511).run = some (f.evaluate env) := by
  have htokens : Token.tokenize "-(y * x)" = .ok [⟨.operator .sub, 0, 1⟩, ⟨.openParen, 1, 2⟩, ⟨.identifier "y", 2, 3⟩,
      ⟨.operator .mul, 4, 5⟩, ⟨.identifier "x", 6, 7⟩, (⟨.closeParen, 7, 8⟩ : Lexeme Float)] := by
    cbv
  have hparse : parse "-(y * x)" = .ok (.negation (.chain (.named "y" 2)
      [(.mul, (.named "x" 6 : Formula Float))])) := by
    cbv
  obtain ⟨hcounted, -, hlow⟩ := reading_nests_boundedly (ν := Float) "-(y * x)"
  have hreach : Reaches (Descent.step 8) (.start "-(y * x)") ⟨.chain 21 (.named "x" 6) [] [⟨.closeParen, 7, 8⟩], 4,
      [⟨0, .operand .mul (.named "y" 2) []⟩, ⟨25, .group⟩, (⟨0, .negation⟩ : OpenCall Float)]⟩ := by
    rw [Descent.start, htokens]
    exact .head rfl (.head rfl (.head rfl (.head rfl (.single rfl))))
  exact ⟨_, _, hreach, rfl, (hcounted _ hreach).1, hparse, hlow _ hparse⟩

theorem open_groups_open_257_calls :
    let source := String.ofList (List.replicate 256 '(')
    ∃ q : Descent Float, Reaches (Descent.step source.utf8ByteSize) (.start source) q ∧ ¬ q.openCalls ≤ 256 := by
  intro source
  have htokens : Token.tokenize source = .ok (Descent.openings (ν := Float) 0 256) := by
    refine Token.Tiles.tokenize_eq (q := 256) ?_
    rw [String.toList_ofList]
    exact Descent.tiles_openings 0 256
  obtain ⟨least, waiting, hlength, hreaches⟩ := Descent.exists_reaches_openings (ν := Float) 0 []
    (Nat.le_of_eq (Nat.zero_add maxNesting))
  have hreach : Reaches (Descent.step source.utf8ByteSize) (.start source) ⟨.asked least [], 0 + 256, waiting⟩ := by
    rw [Descent.start, htokens]
    exact hreaches
  have hopen : waiting.length + 1 = 257 := congrArg (· + 1) hlength
  exact ⟨_, hreach, Nat.not_le.mpr (Nat.le_of_eq hopen.symm)⟩

end Uncertainty.Formula
