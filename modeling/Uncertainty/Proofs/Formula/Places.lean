import Mathlib.Tactic.Lemma
import Uncertainty.Formula.Outline

/-! A reader of tokens that keeps only the brackets that are open. It gets through the sentences of the grammar, and
from wherever it gets to a sentence can be completed. -/

namespace Uncertainty.Formula

variable {ν : Type}

inductive Bracket where
  | group
  | call (name : String) (before : Nat)

inductive Awaited where
  | operand (first : Bool)
  | operator (name : Option String)

structure Place where
  awaited : Awaited
  brackets : List Bracket

namespace Place

def start : Place := ⟨.operand false, []⟩

def IsEnd (p : Place) : Prop := ∃ name, p = ⟨.operator name, []⟩

variable (allowed : String → Nat → Bool)

def step : Place → Token ν → Option Place
  | ⟨.operand _, bs⟩, .number _ => some ⟨.operator none, bs⟩
  | ⟨.operand _, bs⟩, .identifier name => some ⟨.operator (some name), bs⟩
  | ⟨.operand _, bs⟩, .operator .sub => some ⟨.operand false, bs⟩
  | ⟨.operand _, bs⟩, .openParen => some ⟨.operand false, .group :: bs⟩
  | ⟨.operand true, .call name _ :: bs⟩, .closeParen => if allowed name 0 then some ⟨.operator none, bs⟩ else none
  | ⟨.operator _, bs⟩, .operator _ => some ⟨.operand false, bs⟩
  | ⟨.operator (some name), bs⟩, .openParen => some ⟨.operand true, .call name 0 :: bs⟩
  | ⟨.operator _, .group :: bs⟩, .closeParen => some ⟨.operator none, bs⟩
  | ⟨.operator _, .call name before :: bs⟩, .closeParen =>
    if allowed name (before + 1) then some ⟨.operator none, bs⟩ else none
  | ⟨.operator _, .call name before :: bs⟩, .comma => some ⟨.operand false, .call name (before + 1) :: bs⟩
  | _, _ => none

def run (p : Place) (ts : List (Token ν)) : Option Place := ts.foldlM (step allowed) p

end Place

variable {allowed : String → Nat → Bool}

namespace Outline

variable {ts us : List (Token ν)} {op : Operator}

lemma power_snoc (h : Outline allowed .factor ts 1) (hr : Outline allowed .factor us 1) :
    Outline allowed .factor (ts ++ .operator .pow :: us) 1 := by
  generalize hc : Category.factor = c, hk : 1 = k at h
  induction h with
  | factor h => exact .power (hk ▸ h) hr
  | negation _ ih => exact .negation (ih rfl rfl)
  | power hl _ _ ih =>
    rw [List.append_assoc, List.cons_append]
    exact .power hl (ih rfl rfl)
  | _ => cases hc

lemma operation_product (h : Outline allowed .product ts 1) (hop : op ≠ .add ∧ op ≠ .sub)
    (hr : Outline allowed .factor us 1) : Outline allowed .product (ts ++ .operator op :: us) 1 := by
  cases op with
  | add => exact absurd rfl hop.1
  | sub => exact absurd rfl hop.2
  | mul => exact .multiplicative h (.inl rfl) hr
  | div => exact .multiplicative h (.inr rfl) hr
  | pow =>
    cases h with
    | product h => exact .product (h.power_snoc hr)
    | multiplicative hl hop' h =>
      rw [List.append_assoc, List.cons_append]
      exact .multiplicative hl hop' (h.power_snoc hr)

lemma operation (h : Outline allowed .sum ts 1) (hr : Outline allowed .factor us 1) :
    Outline allowed .sum (ts ++ .operator op :: us) 1 := by
  by_cases hop : op = .add ∨ op = .sub
  · exact .additive h hop (.product hr)
  · rw [not_or] at hop
    cases h with
    | sum h => exact .sum (h.operation_product hop hr)
    | additive hl hop' h =>
      rw [List.append_assoc, List.cons_append]
      exact .additive hl hop' (h.operation_product hop hr)

lemma sum_of_factor (h : Outline allowed .factor ts 1) : Outline allowed .sum ts 1 := .sum (.product h)

end Outline

section Reached

variable (allowed)

def Filled : List Bracket → List (Token ν) → Prop
  | [], ts => Outline allowed .sum ts 1
  | .group :: bs, ts => ∃ before inside, ts = before ++ .openParen :: inside ∧ Outline allowed .sum inside 1 ∧
    ∀ us, Outline allowed .factor us 1 → Filled bs (before ++ us)
  | .call name k :: bs, ts => ∃ before done inside,
    ts = before ++ .identifier name :: .openParen :: (done ++ inside) ∧ Outline allowed .sum inside 1 ∧
      (∀ us j, Outline allowed .arguments us j → Outline allowed .arguments (done ++ us) (k + j)) ∧
      ∀ us, Outline allowed .factor us 1 → Filled bs (before ++ us)

def Ready (bs : List Bracket) (ts : List (Token ν)) : Prop :=
  ∀ us, Outline allowed .factor us 1 → Filled allowed bs (ts ++ us)

def LeadsTo (ts : List (Token ν)) : Place → Prop
  | ⟨.operand false, bs⟩ => Ready allowed bs ts
  | ⟨.operand true, bs⟩ => ∃ name bs' before, bs = .call name 0 :: bs' ∧
    ts = before ++ [.identifier name, .openParen] ∧ Ready allowed bs' before
  | ⟨.operator none, bs⟩ => Filled allowed bs ts
  | ⟨.operator (some name), bs⟩ => ∃ before, ts = before ++ [.identifier name] ∧ Ready allowed bs before

variable {allowed} {ts us : List (Token ν)} {bs : List Bracket} {name : String} {k : Nat} {p q : Place} {t : Token ν}

lemma Ready.atom (h : Ready allowed bs ts) (hus : Outline allowed .atom us 1) : Filled allowed bs (ts ++ us) :=
  h us (.factor hus)

lemma Ready.minus (h : Ready allowed bs ts) : Ready allowed bs (ts ++ [.operator .sub]) := by
  intro us hus
  rw [List.append_assoc]
  exact h _ (.negation hus)

lemma Ready.group (h : Ready allowed bs ts) : Ready allowed (.group :: bs) (ts ++ [.openParen]) := by
  intro us hus
  exact ⟨ts, us, by rw [List.append_assoc, List.singleton_append], hus.sum_of_factor, h⟩

lemma Ready.call (h : Ready allowed bs ts) :
    Ready allowed (.call name 0 :: bs) (ts ++ [.identifier name, .openParen]) := by
  intro us hus
  refine ⟨ts, [], us, by rw [List.append_assoc]; rfl, hus.sum_of_factor, fun us j hus => ?_, h⟩
  rw [Nat.zero_add]
  exact hus

lemma Filled.operator {op : Operator} (h : Filled allowed bs ts) : Ready allowed bs (ts ++ [.operator op]) := by
  intro us hus
  rw [List.append_assoc, List.singleton_append]
  match bs, h with
  | [], h => exact Outline.operation h hus
  | .group :: bs, ⟨before, inside, hts, hinside, hready⟩ =>
    refine ⟨before, inside ++ .operator op :: us, ?_, hinside.operation hus, hready⟩
    rw [hts, List.append_assoc, List.cons_append]
  | .call name k :: bs, ⟨before, done, inside, hts, hinside, hdone, hready⟩ =>
    refine ⟨before, done, inside ++ .operator op :: us, ?_, hinside.operation hus, hdone, hready⟩
    rw [hts]
    simp only [List.append_assoc, List.cons_append]

lemma Filled.closeGroup (h : Filled allowed (.group :: bs) ts) : Filled allowed bs (ts ++ [.closeParen]) := by
  obtain ⟨before, inside, rfl, hinside, hready⟩ := h
  rw [List.append_assoc, List.cons_append]
  exact hready _ (.factor (.group hinside))

lemma Filled.closeCall (h : Filled allowed (.call name k :: bs) ts) (hname : allowed name (k + 1) = true) :
    Filled allowed bs (ts ++ [.closeParen]) := by
  obtain ⟨before, done, inside, rfl, hinside, hdone, hready⟩ := h
  rw [List.append_assoc, List.cons_append, List.cons_append]
  exact hready _ (.factor (.call (hdone _ _ (.argument hinside)) hname))

lemma Filled.comma (h : Filled allowed (.call name k :: bs) ts) :
    Ready allowed (.call name (k + 1) :: bs) (ts ++ [.comma]) := by
  obtain ⟨before, done, inside, rfl, hinside, hdone, hready⟩ := h
  intro us hus
  refine ⟨before, done ++ inside ++ [.comma], us, ?_, hus.sum_of_factor, fun vs j hvs => ?_, hready⟩
  · simp only [List.append_assoc, List.cons_append]
  · have hmore := hdone _ _ (.comma hinside hvs)
    rw [← Nat.add_assoc] at hmore
    simpa only [List.append_assoc, List.singleton_append] using hmore

lemma LeadsTo.ready {first : Bool} (h : LeadsTo allowed ts ⟨.operand first, bs⟩) : Ready allowed bs ts := by
  cases first with
  | false => exact h
  | true =>
    obtain ⟨name, bs', before, rfl, rfl, hready⟩ := h
    exact hready.call

lemma LeadsTo.filled {o : Option String} (h : LeadsTo allowed ts ⟨.operator o, bs⟩) : Filled allowed bs ts := by
  cases o with
  | none => exact h
  | some name =>
    obtain ⟨before, rfl, hready⟩ := h
    exact hready.atom .named

lemma LeadsTo.step (h : LeadsTo allowed ts p) (hq : p.step allowed t = some q) : LeadsTo allowed (ts ++ [t]) q := by
  unfold Place.step at hq
  split at hq
  case h_1 => cases hq; exact h.ready.atom .number
  case h_2 => cases hq; exact ⟨ts, rfl, h.ready⟩
  case h_3 => cases hq; exact h.ready.minus
  case h_4 => cases hq; exact h.ready.group
  case h_5 name k bs =>
    split at hq
    · cases hq
      obtain ⟨_, _, before, hbs, rfl, hready⟩ := h
      cases hbs
      rw [List.append_assoc]
      exact hready.atom (.bareCall ‹_›)
    · cases hq
  case h_6 => cases hq; exact h.filled.operator
  case h_7 =>
    cases hq
    obtain ⟨before, rfl, hready⟩ := h
    exact ⟨_, _, before, rfl, by rw [List.append_assoc]; rfl, hready⟩
  case h_8 => cases hq; exact h.filled.closeGroup
  case h_9 =>
    split at hq
    · cases hq
      exact h.filled.closeCall ‹_›
    · cases hq
  case h_10 => cases hq; exact h.filled.comma
  case h_11 => cases hq

lemma LeadsTo.run (h : LeadsTo allowed ts p) (hq : p.run allowed us = some q) : LeadsTo allowed (ts ++ us) q := by
  induction us generalizing ts p with
  | nil =>
    obtain rfl := Option.some.inj hq
    rwa [List.append_nil]
  | cons t us ih =>
    obtain ⟨p', hp', hq⟩ := Option.bind_eq_some_iff.mp hq
    rw [List.append_cons]
    exact ih (h.step hp') hq

lemma leadsTo_of_run (h : Place.start.run allowed ts = some p) : LeadsTo allowed ts p := by
  have hstart : LeadsTo allowed ([] : List (Token ν)) .start := fun us hus => hus.sum_of_factor
  simpa only [List.nil_append] using hstart.run h

lemma outline_of_run (h : Place.start.run allowed ts = some p) (hp : p.IsEnd) : Outline allowed .sum ts 1 := by
  obtain ⟨o, rfl⟩ := hp
  exact (leadsTo_of_run h).filled

section Completion

variable (hall : ∀ name k, allowed name k = true)
include hall

lemma Filled.exists_outline (h : Filled allowed bs ts) : ∃ more, Outline allowed .sum (ts ++ more) 1 := by
  induction bs generalizing ts with
  | nil => exact ⟨[], by rwa [List.append_nil]⟩
  | cons b bs ih =>
    have hclosed : Filled allowed bs (ts ++ [.closeParen]) := by
      cases b with
      | group => exact h.closeGroup
      | call name k => exact h.closeCall (hall _ _)
    obtain ⟨more, hmore⟩ := ih hclosed
    exact ⟨.closeParen :: more, by rwa [List.append_assoc] at hmore⟩

lemma LeadsTo.exists_outline (h : LeadsTo allowed ts p) : ∃ more, Outline allowed .sum (ts ++ more) 1 := by
  obtain ⟨awaited, bs⟩ := p
  cases awaited with
  | operand first =>
    have hname : Outline allowed .atom [(.identifier "x" : Token ν)] 1 := .named
    obtain ⟨more, hmore⟩ := (h.ready.atom hname).exists_outline hall
    exact ⟨.identifier "x" :: more, by rwa [List.append_assoc] at hmore⟩
  | operator o => exact h.filled.exists_outline hall

end Completion

end Reached

section Passing

variable {ts us : List (Token ν)} {bs : List Bracket} {p q : Place} {t : Token ν} {o : Option String} {op : Operator}

lemma Place.run_cons : p.run allowed (t :: ts) = (p.step allowed t).bind fun q => q.run allowed ts := rfl

lemma Place.run_append : p.run allowed (ts ++ us) = (p.run allowed ts).bind fun q => q.run allowed us :=
  List.foldlM_append

lemma Place.run_singleton : p.run allowed [t] = p.step allowed t := by
  rw [run_cons]
  cases p.step allowed t <;> rfl

lemma Place.step_operator : (⟨.operator o, bs⟩ : Place).step allowed (.operator op : Token ν) =
    some ⟨.operand false, bs⟩ := by
  cases o <;> cases op <;> rfl

lemma Place.step_closeGroup :
    (⟨.operator o, .group :: bs⟩ : Place).step allowed (.closeParen : Token ν) = some ⟨.operator none, bs⟩ := by
  cases o <;> rfl

lemma Place.step_closeCall {name : String} {k : Nat} (h : allowed name (k + 1) = true) :
    (⟨.operator o, .call name k :: bs⟩ : Place).step allowed (.closeParen : Token ν) = some ⟨.operator none, bs⟩ := by
  cases o <;> exact if_pos h

lemma Place.step_comma {name : String} {k : Nat} :
    (⟨.operator o, .call name k :: bs⟩ : Place).step allowed (.comma : Token ν) =
      some ⟨.operand false, .call name (k + 1) :: bs⟩ := by
  cases o <;> rfl

variable (allowed) in
def Passes : Category → List (Token ν) → Nat → Prop
  | .arguments, ts, count => ∀ first bs name k, ∃ o m, m + 1 = k + count ∧
    (⟨.operand first, .call name k :: bs⟩ : Place).run allowed ts = some ⟨.operator o, .call name m :: bs⟩
  | _, ts, _ => ∀ first bs, ∃ o, (⟨.operand first, bs⟩ : Place).run allowed ts = some ⟨.operator o, bs⟩

lemma passes_operation (hl : ∀ first bs, ∃ o, (⟨.operand first, bs⟩ : Place).run allowed ts = some ⟨.operator o, bs⟩)
    (hr : ∀ first bs, ∃ o, (⟨.operand first, bs⟩ : Place).run allowed us = some ⟨.operator o, bs⟩) (first : Bool)
    (bs : List Bracket) :
    ∃ o, (⟨.operand first, bs⟩ : Place).run allowed (ts ++ .operator op :: us) = some ⟨.operator o, bs⟩ := by
  obtain ⟨o, ho⟩ := hl first bs
  obtain ⟨o', ho'⟩ := hr false bs
  refine ⟨o', ?_⟩
  rw [Place.run_append, ho, Option.bind_some, Place.run_cons, Place.step_operator]
  exact ho'

lemma passes_group (h : ∀ first bs, ∃ o, (⟨.operand first, bs⟩ : Place).run allowed ts = some ⟨.operator o, bs⟩)
    (first : Bool) (bs : List Bracket) :
    (⟨.operand first, bs⟩ : Place).run allowed (.openParen :: (ts ++ [.closeParen])) = some ⟨.operator none, bs⟩ := by
  obtain ⟨o, ho⟩ := h false (.group :: bs)
  change Place.run allowed ⟨.operand false, .group :: bs⟩ (ts ++ [.closeParen]) = _
  rw [Place.run_append, ho, Option.bind_some, Place.run_singleton]
  exact Place.step_closeGroup

lemma Outline.passes {c : Category} {count : Nat} (h : Outline allowed c ts count) : Passes allowed c ts count := by
  induction h with
  | sum _ ih | product _ ih | factor _ ih => exact ih
  | additive _ _ _ ihl ihr | multiplicative _ _ _ ihl ihr | power _ _ ihl ihr => exact passes_operation ihl ihr
  | negation _ ih => exact fun first bs => ih false bs
  | number => exact fun first bs => ⟨none, rfl⟩
  | @named name => exact fun first bs => ⟨some name, rfl⟩
  | group _ ih => exact fun first bs => ⟨none, passes_group ih first bs⟩
  | @call name ts count _ hname ih =>
    intro first bs
    obtain ⟨o, m, hm, ho⟩ := ih true bs name 0
    refine ⟨none, ?_⟩
    change Place.run allowed ⟨.operand true, .call name 0 :: bs⟩ (ts ++ [.closeParen]) = _
    rw [Place.run_append, ho, Option.bind_some, Place.run_singleton]
    rw [Nat.zero_add] at hm
    exact Place.step_closeCall (by rwa [hm])
  | bareCall hname =>
    intro first bs
    refine ⟨none, ?_⟩
    change Place.run allowed ⟨.operand true, .call _ 0 :: bs⟩ [.closeParen] = _
    rw [Place.run_singleton]
    exact if_pos hname
  | argument _ ih =>
    intro first bs name k
    obtain ⟨o, ho⟩ := ih first (.call name k :: bs)
    exact ⟨o, k, rfl, ho⟩
  | @comma ts us count _ _ ih ihs =>
    intro first bs name k
    obtain ⟨o, ho⟩ := ih first (.call name k :: bs)
    obtain ⟨o', m, hm, ho'⟩ := ihs false bs name (k + 1)
    refine ⟨o', m, by omega, ?_⟩
    rw [Place.run_append, ho, Option.bind_some, Place.run_cons, Place.step_comma]
    exact ho'

lemma outline_iff_run : Outline allowed .sum ts 1 ↔ ∃ p : Place, Place.start.run allowed ts = some p ∧ p.IsEnd := by
  constructor
  · intro h
    obtain ⟨o, ho⟩ := h.passes false []
    exact ⟨_, ho, o, rfl⟩
  · rintro ⟨p, hp, hend⟩
    exact outline_of_run hp hend

end Passing

section Sentences

variable {ts : List (Token ν)}

lemma isSentence_iff : IsSentence ts ↔ ∃ p, Place.start.run (fun _ _ => true) ts = some p ∧ p.IsEnd := outline_iff_run

lemma isOpening_iff : IsOpening ts ↔ ∃ p, Place.start.run (fun _ _ => true) ts = some p := by
  constructor
  · rintro ⟨more, hmore⟩
    obtain ⟨q, hq, -⟩ := isSentence_iff.mp hmore
    rw [Place.run_append] at hq
    obtain ⟨p, hp, -⟩ := Option.bind_eq_some_iff.mp hq
    exact ⟨p, hp⟩
  · rintro ⟨p, hp⟩
    exact (leadsTo_of_run hp).exists_outline fun _ _ => rfl

end Sentences

end Uncertainty.Formula
