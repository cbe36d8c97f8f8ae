import Mathlib
import Uncertainty.Formula.Evaluation
import Uncertainty.Proofs.Formula.Spelling

namespace Uncertainty

open Token

variable {ν : Type}

namespace Token

def isIdentifier (name : String) : Bool :=
  match name.toList with
  | c :: cs => isNameStart c && cs.all isNamePart
  | [] => false

lemma longest_identifier {c : Char} {cs suffix : List Char} (hc : isNameStart c = true)
    (hcs : cs.all isNamePart = true) (hb : Breaks suffix) : longest (c :: cs ++ suffix) = (c :: cs).length := by
  have hdigit : isDigit c = false := by
    cases hd : isDigit c with
    | false => rfl
    | true =>
      rw [isNameStart_of_isDigit hd] at hc
      cases hc
  have hnumber : numberLength (c :: cs ++ suffix) = 0 := by simp [numberLength, digitRun, hdigit]
  have hname : nameLength (c :: cs ++ suffix) = 1 + cs.length := by
    have htake : (cs ++ suffix).takeWhile isNamePart = cs := by
      rw [takeWhile_append_stops hb.stops fun _ => id]
      exact List.takeWhile_eq_self_iff.mpr (List.all_eq_true.mp hcs)
    rw [List.cons_append, nameLength, if_pos hc, htake]
  have hsymbol : symbolLength (c :: cs ++ suffix) ≤ 1 := by
    rw [List.cons_append, symbolLength]
    split <;> omega
  rw [longest, hnumber, hname, List.length_cons]
  omega

lemma Spells.identifier [Number ν] {name : String} (h : isIdentifier name = true) :
    Spells name.toList [(.identifier name : Token ν)] := by
  obtain ⟨c, cs, hname, hc, hcs⟩ : ∃ c cs, name.toList = c :: cs ∧ isNameStart c = true ∧ cs.all isNamePart = true := by
    unfold isIdentifier at h
    split at h
    · exact ⟨_, _, ‹_›, by simpa using h⟩
    · cases h
  have hdigit : isDigit c = false := by
    cases hd : isDigit c with
    | false => rfl
    | true =>
      rw [isNameStart_of_isDigit hd] at hc
      cases hc
  have htext : ofText? (c :: cs) = some (.identifier name : Token ν) := by
    rw [ofText?, hdigit, if_neg Bool.false_ne_true, if_pos hc, ← hname, String.ofList_toList]
  intro position done suffix hs
  let stop := position + name.toList.length
  refine ⟨stop, [⟨.identifier name, position, stop⟩], rfl, ?_⟩
  rw [hname, lex_token (List.cons_ne_nil c cs) (longest_identifier hc hcs hs) htext, ← hname]
  rfl

lemma tokenize_of_spells [Number ν] {source : String} {tokens : List (Token ν)} (h : Spells source.toList tokens) :
    ∃ ts : List (Lexeme ν), ts.map (·.token) = tokens ∧ tokenize source = .ok ts := by
  obtain ⟨position, ts, hts, hlex⟩ := h 0 [] [] nofun
  refine ⟨ts, hts, ?_⟩
  rw [List.append_nil, List.append_nil] at hlex
  rw [tokenize, hlex, lex, List.reverse_reverse]

end Token

namespace Formula

variable [Number ν] {x y z : String}

lemma parse_operation (hx : isIdentifier x = true) (hy : isIdentifier y = true) (op : Operator) :
    ∃ i j, (parse (x ++ (" " ++ op.symbol ++ " " ++ y)) : Except (ExpressionError ν) (Formula ν)) =
      .ok (.chain (.named x i) [(op, .named y j)]) := by
  have hspells : Spells (x ++ (" " ++ op.symbol ++ " " ++ y)).toList
      [.identifier x, .operator op, (.identifier y : Token ν)] := by
    have hrest := (Spells.operator (ν := ν) (Spells.identifier hy).blank op).blank
    simpa [Operator.symbol] using (Spells.identifier hx).append hrest (by rintro _ ⟨⟩; exact .inl rfl)
  obtain ⟨ts, hts, htokenize⟩ := tokenize_of_spells hspells
  obtain ⟨⟨_, i, i'⟩, ts₁, rfl, rfl, hts₁⟩ := List.map_eq_cons_iff.mp hts
  obtain ⟨⟨_, o, o'⟩, ts₂, rfl, rfl, hts₂⟩ := List.map_eq_cons_iff.mp hts₁
  obtain ⟨⟨_, j, j'⟩, ts₃, rfl, rfl, hts₃⟩ := List.map_eq_cons_iff.mp hts₂
  obtain rfl := List.map_eq_nil_iff.mp hts₃
  refine ⟨i, j, ?_⟩
  rw [parse, htokenize]
  cases op <;> cbv

lemma parse_operations (hx : isIdentifier x = true) (hy : isIdentifier y = true) (hz : isIdentifier z = true) :
    ∃ i j k, (parse (x ++ (" + " ++ y ++ " - " ++ z)) : Except (ExpressionError ν) (Formula ν)) =
      .ok (.chain (.named x i) [(.add, .named y j), (.sub, .named z k)]) := by
  have hspells : Spells (x ++ (" + " ++ y ++ " - " ++ z)).toList
      [.identifier x, .operator .add, .identifier y, .operator .sub, (.identifier z : Token ν)] := by
    have hlast := (Spells.operator (ν := ν) (Spells.identifier hz).blank .sub).blank
    have hrest := (((Spells.identifier hy).append hlast (by rintro _ ⟨⟩; exact .inl rfl)).blank.operator .add).blank
    simpa [Operator.symbol] using (Spells.identifier hx).append hrest (by rintro _ ⟨⟩; exact .inl rfl)
  obtain ⟨ts, hts, htokenize⟩ := tokenize_of_spells hspells
  obtain ⟨⟨_, i, i'⟩, ts₁, rfl, rfl, hts₁⟩ := List.map_eq_cons_iff.mp hts
  obtain ⟨⟨_, o, o'⟩, ts₂, rfl, rfl, hts₂⟩ := List.map_eq_cons_iff.mp hts₁
  obtain ⟨⟨_, j, j'⟩, ts₃, rfl, rfl, hts₃⟩ := List.map_eq_cons_iff.mp hts₂
  obtain ⟨⟨_, p, p'⟩, ts₄, rfl, rfl, hts₄⟩ := List.map_eq_cons_iff.mp hts₃
  obtain ⟨⟨_, k, k'⟩, ts₅, rfl, rfl, hts₅⟩ := List.map_eq_cons_iff.mp hts₄
  obtain rfl := List.map_eq_nil_iff.mp hts₅
  refine ⟨i, j, k, ?_⟩
  rw [parse, htokenize]
  cbv

end Formula

end Uncertainty
