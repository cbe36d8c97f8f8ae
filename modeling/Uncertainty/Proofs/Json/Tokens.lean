import Mathlib.Data.List.TakeDrop
import Mathlib.Tactic.Lemma
import Uncertainty.Json.Decode

namespace Uncertainty.Json

section Strings

variable {done rest : List Char} {whole : Bool}

lemma hexUnit?_control {n : Nat} (h : n < 32) : hexUnit? '0' '0' (hexDigit (n / 16)) (hexDigit (n % 16)) = some n := by
  have hall : ∀ n < 32, hexUnit? '0' '0' (hexDigit (n / 16)) (hexDigit (n % 16)) = some n := by decide +kernel
  exact hall n h

lemma stringRest_escape (c : Char) :
    stringRest done whole (escape c ++ rest) = stringRest (c :: done) whole rest := by
  unfold escape
  split
  · simp [stringRest, unescape?]
  · simp [stringRest, unescape?]
  · simp [stringRest, unescape?]
  · simp [stringRest, unescape?]
  · simp [stringRest, unescape?]
  · simp [stringRest, unescape?]
  · simp [stringRest, unescape?]
  · split
    · rename_i hc
      have hhigh : isHighSurrogate c.toNat = false := by simp [isHighSurrogate]; omega
      have hlow : isLowSurrogate c.toNat = false := by simp [isLowSurrogate]; omega
      rw [List.cons_append, List.cons_append, List.cons_append, List.cons_append, List.cons_append, List.cons_append,
        List.nil_append, stringRest, hexUnit?_control hc]
      simp [hhigh, hlow]
    · rename_i hquote hbackslash _ _ _ _ _ hc
      rw [List.singleton_append, stringRest, if_neg hc]
      · rintro rfl
        exact hquote rfl
      · rintro a b c' d rest' rfl
        exact fun _ => hbackslash rfl
      · rintro c' rest' rfl
        exact fun _ => hbackslash rfl

lemma stringRest_escapes (cs : List Char) :
    stringRest done whole (cs.flatMap escape ++ rest) = stringRest (cs.reverse ++ done) whole rest := by
  induction cs generalizing done with
  | nil => rfl
  | cons c cs ih =>
    rw [List.flatMap_cons, List.append_assoc, stringRest_escape, ih, List.reverse_cons, List.append_assoc]
    rfl

lemma toList_quote (text : String) : (quote text).toList = '"' :: (text.toList.flatMap escape ++ ['"']) := by
  simp [quote]

lemma stringRest_quote (text : String) :
    stringRest [] true (text.toList.flatMap escape ++ '"' :: rest) = some (string text, rest) := by
  rw [stringRest_escapes, stringRest, if_pos rfl, List.append_nil, List.reverse_reverse, String.ofList_toList]

end Strings

section Numerals

def Ends (cs : List Char) : Prop := ∀ c, cs.head? = some c → isDigit c = false ∧ c ≠ '.' ∧ c ≠ 'e' ∧ c ≠ 'E'

structure IsNumeral (literal : String) : Prop where
  head : ∃ c cs, literal.toList = c :: cs ∧ (isDigit c = true ∨ c = '-')
  reads : ∀ rest, Ends rest → numberRest? (literal.toList ++ rest) = some (number literal, rest)

variable {digits rest : List Char}

lemma isDigit_eq (c : Char) : isDigit c = c.isDigit := by
  rw [isDigit, Char.isDigit]
  rfl

lemma span_digits (hdigits : ∀ c ∈ digits, isDigit c = true) (hrest : Ends rest) :
    (digits ++ rest).takeWhile isDigit = digits ∧ (digits ++ rest).dropWhile isDigit = rest := by
  rw [List.takeWhile_append_of_pos hdigits, List.dropWhile_append_of_pos hdigits]
  cases rest with
  | nil => exact ⟨List.append_nil _, rfl⟩
  | cons c cs =>
    have hc := (hrest c rfl).1
    rw [List.takeWhile_cons_of_neg (by simp [hc]), List.dropWhile_cons_of_neg (by simp [hc]), List.append_nil]
    exact ⟨rfl, rfl⟩

lemma wholeDigits?_append (hne : digits ≠ []) (hdigits : ∀ c ∈ digits, isDigit c = true)
    (hzero : digits.head? = some '0' → digits = ['0']) (hrest : Ends rest) :
    wholeDigits? (digits ++ rest) = some (digits, rest) := by
  obtain ⟨htake, hdrop⟩ := span_digits hdigits hrest
  have hspan : (if ((digits ++ rest).takeWhile isDigit).isEmpty then none else some ((digits ++ rest).span isDigit)) =
      some (digits, rest) := by
    rw [htake, if_neg (by simpa using hne), List.span_eq_takeWhile_dropWhile, htake, hdrop]
  -- A zero that another digit follows is refused before the digits are looked at.
  rw [wholeDigits?.eq_def]
  split
  · rename_i c cs heq
    cases digits with
    | nil => exact absurd rfl hne
    | cons d ds =>
      obtain ⟨rfl, hds⟩ := List.cons.inj heq
      obtain rfl := (List.cons.inj (hzero rfl)).2
      obtain rfl : rest = c :: cs := hds
      rw [if_neg (by simp [(hrest c rfl).1])]
  · exact hspan

lemma isNumeral_digits (hne : digits ≠ []) (hdigits : ∀ c ∈ digits, isDigit c = true)
    (hzero : digits.head? = some '0' → digits = ['0']) : IsNumeral (String.ofList digits) := by
  obtain ⟨d, ds, rfl⟩ := List.exists_cons_of_ne_nil hne
  have hd := hdigits d List.mem_cons_self
  refine ⟨⟨d, ds, String.toList_ofList, .inl hd⟩, fun rest hrest => ?_⟩
  have hsign : signText (d :: ds ++ rest) = [] := by
    rw [List.cons_append, signText]
    rintro _ ⟨⟩
    cases hd
  have hfraction : fractionDigits? rest = some ([], rest) := by
    cases rest with
    | nil => rfl
    | cons c cs =>
      rw [fractionDigits?]
      rintro _ ⟨⟩
      exact (hrest _ rfl).2.1 rfl
  have hexponent : exponentDigits? rest = some ([], rest) := by
    cases rest with
    | nil => rfl
    | cons c cs =>
      have hc := (hrest c rfl).2.2
      rw [exponentDigits?, if_neg (by simp [hc.1, hc.2])]
  rw [String.toList_ofList, numberRest?, hsign]
  simp only [List.length_nil, List.drop_zero, wholeDigits?_append hne hdigits hzero hrest, hfraction, hexponent,
    Option.bind_eq_bind, Option.bind_some, List.nil_append, List.append_nil]
  rfl

lemma head?_toDigits (n : Nat) (h : (Nat.toDigits 10 n).head? = some '0') : Nat.toDigits 10 n = ['0'] := by
  induction n using Nat.strongRecOn with
  | ind n ih =>
    by_cases hn : n < 10
    · rw [Nat.toDigits_of_lt_base hn] at h ⊢
      rw [List.head?_cons] at h
      rw [Option.some.inj h]
    · rw [Nat.toDigits_of_base_le (by omega) (by omega), List.head?_append] at h
      have hrest := ih (n / 10) (by omega) (by simpa [Option.or_of_isSome, Nat.toDigits_ne_nil] using h)
      have hvalue := Nat.ofDigitChars_ten_toDigits (n := n / 10)
      rw [hrest] at hvalue
      change 0 = n / 10 at hvalue
      omega

lemma isNumeral_toString (n : Nat) : IsNumeral (toString n) := by
  rw [Nat.toString_eq_ofList_toDigits]
  refine isNumeral_digits Nat.toDigits_ne_nil (fun c hc => ?_) (head?_toDigits n)
  rw [isDigit_eq]
  exact Nat.isDigit_of_mem_toDigits (by omega) (by omega) hc

lemma natBelow?_ofNat {n limit : Nat} (h : n < limit) : natBelow? limit (ofNat n) = some n := by
  have hall : (Nat.toDigits 10 n).all isDigit = true := by
    rw [List.all_eq_true]
    intro c hc
    rw [isDigit_eq]
    exact Nat.isDigit_of_mem_toDigits (by omega) (by omega) hc
  have hvalue : (Nat.toDigits 10 n).foldl (fun n c => 10 * n + (c.toNat - '0'.toNat)) 0 = n :=
    Nat.ofDigitChars_eq_foldl.symm.trans Nat.ofDigitChars_ten_toDigits
  rw [ofNat, natBelow?, Nat.toString_eq_ofList_toDigits, String.toList_ofList, if_pos hall, hvalue]
  exact if_pos h

end Numerals

end Uncertainty.Json
