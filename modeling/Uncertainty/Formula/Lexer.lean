import Uncertainty.Expression.Error

namespace Uncertainty

namespace Token

def isBlank (c : Char) : Bool := c = ' ' || c = '\t' || c = '\r' || c = '\n'

def isDigit (c : Char) : Bool := '0' ≤ c && c ≤ '9'

def isNameStart (c : Char) : Bool := 'A' ≤ c && c ≤ 'Z' || 'a' ≤ c && c ≤ 'z' || c = '_'

def isNamePart (c : Char) : Bool := isNameStart c || isDigit c

def digitRun (cs : List Char) : Nat := (cs.takeWhile isDigit).length

def fractionLength : List Char → Nat
  | '.' :: cs => if digitRun cs = 0 then 0 else 1 + digitRun cs
  | _ => 0

def signLength : List Char → Nat
  | '+' :: _ => 1
  | '-' :: _ => 1
  | _ => 0

def isExponentMark (c : Char) : Bool := c = 'e' || c = 'E'

def exponentLength : List Char → Nat
  | c :: cs =>
    if isExponentMark c then
      let n := digitRun (cs.drop (signLength cs))
      if n = 0 then 0 else 1 + signLength cs + n
    else 0
  | [] => 0

def numberLength (cs : List Char) : Nat :=
  let n := digitRun cs
  if n = 0 then 0
  else
    let m := n + fractionLength (cs.drop n)
    m + exponentLength (cs.drop m)

def nameLength : List Char → Nat
  | c :: cs => if isNameStart c then 1 + (cs.takeWhile isNamePart).length else 0
  | [] => 0

variable {ν : Type} [Number ν]

def ofChar? : Char → Option (Token ν)
  | '(' => some openParen
  | ')' => some closeParen
  | ',' => some comma
  | c => (Operator.ofChar? c).map operator

def symbolLength : List Char → Nat
  | c :: _ => if c = '(' || c = ')' || c = ',' || (Operator.ofChar? c).isSome then 1 else 0
  | [] => 0

def longest (cs : List Char) : Nat := max (numberLength cs) (max (nameLength cs) (symbolLength cs))

theorem takeWhile_length_le (p : Char → Bool) (cs : List Char) : (cs.takeWhile p).length ≤ cs.length :=
  (List.takeWhile_sublist p).length_le

def digitsValue (cs : List Char) : Nat := cs.foldl (fun n c => 10 * n + (c.toNat - '0'.toNat)) 0

def exponentValue : List Char → Int
  | '+' :: cs => digitsValue cs
  | '-' :: cs => -digitsValue cs
  | cs => digitsValue cs

def numberValue (text : List Char) : ν :=
  let significand := text.takeWhile fun c => !isExponentMark c
  let exponent := exponentValue ((text.dropWhile fun c => !isExponentMark c).drop 1)
  let whole := significand.takeWhile isDigit
  let fraction := (significand.dropWhile isDigit).drop 1
  Number.ofDecimal (digitsValue (whole ++ fraction)) (exponent - fraction.length)

def ofText? : List Char → Option (Token ν)
  | [] => none
  | c :: cs =>
    if isDigit c then
      let v : ν := numberValue (c :: cs)
      if Number.isFinite v then some (number v) else none
    else if isNameStart c then some (identifier (String.ofList (c :: cs)))
    else ofChar? c

/-- Reads on at byte offset `position`; `done` holds the tokens so far, newest first. Token texts are
ASCII, so their length is their number of bytes. -/
def lex (position : Nat) (done : List (Lexeme ν)) : List Char → Except (ExpressionError ν) (List (Lexeme ν))
  | [] => .ok done.reverse
  | c :: cs =>
    if isBlank c then lex (position + 1) done cs
    else
      let n := longest (c :: cs)
      if n = 0 then .error (.malformed position (.unknownInput (String.singleton c)))
      else match ofText? ((c :: cs).take n) with
        | none => .error (.malformed position (.unknownInput (String.ofList ((c :: cs).take n))))
        | some token => lex (position + n) (⟨token, position, position + n⟩ :: done) ((c :: cs).drop n)
termination_by cs => cs.length
decreasing_by all_goals simp; try omega

def tokenize (source : String) : Except (ExpressionError ν) (List (Lexeme ν)) := lex 0 [] source.toList

end Token

end Uncertainty
