import Uncertainty.Json.Basic

namespace Uncertainty.Json

def isBlank (c : Char) : Bool := c = ' ' || c = '\n' || c = '\t' || c = '\r'

def isDigit (c : Char) : Bool := '0' ≤ c && c ≤ '9'

def skipBlank (cs : List Char) : List Char := cs.dropWhile isBlank

def hexValue? (c : Char) : Option Nat :=
  if isDigit c then some (c.toNat - '0'.toNat)
  else if 'a' ≤ c && c ≤ 'f' then some (c.toNat - 'a'.toNat + 10)
  else if 'A' ≤ c && c ≤ 'F' then some (c.toNat - 'A'.toNat + 10)
  else none

def hexUnit? (a b c d : Char) : Option Nat := do
  return 4096 * (← hexValue? a) + 256 * (← hexValue? b) + 16 * (← hexValue? c) + (← hexValue? d)

def unescape? : Char → Option Char
  | '"' => some '"'
  | '\\' => some '\\'
  | '/' => some '/'
  | 'b' => some '\x08'
  | 'f' => some '\x0c'
  | 'n' => some '\n'
  | 'r' => some '\r'
  | 't' => some '\t'
  | _ => none

def isHighSurrogate (n : Nat) : Bool := 0xD800 ≤ n && n < 0xDC00

def isLowSurrogate (n : Nat) : Bool := 0xDC00 ≤ n && n < 0xE000

def lowSurrogate? : List Char → Option Nat
  | '\\' :: 'u' :: a :: b :: c :: d :: _ => (hexUnit? a b c d).filter isLowSurrogate
  | _ => none

def stringRest (done : List Char) (whole : Bool) : List Char → Option (Json × List Char)
  | [] => none
  | '"' :: rest => some (if whole then string (String.ofList done.reverse) else unreadable, rest)
  | '\\' :: 'u' :: a :: b :: c :: d :: rest =>
    match hexUnit? a b c d with
    | none => none
    | some n =>
      if isHighSurrogate n then
        match lowSurrogate? rest with
        | some low => stringRest (Char.ofNat (0x10000 + (n - 0xD800) * 0x400 + (low - 0xDC00)) :: done) whole (rest.drop 6)
        | none => stringRest done false rest
      else if isLowSurrogate n then stringRest done false rest
      else stringRest (Char.ofNat n :: done) whole rest
  | '\\' :: c :: rest =>
    match unescape? c with
    | none => none
    | some c => stringRest (c :: done) whole rest
  | c :: rest => if c.toNat < 0x20 then none else stringRest (c :: done) whole rest
termination_by cs => cs.length
decreasing_by all_goals simp; try omega

def wholeDigits? : List Char → Option (List Char × List Char)
  | '0' :: c :: rest => if isDigit c then none else some (['0'], c :: rest)
  | cs => if (cs.takeWhile isDigit).isEmpty then none else some (cs.span isDigit)

def fractionDigits? : List Char → Option (List Char × List Char)
  | '.' :: cs => if (cs.takeWhile isDigit).isEmpty then none else some ('.' :: cs.takeWhile isDigit, cs.dropWhile isDigit)
  | cs => some ([], cs)

def exponentSign : List Char → List Char
  | '+' :: _ => ['+']
  | '-' :: _ => ['-']
  | _ => []

def exponentDigits? : List Char → Option (List Char × List Char)
  | c :: cs =>
    if c = 'e' || c = 'E' then
      let sign := exponentSign cs
      let rest := cs.drop sign.length
      if (rest.takeWhile isDigit).isEmpty then none
      else some (c :: sign ++ rest.takeWhile isDigit, rest.dropWhile isDigit)
    else some ([], c :: cs)
  | [] => some ([], [])

def signText : List Char → List Char
  | '-' :: _ => ['-']
  | _ => []

def numberRest? (cs : List Char) : Option (Json × List Char) := do
  let sign := signText cs
  let (whole, rest) ← wholeDigits? (cs.drop sign.length)
  let (fraction, rest) ← fractionDigits? rest
  let (exponent, rest) ← exponentDigits? rest
  return (number (String.ofList (sign ++ whole ++ fraction ++ exponent)), rest)

def ofMembers (members : List (Json × Json)) : Json :=
  match members.mapM (fun m => match m.1 with | string name => some (name, m.2) | _ => none) with
  | some members => object members
  | none => unreadable

mutual

/-- A value at the front of the text, with what follows it. Every call reads a character, so a text of `n`
characters needs no more than `n + 1` levels of `fuel`. -/
def valueRest? : Nat → List Char → Option (Json × List Char)
  | 0, _ => none
  | fuel + 1, cs =>
    match skipBlank cs with
    | 'n' :: 'u' :: 'l' :: 'l' :: rest => some (null, rest)
    | 't' :: 'r' :: 'u' :: 'e' :: rest => some (bool true, rest)
    | 'f' :: 'a' :: 'l' :: 's' :: 'e' :: rest => some (bool false, rest)
    | '"' :: rest => stringRest [] true rest
    | '[' :: rest =>
      match skipBlank rest with
      | ']' :: rest => some (array [], rest)
      | rest => itemsRest? fuel [] rest
    | '\x7b' :: rest =>
      match skipBlank rest with
      | '\x7d' :: rest => some (object [], rest)
      | rest => membersRest? fuel [] rest
    | rest => numberRest? rest

def itemsRest? : Nat → List Json → List Char → Option (Json × List Char)
  | 0, _, _ => none
  | fuel + 1, done, cs =>
    match valueRest? fuel cs with
    | none => none
    | some (item, rest) =>
      match skipBlank rest with
      | ',' :: rest => itemsRest? fuel (item :: done) rest
      | ']' :: rest => some (array (item :: done).reverse, rest)
      | _ => none

def membersRest? : Nat → List (Json × Json) → List Char → Option (Json × List Char)
  | 0, _, _ => none
  | fuel + 1, done, cs =>
    match skipBlank cs with
    | '"' :: rest =>
      match stringRest [] true rest with
      | none => none
      | some (name, rest) =>
        match skipBlank rest with
        | ':' :: rest =>
          match valueRest? fuel rest with
          | none => none
          | some (value, rest) =>
            match skipBlank rest with
            | ',' :: rest => membersRest? fuel ((name, value) :: done) rest
            | '\x7d' :: rest => some (ofMembers ((name, value) :: done).reverse, rest)
            | _ => none
        | _ => none
    | _ => none

end

def parse? (text : String) : Option Json :=
  let cs := text.toList
  match valueRest? (cs.length + 1) cs with
  | some (value, rest) => if (skipBlank rest).isEmpty then some value else none
  | none => none

end Uncertainty.Json
