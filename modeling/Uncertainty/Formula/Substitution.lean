import Uncertainty.Formula.Lexer

namespace Uncertainty.Formula

open Token

inductive Piece where
  | named (name : String)
  | verbatim (text : List Char)

def opensCall (cs : List Char) : Bool := (cs.dropWhile isBlank).head? = some '('

def Piece.ofToken {ν : Type} (token : Token ν) (text after : List Char) : Piece :=
  match token with
  | .identifier name => if opensCall after then verbatim text else named name
  | _ => verbatim text

def Piece.name? : Piece → Option String
  | named name => some name
  | verbatim _ => none

def Piece.replaced (texts : String → String) : Piece → List Char
  | named name => '(' :: ((texts name).toList ++ [')'])
  | verbatim text => text

section Pieces

variable (ν : Type) [Number ν]

def pieces : List Char → List Piece
  | [] => []
  | c :: cs =>
    if isBlank c then .verbatim [c] :: pieces cs
    else
      let n := longest (c :: cs)
      if n = 0 then [.verbatim (c :: cs)]
      else match (ofText? ((c :: cs).take n) : Option (Token ν)) with
        | none => [.verbatim (c :: cs)]
        | some token =>
          .ofToken token ((c :: cs).take n) ((c :: cs).drop n) :: pieces ((c :: cs).drop n)
termination_by cs => cs.length
decreasing_by all_goals simp; try omega

def variableNames (source : String) : List String := (pieces ν source.toList).filterMap Piece.name?

def substitute (texts : String → String) (source : String) : String :=
  String.ofList ((pieces ν source.toList).flatMap (Piece.replaced texts))

end Pieces

end Uncertainty.Formula
