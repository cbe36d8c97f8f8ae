namespace Uncertainty

structure RecordId where
  high : UInt64
  low : UInt64
deriving DecidableEq, Repr, Inhabited

namespace RecordId

def hexDigits : Nat → Nat → List Char
  | 0, _ => []
  | width + 1, n => hexDigits width (n / 16) ++ [(Nat.toDigits 16 (n % 16)).headD '0']

def digits (id : RecordId) : List Char := hexDigits 16 id.high.toNat ++ hexDigits 16 id.low.toNat

def text (id : RecordId) : String :=
  let ds := id.digits
  String.ofList (ds.take 8 ++ '-' :: (ds.drop 8).take 4 ++ '-' :: (ds.drop 12).take 4 ++
    '-' :: (ds.drop 16).take 4 ++ '-' :: ds.drop 20)

def digitValue? (c : Char) : Option Nat :=
  if '0' ≤ c && c ≤ '9' then some (c.toNat - '0'.toNat)
  else if 'a' ≤ c && c ≤ 'f' then some (c.toNat - 'a'.toNat + 10)
  else if 'A' ≤ c && c ≤ 'F' then some (c.toNat - 'A'.toNat + 10)
  else none

def hexValue? (ds : List Char) : Option Nat :=
  ds.foldlM (fun n c => do return 16 * n + (← digitValue? c)) 0

def ofDigits? (ds : List Char) : Option RecordId :=
  if ds.length = 32 then do
    return ⟨UInt64.ofNat (← hexValue? (ds.take 16)), UInt64.ofNat (← hexValue? (ds.drop 16))⟩
  else none

def ofGroups? (cs : List Char) : Option RecordId :=
  if cs.length = 36 && [8, 13, 18, 23].all (fun i => cs[i]? == some '-') then
    ofDigits? (cs.take 8 ++ (cs.drop 9).take 4 ++ (cs.drop 14).take 4 ++ (cs.drop 19).take 4 ++ cs.drop 24)
  else none

def scheme : List Char := ['u', 'r', 'n', ':', 'u', 'u', 'i', 'd', ':']

def isNamed (cs : List Char) : Bool := (cs.take scheme.length).map Char.toLower = scheme

def ofText? (text : String) : Option RecordId :=
  match text.toList with
  | '\x7b' :: cs => if cs.getLast? = some '\x7d' then ofGroups? cs.dropLast else none
  | cs =>
    if isNamed cs then ofGroups? (cs.drop scheme.length)
    else if cs.length = 32 then ofDigits? cs
    else ofGroups? cs

def ofPayload (n : Nat) : RecordId where
  high := UInt64.ofNat (n / Nat.pow 2 74 % Nat.pow 2 48 * 0x10000 + 0x4000 + n / Nat.pow 2 62 % 0x1000)
  low := UInt64.ofNat (Nat.pow 2 63 + n % Nat.pow 2 62)

end RecordId

/-- The ids that new records get, in the order in which they are drawn. They may be any. -/
class IdSource where
  nth : Nat → RecordId

def stride : Nat := 0x2A3F84D5B5B54709E3779B97F4A7C15

/-- Multiples of an odd step run through all payloads, so no id comes twice before 2 ^ 122 of them are drawn. -/
instance : IdSource where
  nth n := RecordId.ofPayload ((n + 1) * stride % Nat.pow 2 122)

structure IdSupply where
  [source : IdSource]
  drawn : Nat
deriving Inhabited

namespace IdSupply

variable (s : IdSupply)

def nth (n : Nat) : RecordId := s.source.nth (s.drawn + n)

def skip (n : Nat) : IdSupply := { s with drawn := s.drawn + n }

theorem nth_skip (n i : Nat) : (s.skip n).nth i = s.nth (n + i) := congrArg s.source.nth (Nat.add_assoc _ _ _)

def fresh : RecordId := s.nth 0

def next : IdSupply := s.skip 1

def upcoming (n : Nat) : List RecordId := (List.range n).map s.nth

end IdSupply

end Uncertainty
