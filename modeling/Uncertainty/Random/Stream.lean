import Uncertainty.Number.Basic
/-!
The seeded random stream behind every estimate: ChaCha with twelve rounds, read as 64-bit numbers.
-/
namespace Uncertainty.Random

structure Row where
  a : UInt32
  b : UInt32
  c : UInt32
  d : UInt32
deriving DecidableEq, Inhabited

namespace Row

def add (x y : Row) : Row := ⟨x.a + y.a, x.b + y.b, x.c + y.c, x.d + y.d⟩

def rotateLeft (v n : UInt32) : UInt32 := v <<< n ||| v >>> (32 - n)

def mix (x y : Row) (n : UInt32) : Row :=
  ⟨rotateLeft (x.a ^^^ y.a) n, rotateLeft (x.b ^^^ y.b) n, rotateLeft (x.c ^^^ y.c) n, rotateLeft (x.d ^^^ y.d) n⟩

def turn (x : Row) : Row := ⟨x.b, x.c, x.d, x.a⟩

def numbers (x : Row) : List UInt64 :=
  [x.a.toUInt64 ||| x.b.toUInt64 <<< 32, x.c.toUInt64 ||| x.d.toUInt64 <<< 32]

end Row

structure Block where
  constants : Row
  keyLow : Row
  keyHigh : Row
  counter : Row
deriving DecidableEq, Inhabited

namespace Block

def columns (m : Block) : Block :=
  let a := m.constants.add m.keyLow
  let d := m.counter.mix a 16
  let c := m.keyHigh.add d
  let b := m.keyLow.mix c 12
  let a := a.add b
  let d := d.mix a 8
  let c := c.add d
  let b := b.mix c 7
  ⟨a, b, c, d⟩

def slant (m : Block) : Block := ⟨m.constants, m.keyLow.turn, m.keyHigh.turn.turn, m.counter.turn.turn.turn⟩

def unslant (m : Block) : Block := ⟨m.constants, m.keyLow.turn.turn.turn, m.keyHigh.turn.turn, m.counter.turn⟩

def doubleRound (m : Block) : Block := m.columns.slant.columns.unslant

def rounds : Nat → Block → Block
  | 0, m => m
  | n + 1, m => rounds n m.doubleRound

def scramble (m : Block) : Block :=
  let r := rounds 6 m
  ⟨r.constants.add m.constants, r.keyLow.add m.keyLow, r.keyHigh.add m.keyHigh, r.counter.add m.counter⟩

def numbers (m : Block) : List UInt64 :=
  m.constants.numbers ++ m.keyLow.numbers ++ m.keyHigh.numbers ++ m.counter.numbers

end Block

/-- The numbers still to come: those left of the current block, then all blocks from `next` on. -/
structure Stream where
  keyLow : Row
  keyHigh : Row
  next : UInt64
  pending : List UInt64
deriving Inhabited

namespace Stream

def block (s : Stream) : Block where
  constants := ⟨0x61707865, 0x3320646e, 0x79622d32, 0x6b206574⟩
  keyLow := s.keyLow
  keyHigh := s.keyHigh
  counter := ⟨s.next.toUInt32, (s.next >>> 32).toUInt32, 0, 0⟩

def spread (state : UInt64) : UInt64 := state * 6364136223846793005 + 11634580027462260723

def keyWord (state : UInt64) : UInt32 :=
  let x := (((state >>> 18) ^^^ state) >>> 27).toUInt32
  let n := (state >>> 59).toUInt32
  x >>> n ||| x <<< ((32 - n) % 32)

def ofSeed (seed : UInt64) : Stream :=
  let s1 := spread seed
  let s2 := spread s1
  let s3 := spread s2
  let s4 := spread s3
  let s5 := spread s4
  let s6 := spread s5
  let s7 := spread s6
  let s8 := spread s7
  { keyLow := ⟨keyWord s1, keyWord s2, keyWord s3, keyWord s4⟩
    keyHigh := ⟨keyWord s5, keyWord s6, keyWord s7, keyWord s8⟩
    next := 0
    pending := [] }

def nextNumber (s : Stream) : UInt64 × Stream :=
  match s.pending with
  | v :: rest => (v, { s with pending := rest })
  | [] =>
    match s.block.scramble.numbers with
    | v :: rest => (v, { s with next := s.next + 1, pending := rest })
    | [] => (0, s)

def uniform {ν : Type} [Number ν] (s : Stream) : ν × Stream :=
  let (v, s) := s.nextNumber
  (Number.ofNat (v >>> 11).toNat / Number.ofNat (Nat.pow 2 53), s)

/-- A standard normal number by the polar form of two uniform ones. The first is taken from `(0, 1]`,
so its logarithm is finite. -/
def standardNormal {ν : Type} [Number ν] (s : Stream) : ν × Stream :=
  let (u, s) : ν × Stream := s.uniform
  let (v, s) : ν × Stream := s.uniform
  let radius := Number.sqrt (-Number.ofNat 2 * Number.log (Number.one - u))
  (radius * Number.cos (Number.ofNat 2 * Number.pi * v), s)

def leadingZeros (n : Nat) : Nat := 63 - n.log2

/-- An index below `n`, each equally likely. A number from the incomplete last round of multiples of `n`
is drawn again; `attempts` bounds that, far beyond what can be reached. -/
def indexBelow (n : Nat) (s : Stream) : Nat × Stream := go (Nat.pow 2 62) s
where
  go : Nat → Stream → Nat × Stream
    | 0, s => (0, s)
    | attempts + 1, s =>
      let (v, s) := s.nextNumber
      let product := v.toNat * n
      if product % UInt64.size ≤ (n * Nat.pow 2 (leadingZeros n) + UInt64.size - 1) % UInt64.size then (product / UInt64.size, s)
      else go attempts s

end Stream

end Uncertainty.Random
