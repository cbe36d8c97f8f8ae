import Uncertainty.Expression.Shape
import Uncertainty.Expression.Trial
/-!
Mean and variance of an expression: exact where it is linear without empirical leaves, else estimated from
seeded trials. Every estimate starts the random stream anew.
-/
namespace Uncertainty

structure Sampling where
  samples : Nat
  seed : UInt64
deriving DecidableEq, Repr

namespace Sampling

def standard : Sampling := ⟨10000, 0x5EEDCAFE⟩

instance : Inhabited Sampling := ⟨standard⟩

def isValid (config : Sampling) : Bool := 2 ≤ config.samples

end Sampling

variable {ν : Type} [Number ν]

structure Tally (ν : Type) where
  count : ν
  mean : ν
  squares : ν

namespace Tally

def empty : Tally ν := ⟨Number.zero, Number.zero, Number.zero⟩

def add (t : Tally ν) (x : ν) : Tally ν :=
  let count := t.count + Number.one
  let delta := x - t.mean
  let mean := t.mean + delta / count
  ⟨count, mean, t.squares + delta * (x - mean)⟩

def moments (t : Tally ν) : Moments ν :=
  ⟨t.mean, if Number.less Number.one t.count then t.squares / (t.count - Number.one) else Number.zero⟩

end Tally

namespace Sampler

def collect (p : Sampler ν) : Nat → Random.Stream → List ν → List ν
  | 0, _, done => done.reverse
  | n + 1, s, done =>
    let (v, p, s) := p.draw s
    collect p n s (v :: done)

def tally (p : Sampler ν) : Nat → Random.Stream → Tally ν → Tally ν
  | 0, _, t => t
  | n + 1, s, t =>
    let (v, p, s) := p.draw s
    tally p n s (t.add v)

end Sampler

namespace Expression

def trials (e : Expression ν) (config : Sampling) : List ν :=
  (Sampler.new e).collect config.samples (Random.Stream.ofSeed config.seed) []

def estimate (e : Expression ν) (config : Sampling) : Moments ν :=
  ((Sampler.new e).tally config.samples (Random.Stream.ofSeed config.seed) Tally.empty).moments

def moments (e : Expression ν) (config : Sampling) : Moments ν :=
  match e.exactMoments? with
  | some m => m
  | none => e.estimate config

def mean (e : Expression ν) (config : Sampling) : ν := (e.moments config).mean

def materialize (e : Expression ν) (config : Sampling) : Except (ExpressionError ν) (Expression ν) :=
  let values := e.trials config
  let invalid := (values.filter fun v => !Number.isFinite v).length
  if 0 < invalid then .error (.invalidResult (.draws invalid values.length))
  else match ofSamples values with
    | .ok e => .ok e
    | .error error => .error (.malformed 0 (.leaf error))

end Expression

end Uncertainty
