import Uncertainty.Model.Damper
import Uncertainty.Reaction.Encoding
import Uncertainty.Record.Draft
import Uncertainty.Store.Coverage
import Uncertainty.Store.Encoding
import Uncertainty.Proofs.Store.Refinement
import Uncertainty.Proofs.Engine.Atomicity
import Uncertainty.Proofs.Engine.Mirror
import Uncertainty.Proofs.Formula.Roundtrip
import Uncertainty.Proofs.Store.Rollback
import Uncertainty.Formula.Grammar
import Uncertainty.Number.Exact
import Uncertainty.Proofs.Engine.Conservation
import Uncertainty.Proofs.Formula.Completeness
import Uncertainty.Proofs.Formula.Exactness
import Uncertainty.Proofs.Engine.Lockstep
import Uncertainty.Proofs.Formula.Meaning
import Uncertainty.Proofs.Formula.Reprinting
import Uncertainty.Proofs.Engine.Snapshots
import Uncertainty.Proofs.Engine.Ratios
import Uncertainty.Proofs.Engine.Overflow
import Uncertainty.Proofs.Engine.Commutation
import Uncertainty.Proofs.Expression.Affine
import Uncertainty.Proofs.Reaction.Placement
import Uncertainty.Proofs.Reaction.Batch
import Uncertainty.Proofs.Reaction.Recomputation
import Uncertainty.Proofs.Expression.Shape
import Uncertainty.Proofs.Reaction.Refusal
import Uncertainty.Proofs.Expression.Comparison
import Uncertainty.Proofs.Formula.Folding
import Uncertainty.Proofs.Formula.Unexpected
import Uncertainty.Proofs.Formula.Substitution
import Uncertainty.Model.Search
import Uncertainty.Proofs.Model.Search
import Uncertainty.Proofs.Model.Order
import Uncertainty.Proofs.Model.Loading
import Uncertainty.Proofs.Model.Deltas
import Uncertainty.Proofs.Store.Coverage
import Uncertainty.Proofs.Expression.Repetition
import Uncertainty.Proofs.Formula.Height
import Uncertainty.Proofs.Formula.Slicing
