import Formulary.CheckedFormula
import Formulary.Context.Sharing
import Formulary.DepthGuard
import Formulary.Tree.Builder
import Formulary.Walk.Passes
import Formulary.Proofs.Variable.Agreement
import Formulary.Proofs.Semantics.Typing
import Formulary.Proofs.Dependency.Exactness
import Formulary.Proofs.Dependency.Failures
import Formulary.Proofs.Dependency.Collector
import Formulary.Proofs.Dependency.Sorted
import Formulary.Proofs.Evaluation.Preservation
import Formulary.Proofs.Evaluation.Progress
import Formulary.Proofs.Evaluation.Dependence
import Formulary.Proofs.Evaluation.Overloads
import Formulary.Proofs.Evaluation.Laziness
import Formulary.Proofs.Instance.Identity
import Formulary.Proofs.CheckedFormula.Acceptance
import Formulary.Proofs.Semantics.Accumulation
import Formulary.Proofs.Semantics.Blame
import Formulary.Proofs.Variable.Vocabulary
import Formulary.Proofs.Limits
import Formulary.Proofs.Conservation
import Formulary.Proofs.Representation
import Formulary.Proofs.Evaluation.Captured
import Formulary.Proofs.Evaluation.Tolerance
import Formulary.Proofs.Evaluation.Kinds
import Formulary.Proofs.Session
import Formulary.Proofs.Variable.Nearest
import Formulary.Proofs.Variable.Declarations
import Formulary.Proofs.Faults
import Formulary.Proofs.Instance.Strangers
import Formulary.Proofs.Scope.Siblings
import Formulary.Proofs.Library.Reinstallation
import Formulary.Proofs.Library.Unregistered
import Formulary.Proofs.Name.Correspondence
import Formulary.Proofs.Format.Registration
import Formulary.Proofs.Tree.RoundTrip
import Formulary.Proofs.Ambience
import Formulary.Proofs.Library.Consensus
import Formulary.Proofs.Context.Lineage
import Formulary.Proofs.Walk.Passes
