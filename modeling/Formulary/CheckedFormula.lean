import Formulary.Workspace
/-!
# Checked formulas

A formula that was checked in a scope can be worked out for the instances of
that scope, as often as wanted, and is refused for any other instance.
-/

namespace Formulary

/-- A formula, and what its check said. -/
structure CheckedFormula where
  tree : FormulaTree
  /-- The scope it was checked in. -/
  scope : LegalScope
  /-- The format that was asked of it. -/
  asserted : Option Format
  format : Format

namespace CheckedFormula

/-- Refuses an instance of another scope than that of the check. -/
def expectScope (c : CheckedFormula) (i : ScopeInstance) : Except ConfigError Unit :=
  if i.scope == c.scope then .ok ()
  else .error (.instanceScopeMismatch c.scope.path i.scope.path)

end CheckedFormula

namespace Workspace

/-- Checks a formula in a scope. -/
def checkFormula (w : Workspace) (factory : ContextFactory) (id : ManagerId) (tree : FormulaTree)
    (scope : LegalScope) (asserted : Option Format) :
    Except (List SemanticsError) CheckedFormula :=
  (w.runSemantics (factory.semantics id scope asserted) tree).map fun format =>
    { tree, scope, asserted, format }

/-- What a formula needs for an instance, with a collector of its own. -/
def captureFormula (w : Workspace) (factory : ContextFactory) (id : ManagerId)
    (tree : FormulaTree) (i : ScopeInstance) (asserted : Option Format) :
    Except DependencyError DependencySet × Workspace :=
  let (collector, w) := w.addCollector
  w.runDependency (factory.dependency id i asserted collector) tree

/-- What a checked formula needs for an instance of its scope. -/
def dependencies (w : Workspace) (factory : ContextFactory) (id : ManagerId)
    (c : CheckedFormula) (i : ScopeInstance) :
    Except DependencyError DependencySet × Workspace :=
  match c.expectScope i with
  | .error e => (.error (.config e), w)
  | .ok () => w.captureFormula factory id c.tree i c.asserted

/-- The value of a checked formula for an instance of its scope. -/
def evaluate (w : Workspace) (factory : ContextFactory) (id : ManagerId) (c : CheckedFormula)
    (i : ScopeInstance) : Except EvalError Value :=
  match c.expectScope i with
  | .error e => .error (.config e)
  | .ok () => w.runEvaluation (factory.evaluation id i c.asserted) c.tree

end Workspace

end Formulary
