import Formulary.ConfigError
/-!
# Why the variables of a formula cannot be told

The errors of a capture carry the place they were found at. An error of the
set-up has none.
-/

namespace Formulary

/-- Why a capture failed. -/
inductive DependencyError where
  /-- A name stands for no variable. -/
  | unresolvedVariable (name scope : String) (span : Span)
  /-- The formula has too many levels. -/
  | nestingTooDeep (limit : Nat) (span : Span)
  /-- The set-up is wrong. -/
  | config (error : ConfigError)

namespace DependencyError

def code : DependencyError → ErrorCode
  | unresolvedVariable .. => .unresolvedDependency
  | nestingTooDeep .. => .dependencyTooDeep
  | config e => e.code

def message : DependencyError → String
  | unresolvedVariable name scope _ =>
    s!"variable `{name}` cannot be resolved from an instance of `{scope}`"
  | nestingTooDeep limit _ => s!"formula nests deeper than {limit} levels"
  | config e => e.message

/-- What there is to show of the error. -/
def diagnostic (e : DependencyError) : Diagnostic :=
  let d : Diagnostic := { code := e.code, message := e.message }
  match e with
  | unresolvedVariable _ _ span =>
    (d.withLabel span "not found").withNote
      "run the semantics pass before capturing dependencies"
  | nestingTooDeep _ span => d.withLabel span "nested too deeply"
  | config e => e.diagnostic

end DependencyError

end Formulary
