import Formulary.Library
/-!
# Why a formula has no value

The errors of an evaluation carry the place they were found at. An error of
the set-up has none.
-/

namespace Formulary

/-- Why an evaluation failed. -/
inductive EvalError where
  /-- An implementation could not answer. -/
  | library (error : LibraryError) (span : Span)
  /-- A name stands for no variable. -/
  | unresolvedVariable (name scope : String) (span : Span)
  /-- A function or operator is not in its library. -/
  | unknownFunction (name : String) (span : Span)
  /-- No overload takes arguments of these formats. -/
  | noMatchingOverload (callee : String) (found : List Format) (span : Span)
  /-- The formula has too many levels. -/
  | nestingTooDeep (limit : Nat) (span : Span)
  /-- A variable was never set, and its format has no default. -/
  | unsetVariable (name : String) (span : Span)
  /-- The set-up is wrong. -/
  | config (error : ConfigError)

namespace EvalError

def code : EvalError → ErrorCode
  | library e _ => e.code
  | unresolvedVariable .. => .unresolvedOperand
  | unknownFunction .. => .unknownCallee
  | noMatchingOverload .. => .unmatchedCall
  | nestingTooDeep .. => .evaluationTooDeep
  | unsetVariable .. => .unsetVariable
  | config e => e.code

def span? : EvalError → Option Span
  | library _ span | unresolvedVariable _ _ span | unknownFunction _ span
  | noMatchingOverload _ _ span | nestingTooDeep _ span | unsetVariable _ span => some span
  | config _ => none

def message : EvalError → String
  | library e _ => e.message
  | unresolvedVariable name scope _ =>
    s!"variable `{name}` cannot be resolved from an instance of `{scope}`"
  | unknownFunction name _ => s!"unknown function `{name}`"
  | noMatchingOverload callee found _ =>
    s!"no overload of `{callee}` accepts ({Format.labels found})"
  | nestingTooDeep limit _ => s!"formula nests deeper than {limit} levels"
  | unsetVariable name _ => s!"variable `{name}` has no value and no default"
  | config e => e.message

/-- What there is to show of the error. -/
def diagnostic (e : EvalError) : Diagnostic :=
  let d : Diagnostic := { code := e.code, message := e.message }
  let d := d.withLabel (e.span?.getD Span.dummy) "evaluation failed here"
  let unchecked := "the formula was not checked against this scope"
  match e with
  | config e => e.diagnostic
  | library .divisionByZero _ => d.withSuggestion "guard the divisor with `if`"
  | unresolvedVariable .. => d.withNote unchecked
  | unknownFunction .. => d.withNote unchecked
  | noMatchingOverload .. => d.withNote unchecked
  | _ => d

end EvalError

end Formulary
