import Formulary.Library
import Formulary.Operator
/-!
# What a check finds wrong

The errors of a check carry the place they were found at. An error of the
set-up has none.
-/

namespace Formulary

/-- Why a formula was rejected. -/
inductive SemanticsError where
  /-- A name stands for no variable. -/
  | unresolvedVariable (name scope : String) (span : Span)
  /-- A function is not in the library. -/
  | unknownFunction (name : String) (span : Span)
  /-- An operator is not in the library. -/
  | unknownOperator (op : Operator) (span : Span)
  /-- No overload takes that many arguments. -/
  | wrongArgCount (callee : String) (expected : List Nat) (found : Nat) (span : Span)
  /-- An argument does not have the format that all overloads have there. -/
  | argumentFormatMismatch (expected found : Format) (span : Span)
  /-- No overload takes arguments of these formats. -/
  | noMatchingOverload (callee : String) (found : List Format) (span : Span)
  /-- The formula does not have the format it has to have. -/
  | rootFormatMismatch (expected found : Format) (span : Span)
  /-- The formula has too many levels. -/
  | nestingTooDeep (limit : Nat) (span : Span)
  /-- The set-up is wrong. -/
  | config (error : ConfigError)

namespace SemanticsError

def code : SemanticsError → ErrorCode
  | unresolvedVariable .. => .undeclaredVariable
  | unknownFunction .. => .undefinedFunction
  | unknownOperator .. => .undefinedOperator
  | wrongArgCount .. => .argumentCount
  | argumentFormatMismatch .. => .argumentFormat
  | noMatchingOverload .. => .noOverload
  | rootFormatMismatch .. => .rootFormat
  | nestingTooDeep .. => .formulaTooDeep
  | config e => e.code

def span? : SemanticsError → Option Span
  | unresolvedVariable _ _ span | unknownFunction _ span | unknownOperator _ span
  | wrongArgCount _ _ _ span | argumentFormatMismatch _ _ span | noMatchingOverload _ _ span
  | rootFormatMismatch _ _ span | nestingTooDeep _ span => some span
  | config _ => none

def message : SemanticsError → String
  | unresolvedVariable name scope _ => s!"variable `{name}` is not declared in scope `{scope}`"
  | unknownFunction name _ => s!"unknown function `{name}`"
  | unknownOperator op _ => s!"unknown operator `{op.symbol}`"
  | wrongArgCount callee expected found _ =>
    s!"`{callee}` takes {countsText expected} arguments, {found} given"
  | argumentFormatMismatch expected found _ =>
    s!"argument has format {found.label}, expected {expected.label}"
  | noMatchingOverload callee found _ =>
    s!"no overload of `{callee}` accepts ({Format.labels found})"
  | rootFormatMismatch expected found _ =>
    s!"formula produces {found.label}, expected {expected.label}"
  | nestingTooDeep limit _ => s!"formula nests deeper than {limit} levels"
  | config e => e.message

/-- What is said of the place of the error. -/
def remark : SemanticsError → String
  | unresolvedVariable .. => "not found"
  | unknownFunction .. => "not defined"
  | unknownOperator .. => "not defined"
  | wrongArgCount _ _ found _ => s!"{found} arguments"
  | argumentFormatMismatch expected _ _ => s!"expected {expected.label}"
  | noMatchingOverload .. => "no matching overload"
  | rootFormatMismatch _ found _ => s!"this is {found.label}"
  | nestingTooDeep .. => "nested too deeply"
  | config _ => ""

/-- What there is to show of the error. -/
def diagnostic (e : SemanticsError) : Diagnostic :=
  let d : Diagnostic := { code := e.code, message := e.message }
  let d := d.withLabel (e.span?.getD Span.dummy) e.remark
  match e with
  | config e => e.diagnostic
  | unresolvedVariable .. =>
    d.withSuggestion "declare the variable in this scope or an enclosing one"
  | rootFormatMismatch expected _ _ =>
    d.withNote s!"the formula was required to produce {expected.label}"
  | _ => d

end SemanticsError

end Formulary
