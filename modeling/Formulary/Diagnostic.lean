import Formulary.Span
/-!
# Diagnostics — what a host shows of an error

A diagnostic has a code, a message, labels that point into the source, notes
and suggestions. It is built from the code by adding the rest; a label
without a known place is dropped, so what is left to show always points
somewhere.
-/

namespace Formulary

/-- The part of the engine an error comes from. -/
inductive Phase where
  | configuration
  | semantics
  | dependency
  | evaluation
  deriving DecidableEq

namespace Phase

def text : Phase → String
  | configuration => "Configuration"
  | semantics => "Semantics"
  | dependency => "Dependency"
  | evaluation => "Evaluation"

end Phase

/-- The kinds of error, each with a code of its own. -/
inductive ErrorCode where
  | missingKey | keyTypeMismatch | negativeTolerance | scopeChainTooDeep | duplicateScope
  | instanceParentMismatch | conflictingDeclaration | storeFormatMismatch | duplicateFormat
  | instanceScopeMismatch | malformedTree | tooManyScopes | internerFull
  | undeclaredVariable | undefinedFunction | undefinedOperator | argumentCount
  | argumentFormat | noOverload | rootFormat | formulaTooDeep
  | unresolvedDependency | dependencyTooDeep
  | divisionByZero | domain | unresolvedOperand | unknownCallee | unmatchedCall
  | evaluationTooDeep | unsetVariable
  deriving DecidableEq

namespace ErrorCode

/-- The phase a kind of error belongs to. -/
def phase : ErrorCode → Phase
  | missingKey | keyTypeMismatch | negativeTolerance | scopeChainTooDeep | duplicateScope
  | instanceParentMismatch | conflictingDeclaration | storeFormatMismatch | duplicateFormat
  | instanceScopeMismatch | malformedTree | tooManyScopes | internerFull => .configuration
  | undeclaredVariable | undefinedFunction | undefinedOperator | argumentCount
  | argumentFormat | noOverload | rootFormat | formulaTooDeep => .semantics
  | unresolvedDependency | dependencyTooDeep => .dependency
  | divisionByZero | domain | unresolvedOperand | unknownCallee | unmatchedCall
  | evaluationTooDeep | unsetVariable => .evaluation

/-- The code itself. Its first digit tells the phase. -/
def text : ErrorCode → String
  | missingKey => "E0001"
  | keyTypeMismatch => "E0002"
  | negativeTolerance => "E0003"
  | scopeChainTooDeep => "E0004"
  | duplicateScope => "E0005"
  | instanceParentMismatch => "E0006"
  | conflictingDeclaration => "E0007"
  | storeFormatMismatch => "E0008"
  | duplicateFormat => "E0009"
  | instanceScopeMismatch => "E0010"
  | malformedTree => "E0011"
  | tooManyScopes => "E0012"
  | internerFull => "E0013"
  | undeclaredVariable => "E1001"
  | undefinedFunction => "E1002"
  | undefinedOperator => "E1003"
  | argumentCount => "E1004"
  | argumentFormat => "E1005"
  | noOverload => "E1006"
  | rootFormat => "E1007"
  | formulaTooDeep => "E1008"
  | unresolvedDependency => "E2001"
  | dependencyTooDeep => "E2002"
  | divisionByZero => "E3001"
  | domain => "E3002"
  | unresolvedOperand => "E3003"
  | unknownCallee => "E3004"
  | unmatchedCall => "E3005"
  | evaluationTooDeep => "E3006"
  | unsetVariable => "E3007"

/-- All kinds of error, in the order of their codes. -/
def all : List ErrorCode :=
  [missingKey, keyTypeMismatch, negativeTolerance, scopeChainTooDeep, duplicateScope,
   instanceParentMismatch, conflictingDeclaration, storeFormatMismatch, duplicateFormat,
   instanceScopeMismatch, malformedTree, tooManyScopes, internerFull,
   undeclaredVariable, undefinedFunction, undefinedOperator, argumentCount,
   argumentFormat, noOverload, rootFormat, formulaTooDeep,
   unresolvedDependency, dependencyTooDeep,
   divisionByZero, domain, unresolvedOperand, unknownCallee, unmatchedCall,
   evaluationTooDeep, unsetVariable]

/-- The kind of error with a given code. -/
def ofText? (s : String) : Option ErrorCode := all.find? fun c => c.text == s

end ErrorCode

/-- A remark on a part of the source. -/
structure Label where
  span : Span
  message : String
  deriving DecidableEq

/-- What there is to show of an error. -/
structure Diagnostic where
  code : ErrorCode
  message : String := ""
  /-- Remarks on the source, the main one first. -/
  labels : List Label := []
  notes : List String := []
  suggestions : List String := []
  deriving DecidableEq

namespace Diagnostic

def withMessage (d : Diagnostic) (message : String) : Diagnostic := { d with message }

/-- The diagnostic with one more label, if the place is known. -/
def withLabel (d : Diagnostic) (span : Span) (message : String) : Diagnostic :=
  if span.isDummy then d else { d with labels := d.labels ++ [⟨span, message⟩] }

def withNote (d : Diagnostic) (note : String) : Diagnostic :=
  { d with notes := d.notes ++ [note] }

def withSuggestion (d : Diagnostic) (suggestion : String) : Diagnostic :=
  { d with suggestions := d.suggestions ++ [suggestion] }

/-- The place the diagnostic is about. -/
def primarySpan? (d : Diagnostic) : Option Span := d.labels.head?.map Label.span

/-- The diagnostic as text: the code and the message, then one line each for
the labels, the notes and the suggestions. -/
def render (d : Diagnostic) : String :=
  let lines :=
    s!"error [{d.code.text}]: {d.message}" ::
      (d.labels.map fun l => s!"  --> {l.span.text}: {l.message}") ++
      (d.notes.map fun n => s!"  = note: {n}") ++
      d.suggestions.map fun s => s!"  = help: {s}"
  "\n".intercalate lines

end Diagnostic

end Formulary
