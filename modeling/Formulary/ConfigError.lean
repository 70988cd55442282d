import Formulary.Diagnostic
import Formulary.Format
import Formulary.Number.Text
import Formulary.Tree
/-!
# Configuration errors

What can be wrong with the set-up of an engine rather than with a formula:
the scopes, declarations, formats and contexts a host supplies, and trees
that refer to what they do not contain.
-/

namespace Formulary

/-- Why a set-up was refused. -/
inductive ConfigError where
  /-- A context does not hold a key that has no default. -/
  | missingKey (key : String)
  /-- A context holds another kind of value under a key. -/
  | keyTypeMismatch (key expected : String)
  /-- A tolerance is below zero or no number. -/
  | negativeTolerance (tolerance : Float)
  /-- A chain of scopes is longer than the limit. -/
  | scopeChainTooDeep (start : String) (limit : Nat)
  /-- A scope has the path of another. -/
  | duplicateScope (path : String)
  /-- An instance has a parent of the wrong scope. -/
  | instanceParentMismatch (scope : String) (expected found : Option String)
  /-- An instance belongs to another scope. -/
  | instanceScopeMismatch (expected found : String)
  /-- A variable is declared again with another format. -/
  | conflictingDeclaration (name scope : String) (existing requested : Format)
  /-- A value does not have the format of its variable. -/
  | storeFormatMismatch (expected found : Format)
  /-- A format has the name of another. -/
  | duplicateFormat (name : String)
  /-- A tree refers to what it does not contain. -/
  | malformedTree (node : NodeId)
  /-- A scope tree is full. -/
  | tooManyScopes (limit : Nat)
  /-- An interner is full. -/
  | internerFull (count : Nat)

namespace ConfigError

/-- A string that found no name leaves a set-up without one. -/
def ofIntern : InternError → ConfigError
  | .overflow count => internerFull count

def code : ConfigError → ErrorCode
  | missingKey .. => .missingKey
  | keyTypeMismatch .. => .keyTypeMismatch
  | negativeTolerance .. => .negativeTolerance
  | scopeChainTooDeep .. => .scopeChainTooDeep
  | duplicateScope .. => .duplicateScope
  | instanceParentMismatch .. => .instanceParentMismatch
  | instanceScopeMismatch .. => .instanceScopeMismatch
  | conflictingDeclaration .. => .conflictingDeclaration
  | storeFormatMismatch .. => .storeFormatMismatch
  | duplicateFormat .. => .duplicateFormat
  | malformedTree .. => .malformedTree
  | tooManyScopes .. => .tooManyScopes
  | internerFull .. => .internerFull

def message : ConfigError → String
  | missingKey key => s!"context key `{key}` is not set and has no default"
  | keyTypeMismatch key expected => s!"context key `{key}` does not hold a `{expected}`"
  | negativeTolerance tolerance =>
    s!"tolerance must be non-negative, got {numberText tolerance}"
  | scopeChainTooDeep start limit =>
    s!"scope chain starting at `{start}` exceeds {limit} ancestors"
  | duplicateScope path => s!"scope `{path}` is already defined"
  | instanceParentMismatch scope expected found =>
    let expected := expected.getD "no parent"
    let found := found.getD "no parent"
    s!"instance of scope `{scope}` needs parent {expected}, got {found}"
  | instanceScopeMismatch expected found =>
    s!"expected an instance of scope `{expected}`, got an instance of `{found}`"
  | conflictingDeclaration name scope existing requested =>
    s!"variable `{name}` in scope `{scope}` is already declared as {existing.label}, " ++
      s!"cannot redeclare as {requested.label}"
  | storeFormatMismatch expected found =>
    s!"stored value has format {found.label}, variable expects {expected.label}"
  | duplicateFormat name => s!"format `{name}` is already registered"
  | malformedTree node =>
    s!"formula tree refers to {node.inspect}, which it does not contain"
  | tooManyScopes limit => s!"scope tree cannot hold more than {limit} scopes"
  | internerFull count => s!"name interner is full after {count} names"

/-- What there is to show of the error. -/
def diagnostic (e : ConfigError) : Diagnostic :=
  let d : Diagnostic := { code := e.code, message := e.message }
  match e with
  | missingKey .. => d.withNote "build contexts through a manager factory"
  | scopeChainTooDeep .. => d.withNote "the scope hierarchy may contain a cycle"
  | malformedTree .. => d.withNote "children must be built before their parent"
  | conflictingDeclaration .. =>
    d.withSuggestion "declare the variable in a child scope to shadow it"
  | _ => d

end ConfigError

end Formulary
