import Formulary.Format.Registry
import Formulary.Library.Standard
import Formulary.Store
/-!
# Formula managers — all that formulas are written against

A host first makes the definitions: scopes, declarations, formats, functions,
operators and limits. A formula manager is made from them and has the
instances of the scopes besides, and a view of the values the host stores.
From then on the definitions stay as they are; only the names may become more,
because formulas bring their own.
-/

namespace Formulary

/-- The limits of an engine. -/
structure FormulaConfig where
  /-- How many scopes of a chain are searched for a declaration. -/
  maxScopeDepth : Nat := 64
  /-- How many levels of a formula are walked. -/
  maxTreeDepth : Nat := 256
  deriving DecidableEq

namespace FormulaConfig

instance : Inhabited FormulaConfig := ⟨{}⟩

def inspect (c : FormulaConfig) : String :=
  s!"FormulaConfig \x7b max_scope_depth: {c.maxScopeDepth}, " ++
    s!"max_tree_depth: {c.maxTreeDepth} \x7d"

end FormulaConfig

/-- What a host defines before formulas are written. -/
structure Definitions where
  /-- The strings of all names. -/
  names : Interner := .fresh
  functions : Library Name := {}
  operators : Library Operator := {}
  declarations : VariableLibrary := {}
  formats : FormatRegistry := {}
  scopes : ScopeTree := {}
  config : FormulaConfig := {}

namespace Definitions

instance : Inhabited Definitions := ⟨{}⟩

/-- Adds the standard functions and operators. -/
def installStandard (d : Definitions) : Definitions :=
  let (functions, names) := Standard.installFunctions d.functions d.names
  { d with functions, names, operators := Standard.installOperators d.operators }

/-- Adds a scope with no scope around it. -/
def addRootScope (d : Definitions) (name : String) :
    Except ConfigError (LegalScope × Definitions) :=
  (d.scopes.addRoot d.names name).map fun (scope, scopes, names) =>
    (scope, { d with scopes, names })

/-- Adds a scope inside another. -/
def addChildScope (d : Definitions) (parent : LegalScope) (name : String) :
    Except ConfigError (LegalScope × Definitions) :=
  (d.scopes.addChild d.names parent name).map fun (scope, scopes, names) =>
    (scope, { d with scopes, names })

/-- Declares a variable. The name is interned even if the declaration is refused. -/
def declare (d : Definitions) (scope : LegalScope) (label : String) (format : Format) :
    Except ConfigError Name × Definitions :=
  match d.names.tryIntern label with
  | .error e => (.error (.ofIntern e), d)
  | .ok (name, names) =>
    let d := { d with names }
    match d.declarations.declare scope name label format with
    | .error e => (.error e, d)
    | .ok declarations => (.ok name, { d with declarations })

/-- Registers a format. -/
def registerFormat (d : Definitions) (name defaultKey : String) :
    Except ConfigError (Format × Definitions) :=
  (d.formats.register d.names name defaultKey).map fun (format, formats, names) =>
    (format, { d with formats, names })

def inspect (d : Definitions) : String :=
  s!"SharedFormulaManager(FormulaManager \x7b functions: {d.functions.size}, " ++
    s!"operators: {d.operators.size}, variables: {d.declarations.size}, " ++
    s!"scopes: {d.scopes.size}, config: {d.config.inspect}, .. \x7d)"

end Definitions

/-- The definitions, the instances of their scopes, and the stored values. -/
structure FormulaManager extends Definitions where
  /-- The instances handed out. -/
  instances : InstanceFactory := {}
  /-- The values the host stores. -/
  stored : VariableId → Option Value := fun _ => none

namespace FormulaManager

instance : Inhabited FormulaManager := ⟨{}⟩

/-- The manager made from definitions: no instances yet, and nothing stored. -/
def ofDefinitions (d : Definitions) : FormulaManager := { d with }

/-- The instance of a scope for a subject inside a parent. -/
def newInstance (m : FormulaManager) (scope : LegalScope) (subject : String)
    (parent : Option ScopeInstance) : Except ConfigError (ScopeInstance × FormulaManager) :=
  (m.instances.get scope subject parent).map fun (i, instances) => (i, { m with instances })

/-- The manager without an instance and those inside it. -/
def releaseInstance (m : FormulaManager) (i : ScopeInstance) : FormulaManager :=
  { m with instances := m.instances.release i }

/-- The variable that a name used from an instance stands for. -/
def resolveName (m : FormulaManager) (i : ScopeInstance) (name : Name) :
    Except ResolveError VariableId :=
  m.declarations.resolve m.names i name m.config.maxScopeDepth

/-- The variable that a string used from an instance stands for. A string that
is no name stands for nothing, however long the chain is. -/
def resolve (m : FormulaManager) (i : ScopeInstance) (label : String) :
    Except ResolveError VariableId :=
  match m.names.get? label with
  | none => .error (.undeclared label i.scope.path)
  | some name => m.resolveName i name

/-- The scope in which a name used in a given scope is declared, and its format. -/
def resolveInScope (m : FormulaManager) (scope : LegalScope) (name : Name) :
    Except ResolveError (LegalScope × Format) :=
  m.declarations.resolveInScope m.names scope name m.config.maxScopeDepth

/-- The value of a variable: what is stored for it, or the default of its format. -/
def valueOf (m : FormulaManager) (v : VariableId) : Option Value :=
  match m.stored v with
  | some value => some value
  | none => m.formats.default? v.format

end FormulaManager

end Formulary
