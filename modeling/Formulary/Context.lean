import Formulary.Quoted
import Formulary.Variable
/-!
# Contexts — what a walk over a formula is told

A context holds values of several kinds under keys, which have a name and
belong to a kind. Which kinds there are is left open (`ContextKinds`); the
engine has some of its own. A key is found by its name alone: asked for with a
key of another kind, the value is refused and not replaced by that key's
default (`get_of_kind_ne`). Contexts are values, so what is written to one is
not seen in the contexts it was derived from.
-/

namespace Formulary

/-- The number of a formula manager among those of its workspace. -/
structure ManagerId where
  index : Nat
  deriving DecidableEq

/-- The number of a collector among those of its workspace. -/
structure CollectorId where
  index : Nat
  deriving DecidableEq

/-- A family of kinds: the values of each kind, and what the kind is called. -/
class ContextKinds (K : Type) where
  Carrier : K → Type
  label : K → String

attribute [reducible] ContextKinds.Carrier

/-- The kinds of value in the contexts of the engine. -/
inductive ContextKind where
  | number
  | text
  | truth
  /-- The format a formula has to have, if any. -/
  | assertion
  | scope
  | inst
  | manager
  /-- Where the variables a formula needs are collected. -/
  | collector
  deriving DecidableEq

namespace ContextKind

/-- The values of a kind. -/
abbrev Carrier : ContextKind → Type
  | number => Float
  | text => String
  | truth => Bool
  | assertion => Option Format
  | scope => LegalScope
  | inst => ScopeInstance
  | manager => ManagerId
  | collector => CollectorId

def label : ContextKind → String
  | number => "f64"
  | text => "alloc::string::String"
  | truth => "bool"
  | assertion => "core::option::Option<formula_types::format::Format>"
  | scope => "formula_scope::scope::LegalScope"
  | inst => "formula_scope::instance::ScopeInstance"
  | manager => "formula_context::manager::SharedFormulaManager"
  | collector => "formula_context::managers::DependencyCollector"

instance : ContextKinds ContextKind := ⟨Carrier, label⟩

end ContextKind

open ContextKinds (Carrier)

section

variable {K : Type} [ContextKinds K]

/-- A name for values of one kind, perhaps with a default. -/
structure Key (kind : K) where
  name : String
  /-- The value a context has that was told none. -/
  default? : Option (Carrier kind) := none

def Key.inspect {kind : K} (key : Key kind) : String := s!"TypedKey({key.name})"

end

/-- A value, and its kind. -/
structure ContextEntry (K : Type) [ContextKinds K] where
  kind : K
  value : Carrier kind

/-- Values of several kinds, by the names of their keys. -/
structure ContextMap (K : Type := ContextKind) [ContextKinds K] where
  entries : Table String (ContextEntry K) := {}

namespace ContextMap

variable {K : Type} [ContextKinds K] {kind : K}

instance : Inhabited (ContextMap K) := ⟨{}⟩

/-- The context with a value written under a key. -/
def set (m : ContextMap K) (key : Key kind) (value : Carrier kind) : ContextMap K :=
  ⟨m.entries.insert key.name ⟨kind, value⟩⟩

/-- A value read as one of another kind, if that is its kind. -/
def read [DecidableEq K] (kind : K) (e : ContextEntry K) : Option (Carrier kind) :=
  if h : e.kind = kind then some (h ▸ e.value) else none

/-- The value under a key. -/
def get [DecidableEq K] (m : ContextMap K) (key : Key kind) : Except ConfigError (Carrier kind) :=
  match m.entries.find? key.name with
  | some e =>
    match read kind e with
    | some value => .ok value
    | none => .error (.keyTypeMismatch key.name (ContextKinds.label kind))
  | none =>
    match key.default? with
    | some value => .ok value
    | none => .error (.missingKey key.name)

/-- Whether something was written under the name of a key. -/
def contains (m : ContextMap K) (key : Key kind) : Bool := m.entries.contains key.name

def size (m : ContextMap K) : Nat := m.entries.size

def isEmpty (m : ContextMap K) : Bool := m.size == 0

/-- The context as shown to a developer: the names in order. -/
def inspect (m : ContextMap K) : String :=
  let names := m.entries.keys.mergeSort fun a b => !(b < a)
  "\x7b" ++ ", ".intercalate (names.map quoted) ++ "\x7d"

variable [DecidableEq K]

@[simp] theorem read_self (value : Carrier kind) : read kind ⟨kind, value⟩ = some value := by
  simp [read]

/-- **What was written under a key is read back.** -/
theorem get_set (m : ContextMap K) (key : Key kind) (value : Carrier kind) :
    (m.set key value).get key = .ok value := by
  simp [get, set, Table.find?_insert]

/-- **A write under another name is not seen.** -/
theorem get_set_of_ne {other : K} (m : ContextMap K) (key : Key kind) (value : Carrier kind)
    (asked : Key other) (h : key.name ≠ asked.name) :
    (m.set key value).get asked = m.get asked := by
  simp only [get, set, Table.find?_insert, beq_iff_eq, if_neg h]

/-- **A value of another kind is refused,** whatever the key's default is. -/
theorem get_of_kind_ne {other : K} (m : ContextMap K) (key : Key kind) (value : Carrier kind)
    (asked : Key other) (hname : asked.name = key.name) (hkind : kind ≠ other) :
    (m.set key value).get asked =
      .error (.keyTypeMismatch asked.name (ContextKinds.label other)) := by
  simp [get, set, Table.find?_insert, hname, read, hkind]

end ContextMap

/-! ## The keys of the engine -/

namespace Key

def manager : Key ContextKind.manager := { name := "FMANAGER" }

def scope : Key ContextKind.scope := { name := "SCOPE" }

/-- The instance a formula is worked out for. -/
def inst : Key ContextKind.inst := { name := "INSTANCE" }

/-- The format asked of the part of the formula at hand; none unless told. -/
def asserted : Key ContextKind.assertion := { name := "ASSERTED", default? := some none }

/-- Where the variables a formula needs are collected. -/
def collector : Key ContextKind.collector := { name := "VARIABLES" }

/-- How far apart numbers may be and still count as equal; not at all unless told. -/
def tolerance : Key ContextKind.number := { name := "TOLERANCE", default? := some 0 }

end Key

/-! ## Contexts to start with -/

/-- The walks over a formula. -/
inductive Pass where
  | semantics
  | dependency
  | evaluation
  deriving DecidableEq

namespace Pass

/-- A pass and the context it starts with, as shown to a developer. -/
def inspect (pass : Pass) (m : ContextMap) : String :=
  let label := match pass with
    | semantics => "SemanticsManager"
    | dependency => "DependencyManager"
    | evaluation => "EvaluationManager"
  s!"{label} \x7b map: {m.inspect} \x7d"

end Pass

/-- How a host makes the contexts its passes start with: the usual ones, with
additions of its own. -/
structure ContextFactory where
  /-- What the host adds. -/
  decorate : Pass → ContextMap → ContextMap := fun _ m => m

namespace ContextFactory

/-- The factory that adds nothing. -/
def plain : ContextFactory := {}

/-- The factory that tells evaluations a tolerance. -/
def withTolerance (tolerance : Float) : ContextFactory where
  decorate
    | .evaluation, m => m.set Key.tolerance tolerance
    | _, m => m

/-- The context in which a formula is checked in a scope. -/
def semantics (f : ContextFactory) (manager : ManagerId) (scope : LegalScope)
    (asserted : Option Format) : ContextMap :=
  f.decorate .semantics <|
    (((({} : ContextMap).set Key.manager manager).set Key.scope scope).set Key.asserted asserted)

/-- The context in which what a formula needs is collected for an instance. -/
def dependency (f : ContextFactory) (manager : ManagerId) (i : ScopeInstance)
    (asserted : Option Format) (collector : CollectorId) : ContextMap :=
  f.decorate .dependency <|
    (((({} : ContextMap).set Key.manager manager).set Key.inst i).set Key.asserted asserted).set
      Key.collector collector

/-- The context in which a formula is worked out for an instance. -/
def evaluation (f : ContextFactory) (manager : ManagerId) (i : ScopeInstance)
    (asserted : Option Format) : ContextMap :=
  f.decorate .evaluation <|
    (((({} : ContextMap).set Key.manager manager).set Key.inst i).set Key.asserted asserted)

/-- The context in which the formula of a variable is worked out. -/
def evaluationFor (f : ContextFactory) (manager : ManagerId) (v : VariableId) : ContextMap :=
  f.evaluation manager v.owner (some v.format)

end ContextFactory

end Formulary
