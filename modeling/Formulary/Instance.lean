import Formulary.Scope
import Formulary.Table
/-!
# Instances — a scope, for one subject

An instance of a scope is that scope seen from one subject. It lives inside an
instance of the scope around its own, so a chain of instances runs along every
chain of scopes. A factory hands out one instance per scope, subject and
parent, and gives each a number of its own; once released, an instance and
those inside it are forgotten, and asking again gives a new one. Two instances
are equal when they have the same number.
-/

namespace Formulary

/-- One link of a chain of instances. -/
structure InstanceLink where
  /-- The number of instances made before this one. -/
  id : Nat
  /-- The scope of the instance. -/
  scope : LegalScope
  /-- Whom the instance is for. -/
  subject : String

/-- An instance: its own link, and those of the instances around it, nearest first. -/
structure ScopeInstance where
  link : InstanceLink
  /-- The links of the enclosing instances, nearest first. -/
  enclosing : List InstanceLink

namespace ScopeInstance

def id (i : ScopeInstance) : Nat := i.link.id

def scope (i : ScopeInstance) : LegalScope := i.link.scope

/-- Whom the instance is for. -/
def subject (i : ScopeInstance) : String := i.link.subject

/-- Instances are equal when they have the same number. -/
instance : BEq ScopeInstance := ⟨fun i j => i.id == j.id⟩

theorem beq_iff {i j : ScopeInstance} : (i == j) = true ↔ i.id = j.id := by
  show (i.id == j.id) = true ↔ _
  exact beq_iff_eq

instance : EquivBEq ScopeInstance where
  rfl := beq_iff.2 rfl
  symm h := beq_iff.2 (beq_iff.1 h).symm
  trans h₁ h₂ := beq_iff.2 ((beq_iff.1 h₁).trans (beq_iff.1 h₂))

/-- The instance around this one. -/
def parent? (i : ScopeInstance) : Option ScopeInstance :=
  match i.enclosing with
  | [] => none
  | link :: rest => some ⟨link, rest⟩

/-- The instances of a chain, nearest first. -/
def chain : InstanceLink → List InstanceLink → List ScopeInstance
  | link, [] => [⟨link, []⟩]
  | link, next :: rest => ⟨link, next :: rest⟩ :: chain next rest

/-- The instance itself and the instances around it, nearest first. -/
def ancestors (i : ScopeInstance) : List ScopeInstance := chain i.link i.enclosing

def text (i : ScopeInstance) : String := s!"{i.scope.path}[{i.subject}]"

def inspect (i : ScopeInstance) : String := s!"ScopeInstance({i.text})"

/-- **The chain starts at the instance and goes on with its parent's.** -/
theorem ancestors_eq (i : ScopeInstance) :
    i.ancestors = i :: (i.parent?.map ancestors).getD [] := by
  obtain ⟨link, enclosing⟩ := i
  cases enclosing <;> rfl

end ScopeInstance

/-- What a factory knows an instance by. -/
structure InstanceKey where
  /-- The number of its scope. -/
  scope : Nat
  /-- The number of its parent. -/
  parent : Option Nat
  subject : String
  deriving DecidableEq

/-- The key of an instance. -/
def ScopeInstance.key (i : ScopeInstance) : InstanceKey :=
  ⟨i.scope.id, i.parent?.map id, i.subject⟩

/-- The instances handed out and not released. -/
structure InstanceFactory where
  /-- The instances, by their keys. -/
  cached : Table InstanceKey ScopeInstance := {}
  /-- The number of the next instance. -/
  nextId : Nat := 0

namespace InstanceFactory

instance : Inhabited InstanceFactory := ⟨{}⟩

/-- The number of instances handed out and not released. -/
def size (f : InstanceFactory) : Nat := f.cached.size

def isEmpty (f : InstanceFactory) : Bool := f.size == 0

/-- The instance of a scope for a subject inside a parent, which has to be an
instance of the scope around that scope. -/
def get (f : InstanceFactory) (scope : LegalScope) (subject : String)
    (parent : Option ScopeInstance) : Except ConfigError (ScopeInstance × InstanceFactory) :=
  let expected := scope.parent?
  let found := parent.map ScopeInstance.scope
  if expected != found then
    .error (.instanceParentMismatch scope.path (expected.map LegalScope.path)
      (found.map LegalScope.path))
  else
    let key : InstanceKey := ⟨scope.id, parent.map ScopeInstance.id, subject⟩
    match f.cached.find? key with
    | some i => .ok (i, f)
    | none =>
      let enclosing := match parent with
        | none => []
        | some p => p.link :: p.enclosing
      let i : ScopeInstance := ⟨⟨f.nextId, scope, subject⟩, enclosing⟩
      .ok (i, { cached := f.cached.insert key i, nextId := f.nextId + 1 })

/-- The factory without an instance and those inside it. -/
def release (f : InstanceFactory) (i : ScopeInstance) : InstanceFactory :=
  { f with cached := ⟨f.cached.entries.filter fun e => e.2.ancestors.all (·.id != i.id)⟩ }

/-- How many instances a release forgets. -/
def releaseCount (f : InstanceFactory) (i : ScopeInstance) : Nat :=
  f.size - (f.release i).size

def inspect (f : InstanceFactory) : String :=
  s!"ScopeInstanceFactory \x7b len: {f.size} \x7d"

end InstanceFactory

end Formulary
