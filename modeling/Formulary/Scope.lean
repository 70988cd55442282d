import Formulary.ConfigError
/-!
# Scopes — where variables are declared

Scopes form a forest: a scope is a root or is enclosed by another. A scope
carries the chain of the scopes around it, so that looking outwards needs no
tree. Its path is the names of the chain, outermost first, joined by points,
and a tree takes no second scope with the path of one it has. Two scopes are
equal when they have the same number in their tree.
-/

namespace Formulary

/-- One link of a chain of scopes. -/
structure ScopeLink where
  /-- The number of scopes made before this one. -/
  id : Nat
  /-- The name of the scope. -/
  name : Name
  /-- The names of the chain up to here, joined by points. -/
  path : String
  deriving DecidableEq

/-- A scope: its own link, and those of the scopes around it, nearest first. -/
structure LegalScope where
  link : ScopeLink
  /-- The links of the enclosing scopes, nearest first. -/
  enclosing : List ScopeLink

namespace LegalScope

/-- The number of the scope in its tree. -/
def id (s : LegalScope) : Nat := s.link.id

def name (s : LegalScope) : Name := s.link.name

def path (s : LegalScope) : String := s.link.path

/-- Scopes are equal when they have the same number. -/
instance : BEq LegalScope := ⟨fun s t => s.id == t.id⟩

theorem beq_iff {s t : LegalScope} : (s == t) = true ↔ s.id = t.id := by
  show (s.id == t.id) = true ↔ _
  exact beq_iff_eq

instance : EquivBEq LegalScope where
  rfl := beq_iff.2 rfl
  symm h := beq_iff.2 (beq_iff.1 h).symm
  trans h₁ h₂ := beq_iff.2 ((beq_iff.1 h₁).trans (beq_iff.1 h₂))

/-- The scope around this one. -/
def parent? (s : LegalScope) : Option LegalScope :=
  match s.enclosing with
  | [] => none
  | link :: rest => some ⟨link, rest⟩

/-- The scopes of a chain, nearest first. -/
def chain : ScopeLink → List ScopeLink → List LegalScope
  | link, [] => [⟨link, []⟩]
  | link, next :: rest => ⟨link, next :: rest⟩ :: chain next rest

/-- The scope itself and the scopes around it, nearest first. -/
def ancestors (s : LegalScope) : List LegalScope := chain s.link s.enclosing

/-- How many scopes there are around this one. -/
def depth (s : LegalScope) : Nat := s.enclosing.length

def inspect (s : LegalScope) : String := s!"LegalScope({s.path})"

/-- **The chain starts at the scope and goes on with its parent's.** -/
theorem ancestors_eq (s : LegalScope) :
    s.ancestors = s :: (s.parent?.map ancestors).getD [] := by
  obtain ⟨link, enclosing⟩ := s
  cases enclosing <;> rfl

@[simp] theorem length_ancestors (s : LegalScope) : s.ancestors.length = s.depth + 1 := by
  obtain ⟨link, enclosing⟩ := s
  simp only [ancestors, depth]
  induction enclosing generalizing link with
  | nil => rfl
  | cons next rest ih => rw [chain, List.length_cons, ih, List.length_cons]

end LegalScope

/-- The scopes of an engine, in the order in which they were made. -/
structure ScopeTree where
  scopes : List LegalScope := []

namespace ScopeTree

instance : Inhabited ScopeTree := ⟨{}⟩

/-- The number of scopes a tree can hold. -/
def capacity : Nat := 4294967296

/-- The scope with a given path. -/
def find? (t : ScopeTree) (path : String) : Option LegalScope :=
  t.scopes.find? fun s => s.path == path

def size (t : ScopeTree) : Nat := t.scopes.length

def isEmpty (t : ScopeTree) : Bool := t.scopes.isEmpty

/-- The paths of the scopes. -/
def paths (t : ScopeTree) : List String := t.scopes.map LegalScope.path

/-- Adds a scope with a given path inside given scopes, and interns its name.
A path that is taken changes nothing, not even the names. -/
def insert (t : ScopeTree) (names : Interner) (name path : String) (enclosing : List ScopeLink) :
    Except ConfigError (LegalScope × ScopeTree × Interner) :=
  if (t.find? path).isSome then .error (.duplicateScope path)
  else if capacity ≤ t.size then .error (.tooManyScopes (capacity - 1))
  else
    match names.tryIntern name with
    | .error e => .error (.ofIntern e)
    | .ok (interned, names) =>
      let scope : LegalScope := ⟨⟨t.size, interned, path⟩, enclosing⟩
      .ok (scope, ⟨t.scopes ++ [scope]⟩, names)

/-- Adds a scope with no scope around it. -/
def addRoot (t : ScopeTree) (names : Interner) (name : String) :
    Except ConfigError (LegalScope × ScopeTree × Interner) :=
  t.insert names name name []

/-- The path of a scope inside another. -/
def childPath (parent : LegalScope) (name : String) : String := s!"{parent.path}.{name}"

/-- Adds a scope inside another. -/
def addChild (t : ScopeTree) (names : Interner) (parent : LegalScope) (name : String) :
    Except ConfigError (LegalScope × ScopeTree × Interner) :=
  t.insert names name (childPath parent name) (parent.link :: parent.enclosing)

def inspect (t : ScopeTree) : String :=
  "[" ++ ", ".intercalate (t.scopes.map LegalScope.inspect) ++ "]"

end ScopeTree

end Formulary
