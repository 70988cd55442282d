import Formulary.Scope
import Formulary.Table
/-!
# Scope registries — a tree of scopes beside an index of its paths

A tree finds a scope by going through its scopes. The host keeps an index beside them, which
says for each path at which place of the tree its scope stands, and finds a scope there. It
keeps the interner of the names with them as well. An addition may be refused before it has
changed anything, or when there is no name to be had; one that is granted changes the names,
the tree and the index, in this order.
-/

namespace Formulary

/-- The names, the scopes in the order in which they were made, and where each path is. -/
structure ScopeRegistry where
  names : Interner := .fresh
  tree : ScopeTree := {}
  /-- The place of the scope with a path. -/
  index : Table String Nat := {}

namespace ScopeRegistry

instance : Inhabited ScopeRegistry := ⟨{}⟩

/-- The scope with a given path, by way of the index. -/
def find? (r : ScopeRegistry) (path : String) : Option LegalScope :=
  (r.index.find? path).bind fun place => r.tree.scopes[place]?

/-- Asks for a scope with a given path inside given scopes, and says what the registry is
afterwards. -/
def insert (r : ScopeRegistry) (name path : String) (enclosing : List ScopeLink) :
    Except ConfigError LegalScope × ScopeRegistry :=
  if r.index.contains path then (.error (.duplicateScope path), r)
  else if ScopeTree.capacity ≤ r.tree.size then
    (.error (.tooManyScopes (ScopeTree.capacity - 1)), r)
  else
    match r.names.tryIntern name with
    | .error e => (.error (.ofIntern e), r)
    | .ok (interned, names) =>
      let scope : LegalScope := ⟨⟨r.tree.size, interned, path⟩, enclosing⟩
      let tree : ScopeTree := ⟨r.tree.scopes ++ [scope]⟩
      (.ok scope, { names, tree, index := r.index.insert path scope.id })

/-- Asks for a scope with no scope around it. -/
def addRoot (r : ScopeRegistry) (name : String) : Except ConfigError LegalScope × ScopeRegistry :=
  r.insert name name []

/-- Asks for a scope inside another. -/
def addChild (r : ScopeRegistry) (parent : LegalScope) (name : String) :
    Except ConfigError LegalScope × ScopeRegistry :=
  r.insert name (ScopeTree.childPath parent name) (parent.link :: parent.enclosing)

end ScopeRegistry

end Formulary
