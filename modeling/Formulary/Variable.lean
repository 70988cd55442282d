import Formulary.Instance
/-!
# Variables — declarations, and what a name stands for

A variable is declared in a scope, with a format. A name used in a scope stands
for the declaration in the nearest scope of the chain that has one; used from
an instance, it stands for the variable of the instance of that scope. Both
look outwards along a chain that may be longer than a limit allows, and then
give up (`nearest`).
-/

namespace Formulary

/-- Why a name stands for nothing. -/
inductive ResolveError where
  /-- No scope of the chain declares it. -/
  | undeclared (name scope : String)
  /-- The chain could not be followed. -/
  | config (error : ConfigError)

namespace ResolveError

def message : ResolveError → String
  | undeclared name scope => s!"variable `{name}` is not declared in `{scope}` or its ancestors"
  | config error => error.message

end ResolveError

/-- A variable: the declaration of a name, for one instance of its scope. -/
structure VariableId where
  /-- The instance of the scope that declares the variable. -/
  owner : ScopeInstance
  /-- The name of the variable. -/
  name : Name
  format : Format
  /-- The text of the name. -/
  label : String

namespace VariableId

/-- Variables are equal when their instances, names and formats are. -/
instance : BEq VariableId :=
  ⟨fun v w => v.owner == w.owner && v.name == w.name && v.format == w.format⟩

theorem beq_iff {v w : VariableId} :
    (v == w) = true ↔
      v.owner.id = w.owner.id ∧ v.name = w.name ∧ v.format.identity = w.format.identity := by
  show (v.owner == w.owner && v.name == w.name && v.format == w.format) = true ↔ _
  rw [Bool.and_eq_true, Bool.and_eq_true, ScopeInstance.beq_iff, Format.beq_iff, beq_iff_eq,
    and_assoc]

instance : EquivBEq VariableId where
  rfl := beq_iff.2 ⟨rfl, rfl, rfl⟩
  symm h := beq_iff.2 <| by
    obtain ⟨h₁, h₂, h₃⟩ := beq_iff.1 h
    exact ⟨h₁.symm, h₂.symm, h₃.symm⟩
  trans h k := beq_iff.2 <| by
    obtain ⟨h₁, h₂, h₃⟩ := beq_iff.1 h
    obtain ⟨k₁, k₂, k₃⟩ := beq_iff.1 k
    exact ⟨h₁.trans k₁, h₂.trans k₂, h₃.trans k₃⟩

def text (v : VariableId) : String := s!"{v.label}@{v.owner.text}: {v.format.label}"

def inspect (v : VariableId) : String := s!"VariableId({v.text})"

end VariableId

/-! ## Looking outwards -/

/-- How a look along a chain ends. -/
inductive Search (α : Type) where
  /-- At a place that has a format for the name. -/
  | found (place : α) (format : Format)
  /-- At the limit, with more of the chain to come. -/
  | tooDeep
  /-- At the end of the chain. -/
  | missing

/-- The first place of a chain that has a format, among as many as the limit allows. -/
def nearest {α : Type} (format? : α → Option Format) : Nat → List α → Search α
  | _, [] => .missing
  | 0, _ :: _ => .tooDeep
  | limit + 1, place :: rest =>
    match format? place with
    | some format => .found place format
    | none => nearest format? limit rest

/-- **Two chains that declare alike are searched alike.** -/
theorem nearest_map {α β : Type} (f : α → β) (format? : β → Option Format) (limit : Nat)
    (places : List α) :
    nearest format? limit (places.map f) =
      match nearest (fun a => format? (f a)) limit places with
      | .found place format => .found (f place) format
      | .tooDeep => .tooDeep
      | .missing => .missing := by
  induction places generalizing limit with
  | nil => cases limit <;> rfl
  | cons place rest ih =>
    cases limit with
    | zero => rfl
    | succ limit =>
      simp only [List.map_cons, nearest]
      cases format? (f place) with
      | none => exact ih limit
      | some format => rfl

/-! ## Declarations -/

/-- The declared formats, by the number of the scope and the name. -/
structure VariableLibrary where
  declarations : Table (Nat × Name) Format := {}

namespace VariableLibrary

instance : Inhabited VariableLibrary := ⟨{}⟩

def size (l : VariableLibrary) : Nat := l.declarations.size

def isEmpty (l : VariableLibrary) : Bool := l.size == 0

/-- The format of a name declared in a scope, the scopes around it left aside. -/
def declaredFormat? (l : VariableLibrary) (scope : LegalScope) (name : Name) : Option Format :=
  l.declarations.find? (scope.id, name)

/-- Declares a variable in a scope. The first declaration of a name in a scope
stands: a second one is accepted if it asks for the same format, and changes
nothing. -/
def declare (l : VariableLibrary) (scope : LegalScope) (name : Name) (label : String)
    (format : Format) : Except ConfigError VariableLibrary :=
  match l.declaredFormat? scope name with
  | some existing =>
    if existing == format then .ok l
    else .error (.conflictingDeclaration label scope.path existing format)
  | none => .ok ⟨l.declarations.insert (scope.id, name) format⟩

/-- The scope in which a name used in a given scope is declared, and its format. -/
def resolveInScope (l : VariableLibrary) (names : Interner) (scope : LegalScope) (name : Name)
    (limit : Nat) : Except ResolveError (LegalScope × Format) :=
  match nearest (fun s => l.declaredFormat? s name) limit scope.ancestors with
  | .found place format => .ok (place, format)
  | .tooDeep => .error (.config (.scopeChainTooDeep scope.path limit))
  | .missing => .error (.undeclared (names.lookup name) scope.path)

/-- The variable that a name used from a given instance stands for. -/
def resolve (l : VariableLibrary) (names : Interner) (i : ScopeInstance) (name : Name)
    (limit : Nat) : Except ResolveError VariableId :=
  match nearest (fun j => l.declaredFormat? j.scope name) limit i.ancestors with
  | .found place format => .ok ⟨place, name, format, names.lookup name⟩
  | .tooDeep => .error (.config (.scopeChainTooDeep i.scope.path limit))
  | .missing => .error (.undeclared (names.lookup name) i.scope.path)

def inspect (l : VariableLibrary) : String :=
  s!"VariableLibrary \x7b declarations: {l.size}, .. \x7d"

end VariableLibrary

/-- The variables a formula needs, each once, in no order that is shown. -/
structure DependencySet where
  members : List VariableId := []

namespace DependencySet

instance : Inhabited DependencySet := ⟨{}⟩

def contains (d : DependencySet) (v : VariableId) : Bool := d.members.any (· == v)

/-- The set with one more variable, if it is new. -/
def insert (d : DependencySet) (v : VariableId) : DependencySet :=
  if d.contains v then d else ⟨d.members ++ [v]⟩

/-- The set with all variables of a list. -/
def insertAll (d : DependencySet) (vs : List VariableId) : DependencySet := vs.foldl insert d

/-- The set of the variables of a list. -/
def ofList (vs : List VariableId) : DependencySet := insertAll {} vs

def size (d : DependencySet) : Nat := d.members.length

def isEmpty (d : DependencySet) : Bool := d.members.isEmpty

/-- The variables in the order of their texts. -/
def sorted (d : DependencySet) : List VariableId :=
  d.members.mergeSort fun v w => !(w.text < v.text)

def inspect (d : DependencySet) : String :=
  "\x7b" ++ ", ".intercalate (d.sorted.map VariableId.inspect) ++ "\x7d"

theorem contains_iff {d : DependencySet} {v : VariableId} :
    d.contains v = true ↔ ∃ w ∈ d.members, (w == v) = true := by
  simp [contains]

/-- **A set contains what was put in and what it contained.** -/
theorem contains_insert (d : DependencySet) (v w : VariableId) :
    (d.insert v).contains w = (v == w || d.contains w) := by
  unfold insert
  cases hv : d.contains v with
  | true =>
    rw [if_pos rfl]
    cases hvw : v == w with
    | false => simp
    | true =>
      obtain ⟨u, hu, huv⟩ := contains_iff.1 hv
      rw [contains_iff.2 ⟨u, hu, BEq.trans huv hvw⟩]
      rfl
  | false => simp [contains, Bool.or_comm]

end DependencySet

end Formulary
