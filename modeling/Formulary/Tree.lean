import Formulary.Name
import Formulary.Number
import Formulary.Operator
import Formulary.Span
/-!
# Formula trees

A formula is an array of nodes. A node that applies something refers to its
arguments by a range of a second array, which holds node ids. Nothing makes
an id refer to a node, or a range lie inside the array: a tree may have
dangling ids, shared parts and cycles, and whoever walks it copes with them.
-/

namespace Formulary

/-- The place of a node in its tree. -/
structure NodeId where
  /-- The number of nodes before it. -/
  index : Nat
  deriving DecidableEq

namespace NodeId

/-- The id that no node has. -/
def invalid : NodeId := ⟨4294967295⟩

instance : Inhabited NodeId := ⟨invalid⟩

/-- Whether some node could have the id. -/
def isValid (id : NodeId) : Bool := id != invalid

def inspect (id : NodeId) : String :=
  if id.isValid then s!"NodeId({id.index})" else "NodeId::INVALID"

end NodeId

/-- A range of the argument array. -/
structure ArgRange where
  /-- Where the range starts. -/
  start : Nat
  /-- How many arguments it has. -/
  length : Nat
  deriving DecidableEq

namespace ArgRange

/-- The most arguments a range can have. -/
def maxLength : Nat := 65535

/-- The last place at which a range can start. -/
def maxStart : Nat := 4294967295

/-- The range of a list too long for a range. It lies outside the array. -/
def unreachable : ArgRange := ⟨maxStart, maxLength⟩

def isEmpty (r : ArgRange) : Bool := r.length == 0

end ArgRange

/-- A value written in a formula. -/
inductive Literal where
  | number (x : Number)
  | text (name : Name)
  | truth (value : Bool)
  deriving DecidableEq

namespace Literal

/-- The number, if the literal is one. -/
def asNumber? : Literal → Option Number
  | number x => some x
  | _ => none

end Literal

/-- What a node does. -/
inductive NodeKind where
  | literal (value : Literal)
  | var (name : Name)
  | call (function : Name) (args : ArgRange)
  | operator (op : Operator) (args : ArgRange)
  deriving DecidableEq

/-- A node, and where it was written. -/
structure Node where
  kind : NodeKind
  span : Span := Span.dummy
  deriving DecidableEq

/-- A formula. -/
structure FormulaTree where
  /-- The nodes, each at the place its id numbers. -/
  nodes : Array Node
  /-- The arguments of all nodes. -/
  args : Array NodeId
  /-- The node whose value is the value of the formula. -/
  root : NodeId
  deriving DecidableEq

namespace FormulaTree

/-- The node with a given id. -/
def node? (t : FormulaTree) (id : NodeId) : Option Node := t.nodes[id.index]?

/-- The arguments in a range, if it lies inside the array. -/
def args? (t : FormulaTree) (r : ArgRange) : Option (List NodeId) :=
  if r.start + r.length ≤ t.args.size then
    some (t.args.extract r.start (r.start + r.length)).toList
  else none

def size (t : FormulaTree) : Nat := t.nodes.size

def isEmpty (t : FormulaTree) : Bool := t.nodes.isEmpty

end FormulaTree

end Formulary
