import Formulary.Tree
/-!
# Building formula trees

A builder hands out an id for every node it is given, in order from zero, and
interns the strings that occur in them. Argument ids are taken as they come:
they may be ids handed out before or any others.
-/

namespace Formulary

/-- A tree under construction. -/
structure TreeBuilder where
  /-- The strings of the formula's names. -/
  names : Interner
  nodes : Array Node := #[]
  args : Array NodeId := #[]

namespace TreeBuilder

/-- Appends a node. The id that no node may have is where it ends. -/
def push (b : TreeBuilder) (kind : NodeKind) : NodeId × TreeBuilder :=
  if b.nodes.size < NodeId.invalid.index then
    (⟨b.nodes.size⟩, { b with nodes := b.nodes.push { kind } })
  else (NodeId.invalid, b)

/-- Appends an argument list. One that is too long, or that starts too late,
is left out. -/
def pushArgs (b : TreeBuilder) (ids : Array NodeId) : ArgRange × TreeBuilder :=
  if b.args.size ≤ ArgRange.maxStart ∧ ids.size ≤ ArgRange.maxLength then
    (⟨b.args.size, ids.size⟩, { b with args := b.args ++ ids })
  else (ArgRange.unreachable, b)

/-- Interns a string and goes on with its name; without a name there is no node. -/
def withName (b : TreeBuilder) (s : String) (next : TreeBuilder → Name → NodeId × TreeBuilder) :
    NodeId × TreeBuilder :=
  match b.names.tryIntern s with
  | .error _ => (NodeId.invalid, b)
  | .ok (name, names) => next { b with names } name

def number (b : TreeBuilder) (x : Number) : NodeId × TreeBuilder :=
  b.push (.literal (.number x))

def text (b : TreeBuilder) (s : String) : NodeId × TreeBuilder :=
  b.withName s fun b name => b.push (.literal (.text name))

def truth (b : TreeBuilder) (value : Bool) : NodeId × TreeBuilder :=
  b.push (.literal (.truth value))

def var (b : TreeBuilder) (s : String) : NodeId × TreeBuilder :=
  b.withName s fun b name => b.push (.var name)

def call (b : TreeBuilder) (function : String) (ids : Array NodeId) : NodeId × TreeBuilder :=
  b.withName function fun b name =>
    let (range, b) := b.pushArgs ids
    b.push (.call name range)

def operator (b : TreeBuilder) (op : Operator) (ids : Array NodeId) : NodeId × TreeBuilder :=
  let (range, b) := b.pushArgs ids
  b.push (.operator op range)

/-- Says where a node was written; nothing happens if there is no such node. -/
def setSpan (b : TreeBuilder) (id : NodeId) (span : Span) : TreeBuilder :=
  { b with nodes := b.nodes.modify id.index fun n => { n with span } }

/-- The finished tree. -/
def finish (b : TreeBuilder) (root : NodeId) : FormulaTree :=
  { nodes := b.nodes, args := b.args, root }

end TreeBuilder

end Formulary
