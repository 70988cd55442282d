import Formulary.Name
import Formulary.Table
/-!
# Intern tables — the strings beside a map of their names

An interner is held as two tables. One has the strings, each at the place that its name
numbers; the other says for each string which name it has. A name is found in the one and a
string in the other, and a string that is new is put into both, by one write after the other.

Whoever asks for names holds a handle, which leads to a table. A copy of a handle leads to the
same table, and what is asked through one is seen through all.
-/

namespace Formulary

/-- Strings by name, and names by string. -/
structure InternTable where
  /-- The name of each string. -/
  map : Table String Name := {}
  /-- The strings, each at the place its name numbers. -/
  strings : List String := []

namespace InternTable

/-- The table that has the empty string only. -/
def fresh : InternTable where
  map := ({} : Table String Name).insert "" Name.empty
  strings := [""]

instance : Inhabited InternTable := ⟨fresh⟩

/-- The name of a string that has one. -/
def get? (t : InternTable) (s : String) : Option Name := t.map.find? s

/-- The string of a name, empty for a name not handed out. -/
def lookup (t : InternTable) (n : Name) : String := t.strings[n.raw]?.getD ""

/-- The number of strings, the empty one counted. -/
def size (t : InternTable) : Nat := t.strings.length

/-- Whether only the empty string has a name. -/
def isEmpty (t : InternTable) : Bool := t.size ≤ 1

/-- Puts a string last. -/
def push (t : InternTable) (s : String) : InternTable := { t with strings := t.strings ++ [s] }

/-- Puts a string under a name into the map. -/
def assign (t : InternTable) (s : String) (n : Name) : InternTable :=
  { t with map := t.map.insert s n }

/-- The name of a string, for one who may write. The string is looked for once more: it may
have come in since it was missed. -/
def write (t : InternTable) (s : String) : Except InternError (Name × InternTable) :=
  match t.map.find? s with
  | some n => .ok (n, t)
  | none =>
    if Interner.capacity ≤ t.strings.length then .error (.overflow t.strings.length)
    else
      let n : Name := ⟨t.strings.length⟩
      .ok (n, (t.push s).assign s n)

/-- The name of a string, unless it had none and there is no room. Nothing is written if it is
found. -/
def tryIntern (t : InternTable) (s : String) : Except InternError (Name × InternTable) :=
  match t.map.find? s with
  | some n => .ok (n, t)
  | none => t.write s

def inspect (t : InternTable) : String :=
  s!"SharedInterner(StringInterner \x7b len: {t.size} \x7d)"

end InternTable

/-! ## Requests -/

namespace Interner

/-- What an interner may be asked. -/
inductive Request where
  /-- The name of a string, new if it had none. -/
  | intern (s : String)
  /-- The same, if there is room for a new name. -/
  | tryIntern (s : String)
  /-- The name of a string that has one. -/
  | get (s : String)
  /-- The string of a name. -/
  | lookup (n : Name)
  /-- The number of strings. -/
  | size

/-- What an interner replies. -/
inductive Reply where
  | named (n : Name)
  /-- There was no room, and the asker is told. -/
  | refused (e : InternError)
  /-- There was no room, and the asker is stopped. -/
  | stopped (e : InternError)
  | found (n? : Option Name)
  | text (s : String)
  | count (size : Nat)

end Interner

/-- The reply to a request, and the table after it. -/
def InternTable.ask (t : InternTable) : Interner.Request → Interner.Reply × InternTable
  | .intern s =>
    match t.tryIntern s with
    | .ok (n, t') => (.named n, t')
    | .error e => (.stopped e, t)
  | .tryIntern s =>
    match t.tryIntern s with
    | .ok (n, t') => (.named n, t')
    | .error e => (.refused e, t)
  | .get s => (.found (t.get? s), t)
  | .lookup n => (.text (t.lookup n), t)
  | .size => (.count t.size, t)

/-! ## Handles -/

/-- Tables, and the handles that lead to them. -/
structure SharedInterners where
  /-- The tables. -/
  tables : List InternTable := []
  /-- For each handle, the place of the table that it leads to. -/
  handles : List Nat := []

namespace SharedInterners

instance : Inhabited SharedInterners := ⟨{}⟩

/-- The table that a handle leads to. -/
def table? (p : SharedInterners) (handle : Nat) : Option InternTable :=
  p.handles[handle]?.bind fun place => p.tables[place]?

/-- Whether two handles lead to one table. -/
def same (p : SharedInterners) (handle other : Nat) : Bool :=
  p.handles[handle]? == p.handles[other]?

/-- Adds a handle, with a table of its own. -/
def new (p : SharedInterners) : SharedInterners where
  tables := p.tables ++ [.fresh]
  handles := p.handles ++ [p.tables.length]

/-- Adds a copy of a handle. It leads to the same table. -/
def clone (p : SharedInterners) (handle : Nat) : SharedInterners :=
  { p with handles := p.handles ++ p.handles[handle]?.toList }

/-- The reply to a request through a handle, and the tables after it. -/
def ask? (p : SharedInterners) (handle : Nat) (request : Interner.Request) :
    Option (Interner.Reply × SharedInterners) :=
  match p.handles[handle]? with
  | none => none
  | some place =>
    p.tables[place]?.map fun t =>
      let (reply, t) := t.ask request
      (reply, { p with tables := p.tables.set place t })

end SharedInterners

end Formulary
