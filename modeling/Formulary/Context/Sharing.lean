import Formulary.Context
/-!
# Context maps that share their tables

To copy a context map is to hold its table once more. What the table holds is not copied before
one of the maps that share it is written to: that map is then given a table of its own, and the
others are left with the old one. A map that shares its table with no other is written to where
it is.
-/

namespace Formulary

/-- Context maps by number, and the tables that they hold. -/
structure ContextMaps (K : Type := ContextKind) [ContextKinds K] where
  /-- The tables. -/
  tables : List (ContextMap K) := []
  /-- For each map, the place of the table that it holds. -/
  held : List Nat := []

namespace ContextMaps

open ContextKinds (Carrier)

variable {K : Type} [ContextKinds K] {kind : K}

instance : Inhabited (ContextMaps K) := ⟨{}⟩

/-- The number of maps. -/
def size (s : ContextMaps K) : Nat := s.held.length

/-- How many maps hold the table at a place. -/
def holders (s : ContextMaps K) (place : Nat) : Nat := s.held.count place

/-- What a map holds. -/
def map? (s : ContextMaps K) (i : Nat) : Option (ContextMap K) :=
  s.held[i]?.bind fun place => s.tables[place]?

/-- Adds an empty map, with a table of its own. -/
def new (s : ContextMaps K) : ContextMaps K where
  tables := s.tables ++ [{}]
  held := s.held ++ [s.tables.length]

/-- Adds a copy of a map. It holds the same table. -/
def clone (s : ContextMaps K) (i : Nat) : ContextMaps K :=
  { s with held := s.held ++ s.held[i]?.toList }

/-- Writes to a map: to its table, if no other map holds it, and else to a copy of the table. -/
def set (s : ContextMaps K) (i : Nat) (key : Key kind) (value : Carrier kind) : ContextMaps K :=
  match s.held[i]? with
  | none => s
  | some place =>
    let written := (s.tables[place]?.getD {}).set key value
    if s.holders place = 1 then { s with tables := s.tables.set place written }
    else { tables := s.tables ++ [written], held := s.held.set i s.tables.length }

/-- Adds a copy of a map and writes to the copy. -/
def derive (s : ContextMaps K) (i : Nat) (key : Key kind) (value : Carrier kind) : ContextMaps K :=
  (s.clone i).set s.size key value

end ContextMaps

end Formulary
