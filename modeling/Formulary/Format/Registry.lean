import Formulary.Table
import Formulary.Value
/-!
# Registered formats

A host registers a format by a name of its own and says which object stands in
for a variable of that format that was never set. The built-in formats are
always there and have defaults too: zero, the empty text, and false.
-/

namespace Formulary

/-- The formats a host has registered, by name, each with its default. -/
structure FormatRegistry where
  /-- The formats and their defaults. -/
  custom : Table String (Format × Value) := {}

namespace FormatRegistry

instance : Inhabited FormatRegistry := ⟨{}⟩

/-- The format with a given name. -/
def get? (r : FormatRegistry) (name : String) : Option Format :=
  match Format.builtin? name with
  | some format => some format
  | none => (r.custom.find? name).map Prod.fst

/-- The registry with one more format, whose default is the object with the
given key, and the names with that of the format. A name that is taken, by a
built-in format or another, changes nothing. -/
def register (r : FormatRegistry) (names : Interner) (name defaultKey : String) :
    Except ConfigError (Format × FormatRegistry × Interner) :=
  match r.get? name with
  | some _ => .error (.duplicateFormat name)
  | none =>
    match names.tryIntern name with
    | .error e => .error (.ofIntern e)
    | .ok (interned, names) =>
      let format := Format.custom interned name
      .ok (format, ⟨r.custom.insert name (format, .object format defaultKey)⟩, names)

/-- What stands in for a variable that was never set. A format registered
elsewhere has no default here, even under a name that is registered. -/
def default? (r : FormatRegistry) : Format → Option Value
  | .number => some (.number .zero)
  | .text => some (.text "")
  | .truth => some (.truth false)
  | .custom name label =>
    match r.custom.find? label with
    | some (registered, value) =>
      if registered == Format.custom name label then some value else none
    | none => none

/-- How many formats a host has registered. -/
def customCount (r : FormatRegistry) : Nat := r.custom.size

end FormatRegistry

end Formulary
