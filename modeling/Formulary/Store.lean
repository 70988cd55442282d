import Formulary.Value
import Formulary.Variable
/-!
# Stored values

A host keeps the values of variables in a store. A value is accepted for a
variable if it has the declared format; a refused value changes nothing.
-/

namespace Formulary

/-- The values of variables. -/
structure VariableStore where
  /-- The values, by their variables. -/
  values : Table VariableId Value := {}

namespace VariableStore

instance : Inhabited VariableStore := ⟨{}⟩

/-- The value of a variable. -/
def get? (s : VariableStore) (v : VariableId) : Option Value := s.values.find? v

/-- Gives a variable a value, whatever its format. -/
def put (s : VariableStore) (v : VariableId) (value : Value) : VariableStore :=
  ⟨s.values.insert v value⟩

/-- Gives a variable a value of its format, and answers which one it had. -/
def set (s : VariableStore) (v : VariableId) (value : Value) :
    Except ConfigError (Option Value × VariableStore) :=
  if value.format == v.format then .ok (s.get? v, s.put v value)
  else .error (.storeFormatMismatch v.format value.format)

/-- Takes the value of a variable away, and answers which one it had. -/
def remove (s : VariableStore) (v : VariableId) : Option Value × VariableStore :=
  (s.get? v, ⟨s.values.erase v⟩)

def size (s : VariableStore) : Nat := s.values.size

def isEmpty (s : VariableStore) : Bool := s.size == 0

theorem get?_put (s : VariableStore) (v w : VariableId) (value : Value) :
    (s.put v value).get? w = if v == w then some value else s.get? w :=
  Table.find?_insert s.values v w value

theorem get?_remove (s : VariableStore) (v w : VariableId) :
    (s.remove v).2.get? w = if v == w then none else s.get? w :=
  Table.find?_erase s.values v w

end VariableStore

end Formulary
