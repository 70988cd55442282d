import Formulary.ConfigError
/-!
# Values

What variables hold and formulas yield: numbers, texts, truth values, and
references to objects of a host. An object carries its format with it, which
may be any format; an object of a built-in format has that format and is
still no number, text or truth value.

Two values are approximately equal when they are numbers no further apart
than a tolerance, or are equal. A tolerance below zero is refused whatever
the values are (`approxEq_of_not_le`), and so is one that is no number.
-/

namespace Formulary

/-- A value. -/
inductive Value where
  | number (x : Number)
  | text (s : String)
  | truth (b : Bool)
  /-- An object, by its format and its key among the objects of that format. -/
  | object (format : Format) (key : String)
  deriving Inhabited

namespace Value

/-- The format of a value. -/
def format : Value → Format
  | number _ => .number
  | text _ => .text
  | truth _ => .truth
  | object format _ => format

/-- The number, if the value is one. -/
def asNumber? : Value → Option Number
  | number x => some x
  | _ => none

/-- The text, if the value is one. -/
def asText? : Value → Option String
  | text s => some s
  | _ => none

/-- The truth value, if the value is one. -/
def asTruth? : Value → Option Bool
  | truth b => some b
  | _ => none

/-- Equality of values: numbers as floats, so that a value that is no number
differs from itself and the two zeros are equal. -/
def same : Value → Value → Bool
  | number x, number y => x.toFloat == y.toFloat
  | text s, text t => s == t
  | truth a, truth b => a == b
  | object f k, object g l => f == g && k == l
  | _, _ => false

instance : BEq Value := ⟨same⟩

/-- The value as text. -/
def display : Value → String
  | number x => numberText x.toFloat
  | text s => s
  | truth b => if b then "true" else "false"
  | object format key => s!"{format.label}({key})"

end Value

/-- Refuses a tolerance that is below zero or no number. -/
def checkTolerance (tolerance : Float) : Except ConfigError Unit :=
  if tolerance ≥ 0 then .ok () else .error (.negativeTolerance tolerance)

/-- Whether two numbers are equal or no further apart than a tolerance. -/
def approxEq (a b tolerance : Float) : Except ConfigError Bool :=
  match checkTolerance tolerance with
  | .error e => .error e
  | .ok () => .ok (a == b || (a - b).abs ≤ tolerance)

/-- A tolerance that is not at least zero is refused for all numbers. -/
theorem approxEq_of_not_le {a b tolerance : Float} (h : ¬ tolerance ≥ 0) :
    approxEq a b tolerance = .error (.negativeTolerance tolerance) := by
  simp only [approxEq, checkTolerance, if_neg h]

namespace Value

/-- Whether two values are numbers no further apart than a tolerance, or are equal. -/
def approxEq (v w : Value) (tolerance : Float) : Except ConfigError Bool :=
  match v, w with
  | number a, number b => Formulary.approxEq a.toFloat b.toFloat tolerance
  | v, w =>
    match checkTolerance tolerance with
    | .error e => .error e
    | .ok () => .ok (v == w)

end Value

end Formulary
