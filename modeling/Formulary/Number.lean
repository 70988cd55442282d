import Formulary.Number.Dyadic
/-!
# Numbers — floats, kept by their bits

A number is a float as it came, bit for bit. What hands a number on, chooses
between two or touches only its sign keeps the other bits (`neg_neg`). What
computes goes by the value of the float, and there all that is no number is one.

The bits matter to a power alone. A value that is no number is quiet or
signalling. A quiet one has a power where its value does not count: one to any
power is one, and so is anything to the power of zero. A signalling one has
none (`power?_of_isSignalling`).
-/

namespace Formulary

/-- A number, or a value that stands for none. -/
structure Number where
  /-- The bits of the float. -/
  bits : UInt64
  deriving DecidableEq, Inhabited

namespace Number

/-- Zero, without a sign. -/
def zero : Number := ⟨0⟩

/-- The float with the bits of a number. -/
def toFloat (x : Number) : Float := Float.ofBits x.bits

/-- The number that a computation came to. -/
def ofFloat (x : Float) : Number := ⟨x.toBits⟩

/-- What a function makes of a number. -/
def map (f : Float → Float) (x : Number) : Number := ofFloat (f x.toFloat)

/-- What a function makes of two numbers. -/
def combine (f : Float → Float → Float) (x y : Number) : Number := ofFloat (f x.toFloat y.toFloat)

/-- Whether the value stands for no number. -/
def isNaN (x : Number) : Bool := x.toFloat.isNaN

/-- Whether the value stands for no number and is not quiet: the highest bit of
its fraction is not set. -/
def isSignalling (x : Number) : Bool := x.isNaN && x.bits.toNat / twoTo 51 % 2 == 0

/-- The bit that is the sign. -/
def signMask : UInt64 := 0x8000000000000000

/-- The number with the other sign. -/
def neg (x : Number) : Number := ⟨x.bits ^^^ signMask⟩

/-- The number without its sign. -/
def abs (x : Number) : Number := ⟨x.bits &&& ~~~signMask⟩

/-- The lesser of two numbers. A number beside what is none is the answer; where
there is no number, the first is handed on. -/
def lesser (x y : Number) : Number :=
  if y.isNaN then x else if x.isNaN then y else if x.toFloat < y.toFloat then x else y

/-- The greater of two numbers. A number beside what is none is the answer; where
there is no number, the first is handed on. -/
def greater (x y : Number) : Number :=
  if y.isNaN then x else if x.isNaN then y else if x.toFloat > y.toFloat then x else y

/-- A power, if it is finite and neither operand is signalling. -/
def power? (x y : Number) : Option Number :=
  let power := x.toFloat.pow y.toFloat
  if !x.isSignalling && !y.isSignalling && power.isFinite then some (ofFloat power) else none

/-- **A sign changed twice is the sign it was,** and no bit is lost. -/
@[simp] theorem neg_neg (x : Number) : x.neg.neg = x := by
  simp only [neg, UInt64.xor_assoc, UInt64.xor_self, UInt64.xor_zero]

/-- **What is signalling has no power and is none,** one and zero included. -/
theorem power?_of_isSignalling {x y : Number} (h : x.isSignalling = true ∨ y.isSignalling = true) :
    x.power? y = none := by
  rcases h with h | h <;> simp [power?, h]

end Number

end Formulary
