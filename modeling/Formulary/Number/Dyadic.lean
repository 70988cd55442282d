/-!
# Dyadic numbers — the exact value of a float

A finite float is a whole number of units of a power of two. This file reads
that form off the bits of a float and writes it back, so that digits and
remainders can be worked out in whole numbers, without rounding.
-/

namespace Formulary

/-- The given power of two. -/
def twoTo (n : Nat) : Nat := Nat.pow 2 n

/-- The given power of ten. -/
def tenTo (n : Nat) : Nat := Nat.pow 10 n

/-- The number `mantissa * 2 ^ exponent`. -/
structure Dyadic where
  /-- The whole number of units. -/
  mantissa : Nat
  /-- The power of two that is one unit. -/
  exponent : Int
  deriving DecidableEq

namespace Dyadic

/-- The least exponent of a float. -/
def leastExponent : Int := -1074

/-- The mantissas of floats are below this power of two, and not below half
of it unless the exponent is the least one. -/
def precision : Nat := 53

/-- The magnitude of a finite float with the given bits. -/
def ofBits (bits : UInt64) : Dyadic :=
  let biased := bits.toNat / twoTo 52 % twoTo 11
  let fraction := bits.toNat % twoTo 52
  if biased = 0 then ⟨fraction, leastExponent⟩
  else ⟨twoTo 52 + fraction, leastExponent + (biased - 1 : Nat)⟩

/-- The same number with the mantissa brought up to full precision, as far
as the least exponent allows. -/
def normalize (d : Dyadic) : Dyadic :=
  let shift := min (precision - (d.mantissa.log2 + 1)) (d.exponent - leastExponent).toNat
  ⟨d.mantissa * twoTo shift, d.exponent - shift⟩

/-- The bits of a number that some float has as its magnitude. -/
def toBits (d : Dyadic) : UInt64 :=
  let n := d.normalize
  if n.mantissa < twoTo 52 then UInt64.ofNat n.mantissa
  else UInt64.ofNat (((n.exponent - leastExponent).toNat + 1) * twoTo 52 + (n.mantissa - twoTo 52))

/-- Whether the float below is only half as far away as the one above. -/
def narrowBelow (d : Dyadic) : Bool :=
  d.mantissa == twoTo 52 && leastExponent < d.exponent

end Dyadic

/-- Whether the sign bit is set. -/
def signBit (bits : UInt64) : Bool := twoTo 63 ≤ bits.toNat

/-- Whether the bits are those of an infinity or of no number at all. -/
def isSpecial (bits : UInt64) : Bool := bits.toNat / twoTo 52 % twoTo 11 == twoTo 11 - 1

end Formulary
