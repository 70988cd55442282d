import Formulary.Number.Dyadic
/-!
# The remainder of a division

Division that rounds its quotient toward zero leaves a remainder with the
sign of the dividend. It is a float itself, so it is worked out exactly: both
numbers are whole multiples of the smaller of their units, and the remainder
of those multiples is the answer.
-/

namespace Formulary

namespace Dyadic

/-- What is left of the first number after taking the second from it as often
as possible. -/
def remainder (a b : Dyadic) : Dyadic :=
  let unit := min a.exponent b.exponent
  ⟨(a.mantissa * twoTo (a.exponent - unit).toNat) % (b.mantissa * twoTo (b.exponent - unit).toNat),
    unit⟩

end Dyadic

/-- The remainder of `a` divided by `b`, none if `a` is not finite or `b` is zero. -/
def remainder (a b : Float) : Float :=
  if a.isNaN || b.isNaN || a.isInf || b == 0 then 0 / 0
  else if b.isInf then a
  else
    let rest := (Dyadic.ofBits a.toBits).remainder (Dyadic.ofBits b.toBits)
    let magnitude := Float.ofBits rest.toBits
    if signBit a.toBits then -magnitude else magnitude

end Formulary
