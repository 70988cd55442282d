import Formulary.Number.Shortest
/-!
# Numbers as text

A number is written with the fewest digits that read back as it, in
positional notation whatever its size: no exponent, no point after a whole
number, a sign in front of negative numbers and of negative zero.
-/

namespace Formulary

/-- The characters without the zeros at their end. -/
def dropTrailingZeros (cs : List Char) : List Char :=
  (cs.reverse.dropWhile (· == '0')).reverse

/-- The text of `n * 10 ^ -places`: the whole part, then the places that are
not zeros at the end. -/
def positional (n places : Nat) : String :=
  let whole := Nat.toDigits 10 (n / tenTo places)
  let rest := Nat.toDigits 10 (n % tenTo places)
  let fraction := dropTrailingZeros (List.replicate (places - rest.length) '0' ++ rest)
  String.ofList (if fraction.isEmpty then whole else whole ++ '.' :: fraction)

/-- The text of the magnitude of a finite float. -/
def magnitudeText (d : Dyadic) : String :=
  let s := Scaled.ofDyadic d
  positional s.shortest s.places

/-- The text of a number. -/
def numberText (x : Float) : String :=
  let bits := x.toBits
  if x.isNaN then "NaN"
  else
    let sign := if signBit bits then "-" else ""
    sign ++ (if isSpecial bits then "inf" else magnitudeText (Dyadic.ofBits bits))

end Formulary
