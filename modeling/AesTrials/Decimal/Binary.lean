/-!
# Floats as exact numbers

A float is not a number, infinite, or a whole number times a power of two with a sign. Zero has a
sign too.
-/

namespace AesTrials.Decimal

/-- What a float stands for. -/
inductive Binary where
  /-- Not a number. -/
  | nan
  /-- An infinity. -/
  | infinite (negative : Bool)
  /-- The mantissa times two to the power of the exponent, with a sign. -/
  | finite (negative : Bool) (mantissa : Nat) (exponent : Int)
deriving DecidableEq, Repr, Inhabited

namespace Binary

/-- The smallest exponent of a float, that of zero and of the subnormal numbers. -/
def leastExponent : Int := -1074

/-- The mantissa of the smallest normal number of each exponent. -/
def leastNormal : Nat := Nat.pow 2 52

/-- What the bits of a float stand for. -/
def ofBits (bits : UInt64) : Binary :=
  let negative : Bool := Nat.pow 2 63 ≤ bits.toNat
  let biased : Nat := bits.toNat / Nat.pow 2 52 % Nat.pow 2 11
  let fraction : Nat := bits.toNat % Nat.pow 2 52
  if biased = 2047 then (if fraction = 0 then .infinite negative else .nan)
  else if biased = 0 then .finite negative fraction leastExponent
  else .finite negative (leastNormal + fraction) (leastExponent + (biased : Int) - 1)

/-- What a float stands for. -/
def ofFloat (x : Float) : Binary := ofBits x.toBits

end Binary

/-- The quotient rounded to the nearest whole number, a half to the even neighbour. -/
def roundHalfEven (numerator denominator : Nat) : Nat :=
  let quotient := numerator / denominator
  let twice := 2 * (numerator % denominator)
  if twice < denominator then quotient
  else if denominator < twice then quotient + 1
  else if quotient % 2 = 0 then quotient else quotient + 1

/-- The quotient rounded to the nearest whole number, a half up. -/
def roundHalfUp (numerator denominator : Nat) : Nat :=
  (2 * numerator + denominator) / (2 * denominator)

/-- The mantissa times two to the power of the exponent, as a fraction. -/
def fraction (mantissa : Nat) (exponent : Int) : Nat × Nat :=
  (mantissa * Nat.pow 2 exponent.toNat, Nat.pow 2 (-exponent).toNat)

end AesTrials.Decimal
