import AesTrials.Decimal.Binary

/-!
# The fewest digits that read back

The reals that round to a float form an interval around it, whose ends belong to it exactly when
the mantissa is even. Of the decimal grids with one, two, … significant digits the first one with
a point in the interval is taken, and of its two points next to the float the nearer one.
-/

namespace AesTrials.Decimal

/-- A whole number times a power of ten. -/
structure Scientific where
  /-- The digits as a number. -/
  digits : Nat
  /-- The power of ten. -/
  exponent : Int
deriving DecidableEq, Repr, Inhabited

/-- The number of decimal digits. -/
def digitCount (number : Nat) : Nat := (Nat.toDigits 10 number).length

/-- The power of ten at or below a positive fraction. -/
def magnitude (numerator denominator : Nat) : Int :=
  if denominator ≤ numerator then (digitCount (numerator / denominator) : Int) - 1
  else -(digitCount (denominator / numerator) : Int)

/-- A positive float scaled by four: quarters of its unit make the ends of its interval whole. -/
structure Interval where
  /-- The lower end. -/
  lower : Nat
  /-- The float. -/
  middle : Nat
  /-- The upper end. -/
  upper : Nat
  /-- What all three are divided by. -/
  denominator : Nat
  /-- Whether the ends belong to the interval. -/
  closed : Bool
deriving DecidableEq, Repr, Inhabited

namespace Interval

/-- The interval of a positive float: half a unit up, and half a unit down or a quarter below the
least normal mantissa, where the floats are twice as dense. -/
def ofBinary (mantissa : Nat) (exponent : Int) : Interval :=
  let scale := Nat.pow 2 (exponent - 2).toNat
  let down := if mantissa = Binary.leastNormal ∧ exponent ≠ Binary.leastExponent then 1 else 2
  { lower := (4 * mantissa - down) * scale
    middle := 4 * mantissa * scale
    upper := (4 * mantissa + 2) * scale
    denominator := Nat.pow 2 (2 - exponent).toNat
    closed := mantissa % 2 = 0 }

/-- Whether the interval holds a whole number of steps of a size given as a fraction. -/
def holds (interval : Interval) (stepNumerator stepDenominator steps : Nat) : Bool :=
  let point := steps * stepNumerator * interval.denominator
  let lower := interval.lower * stepDenominator
  let upper := interval.upper * stepDenominator
  if interval.closed then lower ≤ point && point ≤ upper else lower < point && point < upper

/-- The nearer of the two points next to the float on the grid of a power of ten, among those in
the interval; the given rounding decides between points that are equally near. -/
def onGrid? (interval : Interval) (round : Nat → Nat → Nat) (exponent : Int) : Option Nat :=
  let stepNumerator := Nat.pow 10 exponent.toNat
  let stepDenominator := Nat.pow 10 (-exponent).toNat
  let unit := stepNumerator * interval.denominator
  let scaled := interval.middle * stepDenominator
  let below := scaled / unit
  let above := below + 1
  match interval.holds stepNumerator stepDenominator below,
      interval.holds stepNumerator stepDenominator above with
  | true, true => some (round scaled unit)
  | true, false => some below
  | false, true => some above
  | false, false => none

/-- The first hit on the grids from a power of ten downwards. -/
def search (interval : Interval) (round : Nat → Nat → Nat) : Nat → Int → Option Scientific
  | 0, _ => none
  | grids + 1, exponent =>
    match interval.onGrid? round exponent with
    | some digits => some ⟨digits, exponent⟩
    | none => search interval round grids (exponent - 1)

end Interval

/-- The number without zeros at the end of its digits; the fuel bounds their count. -/
def Scientific.strip : Nat → Scientific → Scientific
  | 0, number => number
  | fuel + 1, number =>
    if number.digits ≠ 0 ∧ number.digits % 10 = 0 then
      strip fuel ⟨number.digits / 10, number.exponent + 1⟩
    else number

/-- Digits that always suffice to tell two floats apart. -/
def enoughDigits : Nat := 17

/-- The shortest decimal that reads back as a float, given its mantissa and exponent; the given
rounding to the nearest whole number decides between two that are equally near. -/
def shortest (round : Nat → Nat → Nat) (mantissa : Nat) (exponent : Int) : Scientific :=
  if mantissa = 0 then ⟨0, 0⟩
  else
    let interval := Interval.ofBinary mantissa exponent
    let leading := magnitude interval.middle interval.denominator
    match interval.search round enoughDigits leading with
    | some found => found.strip enoughDigits
    | none => ⟨0, 0⟩

end AesTrials.Decimal
