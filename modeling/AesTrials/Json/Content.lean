import AesTrials.Json.Basic

/-!
# What JSON stands for

A string stands for a text if its surrogates come in pairs. A number stands for a whole number if
it is written without sign, point and exponent, and for a float by a rule that does not round to
nearest: as many leading digits as a 64-bit word holds are taken as a whole number, made a float,
and multiplied or divided once by a power of ten.
-/

namespace AesTrials.Json

/-- The code points of the units, each surrogate pair joined, after the code points found so far in
reverse; none if a surrogate is alone. -/
def codePointsOnto : List Nat → List Nat → Option (List Nat)
  | found, [] => some found.reverse
  | found, unit :: rest =>
    if 0xd800 ≤ unit ∧ unit < 0xdc00 then
      match rest with
      | next :: rest =>
        if 0xdc00 ≤ next ∧ next < 0xe000 then
          codePointsOnto ((0x10000 + 1024 * (unit - 0xd800) + (next - 0xdc00)) :: found) rest
        else none
      | [] => none
    else if 0xdc00 ≤ unit ∧ unit < 0xe000 then none
    else codePointsOnto (unit :: found) rest

/-- The code points of the units, each surrogate pair joined; none if a surrogate is alone. -/
def codePoints? (units : List Nat) : Option (List Nat) :=
  codePointsOnto [] units

/-- The text of the units, if they stand for one. -/
def text? (units : List Nat) : Option String :=
  (codePoints? units).map fun points => String.ofList (points.map Char.ofNat)

namespace Number

/-- One more than the largest whole number. -/
def wholeLimit : Nat := Nat.pow 2 64

/-- The whole number, if the number is written as one and a 64-bit word holds it. -/
def toNat? (number : Number) : Option Nat :=
  if !number.negative ∧ number.behind.isEmpty ∧ number.exponent.isNone then
    let value := Decimal.ofDigits number.whole
    if value < wholeLimit then some value else none
  else none

/-- The digits taken while a 64-bit word holds them, after those taken so far, and how many are
left. -/
def takeDigits : Nat → List Nat → Nat × Nat
  | taken, [] => (taken, 0)
  | taken, digit :: digits =>
    let more := 10 * taken + digit
    if more < wholeLimit then takeDigits more digits else (taken, digits.length + 1)

/-- The power of ten as a float. -/
def powerOfTen (exponent : Nat) : Float := Float.ofScientific 1 false exponent

/-- The largest power of ten that is a finite float. -/
def largestPower : Nat := 308

/-- A float times a power of ten, in one step, or after divisions by the largest power if the
exponent is further below zero; none if the product is too large. -/
def scale? (x : Float) (exponent : Int) : Option Float :=
  if 0 ≤ exponent then
    if exponent ≤ (largestPower : Int) then
      let product := x * powerOfTen exponent.toNat
      if product.isInf then none else some product
    else if x == 0.0 then some x else none
  else if -(largestPower : Int) ≤ exponent then some (x / powerOfTen (-exponent).toNat)
  else if x == 0.0 then some x
  else scale? (x / powerOfTen largestPower) (exponent + largestPower)
termination_by (-exponent).toNat
decreasing_by
  simp only [largestPower] at *
  omega

/-- The float of the digits of a number without its sign, if it is not too large. -/
def magnitude? (number : Number) : Option Float :=
  let (whole, wholeLeft) := takeDigits 0 number.whole
  let (taken, behindLeft) := takeDigits whole number.behind
  let places : Int := (number.behind.length : Int) - behindLeft
  scale? taken.toUInt64.toFloat ((wholeLeft : Int) - places + number.exponent.getD 0)

/-- The float that the number stands for, if it is not too large. -/
def toFloat? (number : Number) : Option Float :=
  number.magnitude?.map fun x => if number.negative then -x else x

end Number

end AesTrials.Json
