import AesTrials.Decimal.Numeral
import AesTrials.Decimal.Shortest

/-!
# Reading decimals

A decimal has an optional sign, digits with at most one point among them or behind or before them,
and an optional power of ten; it is read as the nearest float. The words for infinity and for no
number are read in letters of any case.
-/

namespace AesTrials.Decimal

/-- Numbers whose leading digit is at this power of ten or above are infinite as floats. -/
def hugePower : Int := 310

/-- Numbers whose leading digit is below this power of ten are zero as floats. -/
def tinyPower : Int := -330

/-- The float nearest to a decimal. -/
def toFloat (negative : Bool) (number : Scientific) : Float :=
  let leading := (digitCount number.digits : Int) + number.exponent
  let size :=
    if number.digits = 0 ∨ leading < tinyPower then 0.0
    else if hugePower ≤ leading then 1.0 / 0.0
    else Float.ofScientific number.digits (number.exponent < 0) number.exponent.natAbs
  if negative then -size else size

/-- The sign in front of a text, and the text behind it. -/
def splitSign (text : List Char) : Bool × List Char :=
  match text with
  | '-' :: rest => (true, rest)
  | '+' :: rest => (false, rest)
  | _ => (false, text)

/-- The power of ten behind the letter e, or zero if there is no letter. -/
def readPower? (text : List Char) : Option Int :=
  match text with
  | [] => some 0
  | c :: rest =>
    if c = 'e' ∨ c = 'E' then
      let (negative, digits) := splitSign rest
      (readDigits? digits).map fun power => if negative then -(power : Int) else power
    else none

/-- The number of a decimal without its sign. -/
def readUnsigned? (text : List Char) : Option Scientific :=
  let whole := text.takeWhile isDigit
  let rest := text.dropWhile isDigit
  let (behind, rest) := match rest with
    | '.' :: rest => (rest.takeWhile isDigit, rest.dropWhile isDigit)
    | _ => ([], rest)
  match readDigits? (whole ++ behind), readPower? rest with
  | some digits, some power => some ⟨digits, power - behind.length⟩
  | _, _ => none

/-- The float of a decimal, or of a word. -/
def readFloat? (text : List Char) : Option Float :=
  let (negative, rest) := splitSign text
  let word := String.ofList (rest.map Char.toLower)
  if word == "inf" || word == "infinity" then some (if negative then -1.0 / 0.0 else 1.0 / 0.0)
  else if word == "nan" then some (0.0 / 0.0)
  else (readUnsigned? rest).map (toFloat negative)

/-- The whole number nearest to a float, a half away from zero; numbers outside the range are moved
to its nearer end, and what is no number is read as zero. -/
def toNatBelow (bound : Nat) (x : Float) : Nat :=
  match Binary.ofFloat x with
  | .nan => 0
  | .infinite negative => if negative then 0 else bound - 1
  | .finite true _ _ => 0
  | .finite false mantissa exponent =>
    let (numerator, denominator) := fraction mantissa exponent
    min (roundHalfUp numerator denominator) (bound - 1)

end AesTrials.Decimal
