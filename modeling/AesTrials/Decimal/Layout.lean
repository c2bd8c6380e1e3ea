import AesTrials.Decimal.Numeral
import AesTrials.Decimal.Shortest

/-!
# Laying out digits

A decimal number is written with a point among its digits, zeros filling the places between. Fixed
places round the exact value of a float, a half to the even neighbour.
-/

namespace AesTrials.Decimal

/-- The digits before the point, at least one, and the digits behind it. -/
def place (number : Scientific) : List Nat × List Nat :=
  let shown := digits number.digits
  match number.exponent with
  | .ofNat zeros => (shown ++ List.replicate zeros 0, [])
  | .negSucc n =>
    let behind := n + 1
    let filled := List.replicate (behind + 1 - shown.length) 0 ++ shown
    (filled.take (filled.length - behind), filled.drop (filled.length - behind))

/-- The character of a digit value. -/
def digitChar (digit : Nat) : Char := Char.ofNat (48 + digit)

/-- Digits before and behind a point; no point if none are behind it. -/
def point (parts : List Nat × List Nat) : List Char :=
  match parts with
  | (whole, []) => whole.map digitChar
  | (whole, behind) => whole.map digitChar ++ '.' :: behind.map digitChar

/-- The sign of a negative number. -/
def sign (negative : Bool) : List Char := if negative then ['-'] else []

/-- The words for values that are no finite number. -/
def special : Binary → Option String
  | .nan => some "NaN"
  | .infinite false => some "inf"
  | .infinite true => some "-inf"
  | .finite .. => none

/-- A float with the fewest digits that read back and no exponent; of two such decimals that are
equally near, the larger one in size. -/
def writeShortest (x : Float) : String :=
  match Binary.ofFloat x with
  | .finite negative mantissa exponent =>
    String.ofList (sign negative ++ point (place (shortest roundHalfUp mantissa exponent)))
  | other => (special other).getD ""

/-- A float with a fixed number of places behind the point. -/
def writeFixed (places : Nat) (x : Float) : String :=
  match Binary.ofFloat x with
  | .finite negative mantissa exponent =>
    let (numerator, denominator) := fraction mantissa exponent
    let scaled := roundHalfEven (numerator * Nat.pow 10 places) denominator
    String.ofList (sign negative ++ point (place ⟨scaled, -(places : Int)⟩))
  | other => (special other).getD ""

/-- A number with commas between groups of three digits, counted from the right. -/
def group : List Char → List Char
  | [] => []
  | c :: rest =>
    if rest ≠ [] ∧ rest.length % 3 = 0 then c :: ',' :: group rest else c :: group rest

/-- A number with commas between groups of three digits. -/
def writeGrouped (number : Nat) : String :=
  String.ofList (group (write number))

/-- A text filled up with spaces on the left to at least the given width. -/
def alignRight (width : Nat) (text : String) : String :=
  String.ofList (List.replicate (width - text.toList.length) ' ') ++ text

/-- A text filled up with spaces on the right to at least the given width. -/
def alignLeft (width : Nat) (text : String) : String :=
  text ++ String.ofList (List.replicate (width - text.toList.length) ' ')

end AesTrials.Decimal
