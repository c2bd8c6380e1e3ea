/-!
# Decimal numerals

Whole numbers are written with the digits 0 to 9 and no leading zeros. They are read more freely:
leading zeros and a plus sign are allowed, and numbers past a bound are refused.
-/

namespace AesTrials.Decimal

/-- The value of a digit. -/
def digitValue? (c : Char) : Option Nat :=
  if 48 ≤ c.toNat ∧ c.toNat ≤ 57 then some (c.toNat - 48) else none

/-- Whether the character is a digit. -/
def isDigit (c : Char) : Bool := (digitValue? c).isSome

/-- The values of the characters, if all of them are digits. -/
def digitValues? (text : List Char) : Option (List Nat) :=
  text.mapM digitValue?

/-- The number that a list of digit values stands for. -/
def ofDigits (digits : List Nat) : Nat :=
  digits.foldl (fun number digit => 10 * number + digit) 0

/-- The digit values of a number, most significant first. -/
def digits (number : Nat) : List Nat :=
  (Nat.toDigits 10 number).map fun c => c.toNat - 48

/-- The number written in decimal. -/
def write (number : Nat) : List Char :=
  Nat.toDigits 10 number

/-- The number of one or more digits. -/
def readDigits? (text : List Char) : Option Nat :=
  match text with
  | [] => none
  | _ => (digitValues? text).map ofDigits

/-- The number of a numeral below a bound, with or without a plus sign. -/
def readBelow? (bound : Nat) (text : List Char) : Option Nat := do
  let number ← readDigits? (match text with
    | '+' :: rest => rest
    | _ => text)
  if number < bound then some number else none

/-- The number of a numeral with an optional sign that a 64-bit signed word holds. -/
def readSigned? (text : List Char) : Option Int :=
  match text with
  | '-' :: rest => do
    let number ← readDigits? rest
    if number ≤ Nat.pow 2 63 then some (-(number : Int)) else none
  | _ => (readBelow? (Nat.pow 2 63) text).map fun number => (number : Int)

end AesTrials.Decimal
