import AesTrials.Decimal.Layout

/-!
# JSON values

Numbers keep their digits as written and strings keep their escapes as code units, because what a
number or a string stands for depends on what it is read as: a number may be whole or a float, and
half a surrogate pair stands for no text. Objects keep their fields in order, repeated ones too.
-/

namespace AesTrials

/-- The parts of a number. -/
structure Json.Number where
  /-- Whether a minus sign is in front. -/
  negative : Bool
  /-- Digits before the point, at least one. -/
  whole : List Nat
  /-- Digits behind the point; empty if there is no point. -/
  behind : List Nat
  /-- The power of ten, if one is written. -/
  exponent : Option Int
deriving DecidableEq, Repr, Inhabited

/-- A JSON value as written. -/
inductive Json where
  /-- The null value. -/
  | null
  /-- A truth value. -/
  | bool (value : Bool)
  /-- A number. -/
  | number (value : Json.Number)
  /-- A string, as its characters and the code units of its escapes. -/
  | string (units : List Nat)
  /-- Values in order. -/
  | array (items : List Json)
  /-- Fields in order. -/
  | object (fields : List (List Nat × Json))
deriving Repr, Inhabited

namespace Json

/-- The units of a text. -/
def unitsOf (text : String) : List Nat := text.toList.map Char.toNat

/-- The string of a text. -/
def ofText (text : String) : Json := .string (unitsOf text)

/-- The object with the given fields. -/
def ofFields (fields : List (String × Json)) : Json :=
  .object (fields.map fun field => (unitsOf field.1, field.2))

/-- The number of digits as values. -/
def Number.ofNat (number : Nat) : Number := ⟨false, Decimal.digits number, [], none⟩

/-- The whole number as a value. -/
def ofNat (number : Nat) : Json := .number (.ofNat number)

/-- Numbers from this power of ten on are written with an exponent. -/
def plainBelow : Int := 16

/-- Numbers below this power of ten are written with an exponent. -/
def plainFrom : Int := -5

/-- The number of a finite float: the fewest digits that read back, even ones if two decimals are
equally near, with a point and at least one digit behind it, or with one digit before the point and
an exponent if it is very large or very small. -/
def Number.ofFinite (negative : Bool) (mantissa : Nat) (exponent : Int) : Number :=
  let number := Decimal.shortest Decimal.roundHalfEven mantissa exponent
  let digits := Decimal.digits number.digits
  let leading := (digits.length : Int) + number.exponent - 1
  if number.digits = 0 ∨ plainFrom ≤ leading ∧ leading < plainBelow then
    let (whole, behind) := Decimal.place number
    ⟨negative, whole, if behind.isEmpty then [0] else behind, none⟩
  else ⟨negative, digits.take 1, digits.drop 1, some leading⟩

/-- A float as a value; null if it is not finite. -/
def ofFloat (x : Float) : Json :=
  match Decimal.Binary.ofFloat x with
  | .finite negative mantissa exponent => .number (.ofFinite negative mantissa exponent)
  | _ => .null

/-- A value that may be missing. -/
def ofOption {α : Type} (write : α → Json) : Option α → Json
  | none => .null
  | some value => write value

end Json

end AesTrials
