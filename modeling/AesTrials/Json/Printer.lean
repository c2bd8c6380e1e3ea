import AesTrials.Json.Basic
import AesTrials.Text.Hex

/-!
# Writing JSON

Values are written on one line without spaces, or one item a line with two spaces for each level.
Strings escape the quote, the backslash and the characters below the space, nothing else.
-/

namespace AesTrials.Json

/-- The escape of a code unit by its four hexadecimal digits. -/
def escapeUnit (unit : Nat) : List Char :=
  ['\\', 'u', Text.hexDigit (unit / 4096 % 16), Text.hexDigit (unit / 256 % 16),
    Text.hexDigit (unit / 16 % 16), Text.hexDigit (unit % 16)]

/-- Whether the unit is half a surrogate pair. -/
def isSurrogate (unit : Nat) : Bool := 0xd800 ≤ unit && unit < 0xe000

/-- A unit inside a string. -/
def writeUnit (unit : Nat) : List Char :=
  if unit = 34 then ['\\', '"']
  else if unit = 92 then ['\\', '\\']
  else if unit = 8 then ['\\', 'b']
  else if unit = 9 then ['\\', 't']
  else if unit = 10 then ['\\', 'n']
  else if unit = 12 then ['\\', 'f']
  else if unit = 13 then ['\\', 'r']
  else if unit < 32 ∨ isSurrogate unit then escapeUnit unit
  else [Char.ofNat unit]

/-- A string in quotes. -/
def writeString (units : List Nat) : List Char :=
  '"' :: (units.flatMap writeUnit ++ ['"'])

/-- The exponent of a number, its sign always written. -/
def writeExponent : Option Int → List Char
  | none => []
  | some (.ofNat n) => 'e' :: '+' :: Decimal.write n
  | some (.negSucc n) => 'e' :: '-' :: Decimal.write (n + 1)

/-- A number. -/
def Number.write (number : Number) : List Char :=
  Decimal.sign number.negative ++ Decimal.point (number.whole, number.behind) ++
    writeExponent number.exponent

/-- A truth value. -/
def writeBool (value : Bool) : List Char :=
  if value then ['t', 'r', 'u', 'e'] else ['f', 'a', 'l', 's', 'e']

mutual

/-- A value on one line. -/
def compact : Json → List Char
  | .null => ['n', 'u', 'l', 'l']
  | .bool value => writeBool value
  | .number value => value.write
  | .string units => writeString units
  | .array items => '[' :: (compactItems items ++ [']'])
  | .object fields => '{' :: (compactFields fields ++ ['}'])

/-- Items with commas between them. -/
def compactItems : List Json → List Char
  | [] => []
  | [item] => compact item
  | item :: next :: items => compact item ++ ',' :: compactItems (next :: items)

/-- Fields with commas between them. -/
def compactFields : List (List Nat × Json) → List Char
  | [] => []
  | [(name, value)] => writeString name ++ ':' :: compact value
  | (name, value) :: next :: fields =>
    writeString name ++ ':' :: (compact value ++ ',' :: compactFields (next :: fields))

end

/-- A new line at a level. -/
def newLine (level : Nat) : List Char := '\n' :: List.replicate (2 * level) ' '

mutual

/-- A value whose own line is at the given level. -/
def pretty (level : Nat) : Json → List Char
  | .null => ['n', 'u', 'l', 'l']
  | .bool value => writeBool value
  | .number value => value.write
  | .string units => writeString units
  | .array [] => ['[', ']']
  | .array (item :: items) =>
    '[' :: (newLine (level + 1) ++ (prettyItems (level + 1) (item :: items) ++
      (newLine level ++ [']'])))
  | .object [] => ['{', '}']
  | .object (field :: fields) =>
    '{' :: (newLine (level + 1) ++ (prettyFields (level + 1) (field :: fields) ++
      (newLine level ++ ['}'])))

/-- Items on lines of their own. -/
def prettyItems (level : Nat) : List Json → List Char
  | [] => []
  | [item] => pretty level item
  | item :: next :: items =>
    pretty level item ++ ',' :: (newLine level ++ prettyItems level (next :: items))

/-- Fields on lines of their own. -/
def prettyFields (level : Nat) : List (List Nat × Json) → List Char
  | [] => []
  | [(name, value)] => writeString name ++ ':' :: ' ' :: pretty level value
  | (name, value) :: next :: fields =>
    writeString name ++ ':' :: ' ' :: (pretty level value ++
      ',' :: (newLine level ++ prettyFields level (next :: fields)))

end

end AesTrials.Json
