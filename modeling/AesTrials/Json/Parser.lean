import AesTrials.Json.Basic
import AesTrials.Text.Hex

/-!
# Reading JSON

The reader takes one value from the front of a text. It keeps every field of an object and every
unit of a string; whether they make sense is for the reader of a type to say. Fuel bounds the steps
of the mutual recursion and is never the reason to fail when it is the length of the text: every
step takes a character.
-/

namespace AesTrials.Json

/-- Whether the character may stand between tokens. -/
def isSpace (c : Char) : Bool := c = ' ' || c = '\t' || c = '\n' || c = '\r'

/-- The text without space in front. -/
def skip (text : List Char) : List Char := text.dropWhile isSpace

/-- The unit of four hexadecimal digits. -/
def hexUnit? (a b c d : Char) : Option Nat := do
  let a ← Text.hexValue? a
  let b ← Text.hexValue? b
  let c ← Text.hexValue? c
  let d ← Text.hexValue? d
  some (4096 * a + 256 * b + 16 * c + d)

/-- The unit that a letter behind a backslash stands for. -/
def escaped? (c : Char) : Option Nat :=
  if c = '"' then some 34
  else if c = '\\' then some 92
  else if c = '/' then some 47
  else if c = 'b' then some 8
  else if c = 'f' then some 12
  else if c = 'n' then some 10
  else if c = 'r' then some 13
  else if c = 't' then some 9
  else none

/-- The units up to the closing quote, after the units read so far in reverse, and the text behind
the quote. -/
def readUnits : List Nat → List Char → Option (List Nat × List Char)
  | _, [] => none
  | read, '"' :: rest => some (read.reverse, rest)
  | read, '\\' :: 'u' :: a :: b :: c :: d :: rest =>
    match hexUnit? a b c d with
    | none => none
    | some unit => readUnits (unit :: read) rest
  | read, '\\' :: letter :: rest =>
    match escaped? letter with
    | none => none
    | some unit => readUnits (unit :: read) rest
  | read, c :: rest => if c = '\\' ∨ c.toNat < 32 then none else readUnits (c.toNat :: read) rest

/-- The digits at the front of a text and the text behind them. -/
def readDigits (text : List Char) : List Nat × List Char :=
  ((text.takeWhile Decimal.isDigit).map fun c => c.toNat - 48, text.dropWhile Decimal.isDigit)

/-- The digits before the point: a single zero, or digits that do not begin with one. -/
def readWhole (text : List Char) : Option (List Nat × List Char) :=
  match readDigits text with
  | ([], _) => none
  | (0 :: _ :: _, _) => none
  | found => some found

/-- The point and the digits behind it, if there is a point. -/
def readBehind (text : List Char) : Option (List Nat × List Char) :=
  match text with
  | '.' :: rest =>
    match readDigits rest with
    | ([], _) => none
    | found => some found
  | _ => some ([], text)

/-- The digits of an exponent with the given sign. -/
def readPower (negative : Bool) (text : List Char) : Option (Option Int × List Char) :=
  match readDigits text with
  | ([], _) => none
  | (digits, rest) =>
    let power : Int := Decimal.ofDigits digits
    some (some (if negative then -power else power), rest)

/-- The exponent, if there is one. -/
def readExponent (text : List Char) : Option (Option Int × List Char) :=
  match text with
  | c :: rest =>
    if c = 'e' ∨ c = 'E' then
      match rest with
      | '+' :: rest => readPower false rest
      | '-' :: rest => readPower true rest
      | _ => readPower false rest
    else some (none, text)
  | [] => some (none, [])

/-- The parts of a number whose sign has been read. -/
def readNumber (negative : Bool) (text : List Char) : Option (Json × List Char) := do
  let (whole, rest) ← readWhole text
  let (behind, rest) ← readBehind rest
  let (exponent, rest) ← readExponent rest
  some (.number { negative, whole, behind, exponent }, rest)

/-- The text behind a word, if it begins with it. -/
def behindWord? (word text : List Char) : Option (List Char) :=
  if word.isPrefixOf text then some (text.drop word.length) else none

/-- The value of a word and the text behind it. -/
def readWord (word : List Char) (value : Json) (text : List Char) : Option (Json × List Char) :=
  (behindWord? word text).map fun rest => (value, rest)

mutual

/-- The value at the front of a text and the text behind it. -/
def readValue : Nat → List Char → Option (Json × List Char)
  | 0, _ => none
  | fuel + 1, text =>
    match skip text with
    | [] => none
    | '"' :: rest =>
      match readUnits [] rest with
      | none => none
      | some (units, rest) => some (.string units, rest)
    | '[' :: rest =>
      match skip rest with
      | ']' :: rest => some (.array [], rest)
      | _ => readItems fuel [] rest
    | '{' :: rest =>
      match skip rest with
      | '}' :: rest => some (.object [], rest)
      | _ => readFields fuel [] rest
    | '-' :: rest => readNumber true rest
    | c :: rest =>
      if c = 'n' then readWord ['u', 'l', 'l'] .null rest
      else if c = 't' then readWord ['r', 'u', 'e'] (.bool true) rest
      else if c = 'f' then readWord ['a', 'l', 's', 'e'] (.bool false) rest
      else readNumber false (c :: rest)

/-- The items up to the closing bracket, after the items read so far in reverse. -/
def readItems : Nat → List Json → List Char → Option (Json × List Char)
  | 0, _, _ => none
  | fuel + 1, read, text =>
    match readValue fuel text with
    | none => none
    | some (item, rest) =>
      match skip rest with
      | ',' :: rest => readItems fuel (item :: read) rest
      | ']' :: rest => some (.array (item :: read).reverse, rest)
      | _ => none

/-- The fields up to the closing brace, after the fields read so far in reverse. -/
def readFields : Nat → List (List Nat × Json) → List Char → Option (Json × List Char)
  | 0, _, _ => none
  | fuel + 1, read, text =>
    match skip text with
    | '"' :: rest =>
      match readUnits [] rest with
      | none => none
      | some (name, rest) =>
        match skip rest with
        | ':' :: rest =>
          match readValue fuel rest with
          | none => none
          | some (value, rest) =>
            match skip rest with
            | ',' :: rest => readFields fuel ((name, value) :: read) rest
            | '}' :: rest => some (.object ((name, value) :: read).reverse, rest)
            | _ => none
        | _ => none
    | _ => none

end

/-- The value of a whole text, space around it allowed. -/
def read? (text : List Char) : Option Json :=
  match readValue (text.length + 1) text with
  | some (value, rest) => if (skip rest).isEmpty then some value else none
  | none => none

end AesTrials.Json
