import AesTrials.Decimal.Numeral
import AesTrials.Text.Blank
import AesTrials.Text.Parts

/-!
# Hiding measured times

Two printed reports of the same runs differ in their times only. Masking replaces the digits of a
duration in JSON by a zero, and the time column of a row in a table by a letter.
-/

namespace AesTrials.Masking

/-- The line with the digits behind a field name replaced by a zero, if the line begins with that
name. -/
def hideField? (name : String) (line : List Char) : Option (List Char) :=
  let indent := line.takeWhile Text.isBlank
  (Text.behind? name.toList (Text.trimStart line)).map fun value =>
    indent ++ name.toList ++ '0' :: value.dropWhile Decimal.isDigit

/-- Whether a text is digits, a point and four digits. -/
def isTime (text : List Char) : Bool :=
  match text.dropWhile Decimal.isDigit with
  | '.' :: places =>
    !(text.takeWhile Decimal.isDigit).isEmpty && places.length == 4 && places.all Decimal.isDigit
  | _ => false

/-- First column of the time in a row. -/
def timeColumn : Nat := 24

/-- Width of the time in a row. -/
def timeWidth : Nat := 14

/-- The line with its time replaced, if it is a row of a table with a time. -/
def hideTime? (line : List Char) : Option (List Char) :=
  let time := (line.drop timeColumn).take timeWidth
  if ['A', 'E', 'S'].isPrefixOf line && isTime (Text.trimStart time) then
    some (line.take timeColumn ++ List.replicate (timeWidth - 1) ' ' ++
      'T' :: line.drop (timeColumn + timeWidth))
  else none

/-- A line without measured times. -/
def hideLine (line : List Char) : List Char :=
  match hideField? "\"secs\": " line, hideField? "\"nanos\": " line, hideTime? line with
  | some masked, _, _ | none, some masked, _ | none, none, some masked => masked
  | none, none, none => line

/-- The lines of a text without measured times. -/
def hide (text : String) : List String :=
  (Text.splitAt '\n' text.toList).map fun line => String.ofList (hideLine line)

end AesTrials.Masking
