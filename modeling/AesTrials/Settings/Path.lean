import AesTrials.Decimal.Numeral
import AesTrials.Text.Parts

/-!
# Names of settings

A variable of this program has a key, which names a setting or a place inside one: steps behind the
name lead to a part of a group by its name or to an item of a list by its index. A key that does not
have this form is a name as a whole.
-/

namespace AesTrials

/-- A step into a setting. -/
inductive SettingStep where
  /-- To the part of a group with a name. -/
  | part (name : String)
  /-- To the item of a list at an index, which is counted from the end if it is negative. -/
  | item (index : Int)
deriving DecidableEq, Repr, Inhabited

namespace SettingStep

/-- One more than the greatest index that a list can have an item at. An item takes 96 bytes, and
fewer than `2 ^ 63` bytes can be asked for. -/
def indexLimit : Nat := (Nat.pow 2 63 - 1) / 96

/-- The place that an index stands for in a list of some length. The list grows as far as needed,
but it has no item in front of the first. -/
def place? (index : Int) (length : Nat) : Option Nat :=
  if 0 ≤ index then
    if index < indexLimit then some index.toNat else none
  else
    if index.natAbs ≤ length then some (length - index.natAbs) else none

/-- Two items can be counted from the end of a list of two. -/
example : place? (-2) 2 = some 0 ∧ place? (-3) 2 = none := by decide

end SettingStep

/-- A setting and the way to a place inside it. -/
structure SettingPath where
  /-- The name of the setting. -/
  setting : String
  /-- The steps from the setting to the place. -/
  steps : List SettingStep
deriving DecidableEq, Repr, Inhabited

namespace SettingPath

/-- All steps to the place, the first of them to the setting. -/
def toSteps (path : SettingPath) : List SettingStep := .part path.setting :: path.steps

/-- Whether names of settings and of parts may hold the character. -/
def isNameChar (c : Char) : Bool := c.isAlphanum || c == ' ' || c == '_' || c == '-'

/-- The name that a text is, if it is one. -/
def readName? (text : List Char) : Option String :=
  if !text.isEmpty && text.all isNameChar then some (String.ofList text) else none

/-- Whether the character is a space or a tab. -/
def isGap (c : Char) : Bool := c == ' ' || c == '\t'

/-- The index between the brackets of a step: digits, perhaps behind a minus sign, with gaps around
them. -/
def readIndex? (text : List Char) : Option Int :=
  let trimmed := ((text.dropWhile isGap).reverse.dropWhile isGap).reverse
  if trimmed.head? = some '+' then none else Decimal.readSigned? trimmed

/-- The step of a text: a name behind a point, or an index in brackets. -/
def readStep? : List Char → Option SettingStep
  | '.' :: name => (readName? name).map .part
  | '[' :: rest =>
    if rest.getLast? = some ']' then (readIndex? rest.dropLast).map .item else none
  | _ => none

/-- The path of a text, cut in front of each point and each opening bracket. -/
def read? (text : List Char) : Option SettingPath :=
  match text.splitBy fun _ next => next != '.' && next != '[' with
  | [] => none
  | name :: steps => do
    let setting ← readName? name
    let steps ← steps.mapM readStep?
    some { setting, steps }

/-- What every variable of this program begins with, in lower case. -/
def family : String := "cipherbench_"

/-- The character in lower case, if that is a letter from a to z; one of them is the lower case of
the Kelvin sign too. -/
def lowerLetter (c : Char) : Char := if c.toNat = 0x212a then 'k' else c.toLower

/-- The key of a variable, which is what stands behind the beginning of its name, if the variable
belongs to this program. -/
def key? (name : String) : Option String :=
  (Text.behind? family.toList (name.toList.map lowerLetter)).map String.ofList

/-- The path that a key stands for. -/
def ofKey (key : String) : SettingPath := (read? key.toList).getD ⟨key, []⟩

end SettingPath

end AesTrials
