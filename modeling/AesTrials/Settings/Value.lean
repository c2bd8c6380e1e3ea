import AesTrials.Decimal.Layout
import AesTrials.Decimal.Reading
import AesTrials.Settings.Keyed
import AesTrials.Settings.Path
import AesTrials.Text.Case

/-!
# Values of settings

A setting is given as a text. What the text looks like decides what it is taken for: a truth value,
else a whole number of 63 bits and a sign, else a float, else a text. The type that is wanted then
decides how that is read, so a text that looks like a number comes back in another spelling. Texts
given for places inside a setting make it a group or a list, which only a choice can be read from.
-/

namespace AesTrials

/-- What a setting is taken for. -/
inductive Setting where
  /-- A truth value. -/
  | bool (value : Bool)
  /-- A whole number. -/
  | int (value : Int)
  /-- A float. -/
  | float (value : Float)
  /-- Any other text. -/
  | text (value : String)
  /-- Parts under their names. -/
  | group (parts : List (String × Setting))
  /-- As many items as the length says, and those of them that were given, under their places. -/
  | list (length : Nat) (items : List (Nat × Setting))
deriving Inhabited

namespace Setting

/-- What a text is taken for. -/
def ofText (text : String) : Setting :=
  if Text.lower text == "true" then .bool true
  else if Text.lower text == "false" then .bool false
  else
    match Decimal.readSigned? text.toList, Decimal.readFloat? text.toList with
    | some number, _ => .int number
    | none, some number => .float number
    | none, none => .text text

/-- The parts of a setting; none unless it is a group. -/
def parts : Option Setting → List (String × Setting)
  | some (.group parts) => parts
  | _ => []

/-- The length of a setting, which is zero unless it is a list. -/
def length : Option Setting → Nat
  | some (.list length _) => length
  | _ => 0

/-- The items of a setting that were given; none unless it is a list. -/
def items : Option Setting → List (Nat × Setting)
  | some (.list _ items) => items
  | _ => []

@[simp] theorem parts_group (given : List (String × Setting)) :
    parts (some (.group given)) = given := rfl

@[simp] theorem length_list (count : Nat) (given : List (Nat × Setting)) :
    length (some (.list count given)) = count := rfl

@[simp] theorem items_list (count : Nat) (given : List (Nat × Setting)) :
    items (some (.list count given)) = given := rfl

/-- A setting, if there is one, after a value has been given for the place at the end of some steps
into it. A step by name makes the setting a group and a step by index makes it a list, unless it is
one. No setting is made if an index stands for no place. -/
def give? (value : Setting) : List SettingStep → Option Setting → Option Setting
  | [], _ => some value
  | .part name :: steps, setting => do
    let inner ← give? value steps ((parts setting).lookup name)
    some (.group (Keyed.assign name inner (parts setting)))
  | .item index :: steps, setting => do
    let place ← SettingStep.place? index (length setting)
    let inner ← give? value steps ((items setting).lookup place)
    some (.list (max (length setting) (place + 1)) (Keyed.assign place inner (items setting)))

/-- The truth value of a word other than a digit. -/
def word? (text : String) : Option Bool :=
  if ["true", "on", "yes"].contains (Text.lower text) then some true
  else if ["false", "off", "no"].contains (Text.lower text) then some false
  else none

/-- One more than the largest unsigned value. -/
def unsignedLimit : Nat := Nat.pow 2 64

/-- The setting as an unsigned number. -/
def toNat? : Setting → Option Nat
  | .bool value => some (if value then 1 else 0)
  | .int value => if value < 0 then none else some value.toNat
  | .float value => some (Decimal.toNatBelow unsignedLimit value)
  | .text value =>
    match word? value with
    | some value => some (if value then 1 else 0)
    | none => Decimal.readBelow? unsignedLimit value.toList
  | .group _ | .list .. => none

/-- The setting as a truth value. -/
def toBool? : Setting → Option Bool
  | .bool value => some value
  | .int value => some (value != 0)
  | .float value => some (value != 0.0)
  | .text value =>
    if value == "1" then some true else if value == "0" then some false else word? value
  | .group _ | .list .. => none

/-- The setting as a text. -/
def toText? : Setting → Option String
  | .bool value => some (if value then "true" else "false")
  | .int value =>
    some (String.ofList (Decimal.sign (value < 0) ++ Decimal.write value.natAbs))
  | .float value => some (Decimal.writeShortest value)
  | .text value => some value
  | .group _ | .list .. => none

/-- The name of what the setting chooses: its text, or the name of the only part of a group. -/
def choice? : Setting → Option String
  | .text value | .group [(value, _)] => some value
  | _ => none

/-- The entry that the setting chooses by its name in letters of any case. -/
def choose? {α : Type} (entries : List (String × α)) (setting : Setting) : Option α := do
  let name ← setting.choice?
  let entry ← entries.find? fun entry => entry.1 == Text.lower name
  some entry.2

end Setting

end AesTrials
