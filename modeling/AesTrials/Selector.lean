import AesTrials.Decimal.Numeral
import AesTrials.Family
import AesTrials.Text.Blank
import AesTrials.Text.Case
import AesTrials.Text.Parts

/-!
# Selectors

A variant is chosen by a text such as `aes256-gcm`: the letters `aes`, the width of the key in
bits, a hyphen and the name of the family. Reading ignores the case of letters and white space
around the text; writing gives the one canonical form. Lists of selectors are separated by commas
and may hold blank entries.
-/

namespace AesTrials

/-- A family at one key width. -/
structure Selector where
  /-- The construction. -/
  family : Family
  /-- The width of the key. -/
  width : KeyWidth
deriving DecidableEq, Repr, Inhabited

/-- Why a text is not a selector. -/
inductive SelectorError where
  /-- It does not begin with `aes`, or no hyphen follows. -/
  | malformed (selector : String)
  /-- The text before the hyphen is not a key width. -/
  | unsupportedKeySize (bits : String)
  /-- The text after the hyphen names no family. -/
  | unknownFamily (family : String)
deriving DecidableEq, Repr, Inhabited

/-- The wording of the error. -/
def SelectorError.message : SelectorError → String
  | .malformed selector =>
    "variant selector `" ++ selector ++ "` is not of the form aes<bits>-<family>"
  | .unsupportedKeySize bits =>
    "unsupported key size `" ++ bits ++ "`; expected 128, 192 or 256"
  | .unknownFamily family => "unknown variant family `" ++ family ++ "`"

/-- The family of a name, in letters of any case. -/
def Family.read (name : List Char) : Except SelectorError Family :=
  match Family.all.find? (fun family => Text.sameLetters family.id.toList name) with
  | some family => .ok family
  | none => .error (.unknownFamily (String.ofList name))

namespace Selector

/-- The canonical form. -/
def write (selector : Selector) : String :=
  "aes" ++ toString selector.width.bits ++ "-" ++ selector.family.id

/-- The text behind the letters `aes` in any case. -/
def afterLetters? : List Char → Option (List Char)
  | a :: e :: s :: rest => if Text.sameLetters [a, e, s] ['a', 'e', 's'] then some rest else none
  | _ => none

/-- The width written in bits. -/
def readWidth? (bits : List Char) : Option KeyWidth := do
  let number ← Decimal.readBelow? (Nat.pow 2 32) bits
  KeyWidth.ofBits? number

/-- The selector of a text without white space around it. -/
def readTrimmed (text : List Char) : Except SelectorError Selector :=
  match (afterLetters? text).bind (Text.splitFirst? '-') with
  | none => .error (.malformed (String.ofList text))
  | some (bits, name) =>
    match readWidth? bits with
    | none => .error (.unsupportedKeySize (String.ofList bits))
    | some width =>
      match Family.read name with
      | .error error => .error error
      | .ok family => .ok ⟨family, width⟩

/-- The selector of a text. -/
def read (text : String) : Except SelectorError Selector :=
  readTrimmed (Text.trim text.toList)

/-- The selectors of a list separated by commas, blank entries left out; the first entry that is
not a selector gives the error. -/
def readList (text : String) : Except SelectorError (List Selector) :=
  (((Text.splitAt ',' text.toList).map Text.trim).filter fun entry => !entry.isEmpty).mapM
    readTrimmed

/-- The variants compared by default: the smallest and the largest width of every family but the
one with the wide nonce, family by family. -/
def standardSuite : List Selector :=
  (Family.all.filter fun family => family != .gcmWide).flatMap fun family =>
    [⟨family, .w128⟩, ⟨family, .w256⟩]

/-- The canonical form reads back. -/
theorem read_write (selector : Selector) : read selector.write = .ok selector := by
  obtain ⟨family, width⟩ := selector
  cases family <;> cases width <;> rfl

end Selector

end AesTrials
