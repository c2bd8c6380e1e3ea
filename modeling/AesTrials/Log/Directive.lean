import AesTrials.Bytes
import AesTrials.Decimal.Reading
import AesTrials.Log.Level
import AesTrials.Pattern.Support
import AesTrials.Text.Blank
import AesTrials.Text.Parts

/-!
# Directives

A directive gives a level to records. It may be for records whose target begins with a text, that
lie in a span, or that have a field, which may be compared with a value:
`target[span{field=value}]=level`. The marks of a directive are looked for in its text without
blanks at the ends, but what stands between them is cut at the same places from the text as it was
given, so blanks in front move the cuts. A cut inside a character is more than a fault of the
directive: it stops the program.
-/

namespace AesTrials.Log

/-- A field that a directive asks for. -/
structure FieldTest where
  /-- The name of the field. -/
  name : String
  /-- What the field is compared with, if it is compared. -/
  value : Option String
deriving DecidableEq, Repr, Inhabited

/-- A level for some records. -/
structure Directive where
  /-- What targets begin with; empty for all. -/
  target : List Char
  /-- The name of the span in which records lie, if one is named. -/
  span : Option String
  /-- The field that records have, if one is named. -/
  field : Option FieldTest
  /-- The level for these records. -/
  level : Level
deriving DecidableEq, Repr, Inhabited

/-- What is wrong with a directive. -/
inductive DirectiveFault where
  /-- It does not have the form of a directive. -/
  | form
  /-- The level is none. -/
  | level
  /-- The value of the field is no pattern. -/
  | pattern (fault : Pattern.Fault)
  /-- It is cut inside a character. -/
  | cut
deriving DecidableEq, Repr, Inhabited

/-- The wording of a pattern's fault. -/
def patternMessage : Pattern.Fault → String
  | .refused => "error building NFA"
  | .boundary => "unsupported regex feature for DFAs: cannot build DFAs for regexes with " ++
      "Unicode word boundaries; switch to ASCII word boundaries, or heuristically enable " ++
      "Unicode word boundaries or use a different regex engine"

/-- The wording of the fault; none if it stops the program. -/
def DirectiveFault.message? : DirectiveFault → Option String
  | .form => some "invalid filter directive"
  | .level => some <| "error parsing level filter: expected one of \"off\", \"error\", " ++
      "\"warn\", \"info\", \"debug\", \"trace\", or a number 0-5"
  | .pattern fault => some <| "invalid field filter: " ++ patternMessage fault
  | .cut => none

/-- The text of a directive, to be cut at its marks. -/
structure DirectiveText where
  /-- The text as it was given. -/
  given : Bytes
  /-- The text without blanks at its ends. -/
  trimmed : Bytes
deriving DecidableEq, Repr, Inhabited

namespace DirectiveText

/-- A text with its blanks found. -/
def ofText (text : List Char) : DirectiveText :=
  ⟨Bytes.ofText (String.ofList text), Bytes.ofText (String.ofList (Text.trim text))⟩

/-- The first of some marks from a place on, and the place behind it. -/
def mark? (text : DirectiveText) (marks : List Char) (start : Nat) : Option (Char × Nat) :=
  let isOther (byte : UInt8) := !(marks.map fun c => c.toUInt8).contains byte
  let ahead := text.trimmed.drop start
  (ahead.dropWhile isOther).head?.map fun byte =>
    (Char.ofNat byte.toNat, start + (ahead.takeWhile isOther).length + 1)

/-- Whether no character lies on both sides of a place in the given text. -/
def isBoundary (text : DirectiveText) (place : Nat) : Bool :=
  match text.given[place]? with
  | none => true
  | some byte => byte &&& 0xc0 != 0x80

/-- The given text between two places that lie between characters. -/
def cut (text : DirectiveText) (start stop : Nat) : Except DirectiveFault String :=
  if text.isBoundary start && text.isBoundary stop then
    match Bytes.toText? ((text.given.take stop).drop start) with
    | some part => .ok part
    | none => .error .cut
  else .error .cut

/-- The level that the given text from a place on names; all levels if nothing is there. -/
def levelFrom (text : DirectiveText) (start : Nat) : Except DirectiveFault Level := do
  let name ← text.cut start text.given.length
  if name.isEmpty then .ok .trace
  else match Level.read? name.toList with
    | some level => .ok level
    | none => .error .level

end DirectiveText

/-- The test that the text in braces asks for: a name, and what stands behind the first equals sign,
up to the next one. A value that is no number has to be a pattern. -/
def FieldTest.read (text : String) : Except DirectiveFault FieldTest :=
  match Text.splitAt '=' text.toList with
  | name :: value :: _ =>
    if (Decimal.readFloat? value).isSome then .ok ⟨String.ofList name, some (String.ofList value)⟩
    else match Pattern.fault? value with
      | some fault => .error (.pattern fault)
      | none => .ok ⟨String.ofList name, some (String.ofList value)⟩
  | _ => .ok ⟨text, none⟩

namespace Directive

/-- Whether a directive may begin with the character, unless it begins with a bracket. -/
def mayBegin (c : Char) : Bool := Text.isAlphanumeric c || ['-', ':', '_'].contains c

/-- A directive with the level behind its closing bracket; all levels if nothing is there. -/
def readEnd (text : DirectiveText) (directive : Directive) (start : Nat) :
    Except DirectiveFault Directive :=
  match text.trimmed.drop start with
  | [] => .ok { directive with level := .trace }
  | mark :: _ =>
    if mark = '='.toUInt8 then
      (text.levelFrom (start + 1)).map fun level => { directive with level }
    else .error .form

/-- A directive with the field in the braces that open in front of a place. -/
def readField (text : DirectiveText) (directive : Directive) (start : Nat) :
    Except DirectiveFault Directive :=
  match text.mark? ['}'] start with
  | none => .error .form
  | some (_, behind) => do
    let field ← text.cut start (behind - 1)
    if field.isEmpty then .error .form
    else
      let field ← FieldTest.read field
      if text.trimmed[behind]? = some ']'.toUInt8 then
        readEnd text { directive with field := some field } (behind + 1)
      else .error .form

/-- The directive of a target and the brackets that open in front of a place. -/
def readBrackets (text : DirectiveText) (target : String) (start : Nat) :
    Except DirectiveFault Directive :=
  match text.mark? [']', '{'] start with
  | none => .error .form
  | some (mark, behind) => do
    let span ← text.cut start (behind - 1)
    if mark = ']' then readEnd text ⟨target.toList, some span, none, .trace⟩ behind
    else
      let span := if span.isEmpty then none else some span
      readField text ⟨target.toList, span, none, .trace⟩ behind

/-- The directive of a text that begins with a target or a level. -/
def readTarget (given : List Char) (text : DirectiveText) : Except DirectiveFault Directive :=
  match text.mark? ['=', '['] 0 with
  | none =>
    match Level.read? given with
    | some level => .ok ⟨[], none, none, level⟩
    | none => .ok ⟨given, none, none, .trace⟩
  | some (mark, behind) => do
    let target ← text.cut 0 (behind - 1)
    if mark = '=' then
      (text.levelFrom behind).map fun level => ⟨target.toList, none, none, level⟩
    else readBrackets text target behind

/-- The directive of a text. -/
def read (given : List Char) : Except DirectiveFault Directive :=
  match Text.trim given with
  | [] => .error .form
  | c :: _ =>
    if c = '[' then readBrackets (.ofText given) "" 1
    else if mayBegin c then readTarget given (.ofText given)
    else .error .form

end Directive

end AesTrials.Log
