import AesTrials.Pattern.Parser

/-!
# Patterns that can be searched for

No tables of characters are at hand, so a pattern cannot ask for categories, for digits, blanks or
characters of words beyond ASCII, or for both cases of a letter beyond ASCII. Where characters are
bytes, it cannot ask for a byte outside of ASCII, since a match has to be a text. Word boundaries
beyond ASCII are a fault of their own, which counts only where there is no other.
-/

namespace AesTrials.Pattern

/-- The flags that decide what a pattern asks for. -/
structure Modes where
  /-- Letters stand for both of their cases. -/
  ignoreCase : Bool
  /-- Characters are code points, not bytes. -/
  unicode : Bool
deriving DecidableEq, Repr, Inhabited

namespace Modes

/-- The modes at the beginning of a pattern. -/
def start : Modes := ⟨false, true⟩

/-- The modes behind some flags. -/
def apply (modes : Modes) (flags : Flags) : Modes :=
  ⟨(flags.lookup .ignoreCase).getD modes.ignoreCase, (flags.lookup .unicode).getD modes.unicode⟩

/-- Whether a character outside of sets can be asked for. -/
def allowsLiteral (modes : Modes) (literal : Literal) : Bool :=
  if modes.unicode then !modes.ignoreCase
  else !literal.byteEscape || decide (literal.char.toNat < 128)

/-- Whether digits, blanks or characters of words, or all others, can be asked for. -/
def allowsShorthand (modes : Modes) (negated : Bool) : Bool := !modes.unicode && !negated

/-- Whether an item of a set can be asked for. -/
def allowsItem (modes : Modes) (item : SetItem) : Bool :=
  match item with
  | .category => false
  | .shorthand negated => modes.allowsShorthand negated
  | .literal symbol =>
    if modes.unicode then !modes.ignoreCase else decide (symbol.char.toNat < 128)
  | .range first last =>
    if modes.unicode then !modes.ignoreCase
    else decide (first.char.toNat < 128) && decide (last.char.toNat < 128)
  | .named negated => if modes.unicode then !modes.ignoreCase else !negated

mutual

/-- Whether a set can be asked for. -/
def allowsSet (modes : Modes) : CharSet → Bool
  | .empty => true
  | .item item => modes.allowsItem item
  | .bracketed negated inner => (modes.unicode || !negated) && modes.allowsSet inner
  | .union parts => modes.allowsSets parts
  | .operation left right => modes.allowsSet left && modes.allowsSet right

/-- Whether each of some sets can be asked for. -/
def allowsSets (modes : Modes) : List CharSet → Bool
  | [] => true
  | part :: parts => modes.allowsSet part && modes.allowsSets parts

end

end Modes

/-- What has been found on the way through a pattern. -/
structure Survey where
  /-- The modes that hold for what follows. -/
  modes : Modes
  /-- Whether all so far can be asked for. -/
  supported : Bool
  /-- Whether word boundaries beyond ASCII are asked for. -/
  boundary : Bool
deriving DecidableEq, Repr, Inhabited

namespace Survey

/-- Nothing has been found. -/
def start : Survey := ⟨.start, true, false⟩

/-- The survey after something that may be supported. -/
def require (survey : Survey) (supported : Bool) : Survey :=
  { survey with supported := survey.supported && supported }

mutual

/-- The survey after a pattern. Flags hold up to the end of the group, also in later branches. -/
def visit (survey : Survey) : Pattern → Survey
  | .empty | .anchor => survey
  | .literal symbol => survey.require (survey.modes.allowsLiteral symbol)
  | .dot => survey.require survey.modes.unicode
  | .boundary => { survey with boundary := survey.boundary || survey.modes.unicode }
  | .shorthand negated => survey.require (survey.modes.allowsShorthand negated)
  | .category => survey.require false
  | .set negated contents =>
    survey.require (survey.modes.allowsSet (.bracketed negated contents))
  | .flags change => { survey with modes := survey.modes.apply change }
  | .group change body =>
    { visit { survey with modes := survey.modes.apply change } body with modes := survey.modes }
  | .repetition body => survey.visit body
  | .sequence parts => survey.visitAll parts
  | .choice branches => survey.visitAll branches

/-- The survey after some patterns. -/
def visitAll (survey : Survey) : List Pattern → Survey
  | [] => survey
  | part :: parts => (survey.visit part).visitAll parts

end

end Survey

/-- What is wrong with a text that should be a pattern. -/
inductive Fault where
  /-- It is malformed, nested too deeply, or asks for what is not at hand. -/
  | refused
  /-- It asks for word boundaries beyond ASCII. -/
  | boundary
deriving DecidableEq, Repr, Inhabited

/-- What is wrong with a text, if it is no pattern that can be searched for. -/
def fault? (text : List Char) : Option Fault :=
  match read? text with
  | none => some .refused
  | some pattern =>
    let survey := Survey.start.visit pattern
    if !survey.supported then some .refused
    else if survey.boundary then some .boundary
    else none

end AesTrials.Pattern
