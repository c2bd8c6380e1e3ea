/-!
# Patterns

A pattern is a regular expression. Only its form is kept: a pattern here is never compared with a
text, so repetitions have no bounds, operators on sets no names, and groups no numbers.
-/

namespace AesTrials

namespace Pattern

/-- What a letter at the beginning of a group switches on or off. -/
inductive Flag where
  /-- Letters stand for both of their cases. -/
  | ignoreCase
  /-- Lines have beginnings and ends. -/
  | multiLine
  /-- The point stands for the line feed too. -/
  | dotNewline
  /-- Greedy repetitions are lazy, and lazy ones greedy. -/
  | swapGreed
  /-- Characters are code points, not bytes. -/
  | unicode
  /-- The carriage return ends lines too. -/
  | crlf
  /-- Blanks and comments are skipped. -/
  | verbose
deriving DecidableEq, Repr, Inhabited

/-- Flags and whether each of them is switched on, in order. -/
abbrev Flags := List (Flag × Bool)

/-- A character that stands for itself. -/
structure Literal where
  /-- The character. -/
  char : Char
  /-- Whether it is written by two hexadecimal digits, which may stand for a byte. -/
  byteEscape : Bool
deriving DecidableEq, Repr, Inhabited

/-- A part of a set that has no parts of its own. -/
inductive SetItem where
  /-- A character. -/
  | literal (literal : Literal)
  /-- All characters from a first one to a last one. -/
  | range (first last : Literal)
  /-- A class of ASCII characters given by its name, or all others. -/
  | named (negated : Bool)
  /-- Digits, blanks or characters of words, or all others. -/
  | shorthand (negated : Bool)
  /-- The characters of a category. -/
  | category
deriving DecidableEq, Repr, Inhabited

/-- A set of characters. -/
inductive CharSet where
  /-- No character. -/
  | empty
  /-- The characters of an item. -/
  | item (item : SetItem)
  /-- A set in brackets of its own, or all characters outside of it. -/
  | bracketed (negated : Bool) (inner : CharSet)
  /-- The characters of several sets. -/
  | union (parts : List CharSet)
  /-- An operator between two sets. -/
  | operation (left right : CharSet)
deriving Repr, Inhabited

/-- The set of some parts. -/
def CharSet.ofParts : List CharSet → CharSet
  | [] => .empty
  | [part] => part
  | parts => .union parts

end Pattern

/-- A regular expression. -/
inductive Pattern where
  /-- The empty text. -/
  | empty
  /-- A character. -/
  | literal (literal : Pattern.Literal)
  /-- Any character, as the point says. -/
  | dot
  /-- The beginning or the end of a line or of the text. -/
  | anchor
  /-- A place where a word begins or ends, or where none does. -/
  | boundary
  /-- Digits, blanks or characters of words, or all others. -/
  | shorthand (negated : Bool)
  /-- The characters of a category. -/
  | category
  /-- The characters of a set in brackets, or all others. -/
  | set (negated : Bool) (contents : Pattern.CharSet)
  /-- Flags for all that follows in the group. -/
  | flags (flags : Pattern.Flags)
  /-- A group with flags of its own. -/
  | group (flags : Pattern.Flags) (body : Pattern)
  /-- Any number of times. -/
  | repetition (body : Pattern)
  /-- One part after the other. -/
  | sequence (parts : List Pattern)
  /-- One of several branches. -/
  | choice (branches : List Pattern)
deriving Repr, Inhabited

namespace Pattern

/-- The pattern of some parts one after the other. -/
def ofParts : List Pattern → Pattern
  | [] => .empty
  | [part] => part
  | parts => .sequence parts

/-! ## Nesting -/

mutual

/-- How deeply brackets, unions and operators are nested in a set. -/
def CharSet.height : CharSet → Nat
  | .empty | .item _ => 0
  | .bracketed _ inner => inner.height + 1
  | .union parts => CharSet.heights parts + 1
  | .operation left right => max left.height right.height + 1

/-- The greatest height of some sets. -/
def CharSet.heights : List CharSet → Nat
  | [] => 0
  | part :: parts => max part.height (CharSet.heights parts)

end

mutual

/-- How deeply sets, groups, repetitions, sequences and choices are nested in a pattern. -/
def height : Pattern → Nat
  | .empty | .literal _ | .dot | .anchor | .boundary | .shorthand _ | .category | .flags _ => 0
  | .set _ contents => contents.height + 1
  | .group _ body => body.height + 1
  | .repetition body => body.height + 1
  | .sequence parts => heights parts + 1
  | .choice branches => heights branches + 1

/-- The greatest height of some patterns. -/
def heights : List Pattern → Nat
  | [] => 0
  | part :: parts => max part.height (heights parts)

end

end Pattern

end AesTrials
