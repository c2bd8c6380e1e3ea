import AesTrials.Pattern.Basic
import AesTrials.Text.Blank
import AesTrials.Text.Hex

/-!
# Escapes

A backslash and what follows it stand for one character, for a set of characters or for a place
between characters, both inside and outside of sets. Where the pattern is verbose, blanks and
comments, which begin with a number sign and end with the line, may stand between the characters of
an escape.
-/

namespace AesTrials.Pattern

/-- The text without blanks and comments in front. -/
def skipGap (inComment : Bool) : List Char → List Char
  | [] => []
  | c :: rest =>
    if inComment then skipGap (c != '\n') rest
    else if Text.isBlank c then skipGap false rest
    else if c = '#' then skipGap true rest
    else c :: rest

/-- The text without what a verbose pattern skips in front. -/
def skip (verbose : Bool) (text : List Char) : List Char :=
  if verbose then skipGap false text else text

/-- What an escape stands for. -/
inductive Escape where
  /-- A character. -/
  | literal (literal : Literal)
  /-- The beginning or the end of the text. -/
  | anchor
  /-- A place where a word begins or ends, or where none does. -/
  | boundary
  /-- Digits, blanks or characters of words, or all others. -/
  | shorthand (negated : Bool)
  /-- The characters of a category. -/
  | category
deriving DecidableEq, Repr, Inhabited

namespace Escape

/-- The letters that stand for a control character behind a backslash. -/
def controls : List (Char × Char) :=
  [('a', '\x07'), ('f', '\x0c'), ('n', '\n'), ('r', '\r'), ('t', '\t'), ('v', '\x0b')]

/-- What a backslash and one character stand for. -/
def ofChar? (c : Char) : Option Escape :=
  if ['d', 's', 'w'].contains c then some (.shorthand false)
  else if ['D', 'S', 'W'].contains c then some (.shorthand true)
  else if ['A', 'z'].contains c then some .anchor
  else if ['b', 'B', '<', '>'].contains c then some .boundary
  else if c.toNat < 128 && !c.isAlphanum then some (.literal ⟨c, false⟩)
  else (controls.lookup c).map fun control => .literal ⟨control, false⟩

/-- The number of some hexadecimal digits, and the text behind them. -/
def readHex? (verbose : Bool) : Nat → Nat → List Char → Option (Nat × List Char)
  | 0, value, text => some (value, text)
  | _ + 1, _, [] => none
  | digits + 1, value, c :: rest => do
    let digit ← Text.hexValue? c
    readHex? verbose digits (16 * value + digit) (skip verbose rest)

/-- The character of a code point that is written by some hexadecimal digits. -/
def readCode? (verbose : Bool) (digits : Nat) (byteEscape : Bool) (text : List Char) :
    Option (Escape × List Char) := do
  let (value, rest) ← readHex? verbose digits 0 (skip verbose text)
  if value.isValidChar then some (.literal ⟨Char.ofNat value, byteEscape⟩, rest) else none

/-- The category of a letter. A name in braces is not read: here a brace is never closed. -/
def readCategory? (verbose : Bool) (text : List Char) : Option (Escape × List Char) :=
  match skip verbose text with
  | [] => none
  | c :: rest => if ['\\', '{'].contains c then none else some (.category, skip verbose rest)

/-- The escape behind a backslash, and the text behind it. -/
def read? (verbose : Bool) : List Char → Option (Escape × List Char)
  | [] => none
  | c :: rest =>
    if c = 'x' then readCode? verbose 2 true rest
    else if c = 'u' then readCode? verbose 4 false rest
    else if c = 'U' then readCode? verbose 8 false rest
    else if c = 'p' ∨ c = 'P' then readCategory? verbose rest
    else (ofChar? c).map fun escape => (escape, rest)

end Escape

end AesTrials.Pattern
