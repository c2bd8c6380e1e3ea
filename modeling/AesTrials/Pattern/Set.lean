import AesTrials.Pattern.Escape

/-!
# Reading sets

A set in brackets holds characters, ranges, classes with names and sets in brackets of their own,
joined by operators that are written as a character twice. Fuel bounds the items and is never the
reason to fail when it exceeds the length of the text: every step takes a character.
-/

namespace AesTrials.Pattern

/-- How far the beginning of a set has been read. -/
inductive SetPhase where
  /-- Nothing has been read. -/
  | opened
  /-- The sign of negation may have been read. -/
  | leading
  /-- Dashes that stand for themselves have been read. -/
  | dashes
  /-- An item or an operator may follow. -/
  | inside
deriving DecidableEq, Repr, Inhabited

/-- A set that has been read in part. -/
structure OpenSet where
  /-- How far its beginning has been read. -/
  phase : SetPhase
  /-- Whether all other characters are meant. -/
  negated : Bool
  /-- What stands in front of the last operator, if there is one. -/
  left : Option CharSet
  /-- The parts since then, the last one first. -/
  parts : List CharSet
deriving Repr, Inhabited

namespace OpenSet

/-- A set of which nothing has been read. -/
def start : OpenSet := ⟨.opened, false, none, []⟩

/-- The set with one part more. -/
def add (set : OpenSet) (part : CharSet) : OpenSet :=
  { set with phase := .inside, parts := part :: set.parts }

/-- The set with a character more. -/
def addChar (set : OpenSet) (c : Char) : OpenSet := set.add (.item (.literal ⟨c, false⟩))

/-- All that has been read as one set. -/
def contents (set : OpenSet) : CharSet :=
  let right := CharSet.ofParts set.parts.reverse
  match set.left with
  | none => right
  | some left => .operation left right

/-- The set behind an operator. -/
def afterOperator (set : OpenSet) : OpenSet :=
  { set with phase := .inside, left := some set.contents, parts := [] }

end OpenSet

/-- The names of classes of ASCII characters. -/
def classNames : List String :=
  ["alnum", "alpha", "ascii", "blank", "cntrl", "digit", "graph", "lower", "print", "punct",
    "space", "upper", "word", "xdigit"]

/-- The class whose name stands between colons behind a bracket, and the text behind its closing
bracket. -/
def readNamed? : List Char → Option (SetItem × List Char)
  | ':' :: text =>
    let (negated, text) := match text with
      | '^' :: rest => (true, rest)
      | _ => (false, text)
    let name := text.takeWhile fun c => c != ':'
    match text.drop name.length with
    | ':' :: ']' :: rest =>
      if classNames.contains (String.ofList name) then some (.named negated, rest) else none
    | _ => none
  | _ => none

/-- What a character of a set and the text behind it begin with: an escape, or the character. -/
def readSetEscape? (verbose : Bool) (c : Char) (text : List Char) : Option (Escape × List Char) :=
  if c = '\\' then Escape.read? verbose text else some (.literal ⟨c, false⟩, text)

/-- The item of an escape that stands for characters. -/
def SetItem.ofEscape? : Escape → Option SetItem
  | .literal symbol => some (.literal symbol)
  | .shorthand negated => some (.shorthand negated)
  | .category => some .category
  | .anchor | .boundary => none

/-- The first character that is no blank and not the first number sign. -/
def peekGap (inComment : Bool) : List Char → Option Char
  | [] => none
  | c :: rest =>
    if Text.isBlank c then peekGap inComment rest
    else if !inComment && c == '#' then peekGap true rest
    else some c

/-- The character that decides what a dash in front of a text means: the next one, or the next one
behind a gap if the pattern is verbose and there is one. -/
def peek (verbose : Bool) (text : List Char) : Option Char :=
  if verbose then (peekGap false text).or text.head? else text.head?

/-- The character or range that begins with a character, and the text behind it. A dash in front of
a closing bracket or of another dash makes no range. -/
def readRange? (verbose : Bool) (c : Char) (text : List Char) : Option (SetItem × List Char) := do
  let (first, rest) ← readSetEscape? verbose c text
  match skip verbose rest with
  | [] => none
  | mark :: behind =>
    if mark ≠ '-' ∨ peek verbose behind = some ']' ∨ peek verbose behind = some '-' then
      let item ← SetItem.ofEscape? first
      some (item, mark :: behind)
    else match skip verbose behind with
      | [] => none
      | c :: rest =>
        match first, ← readSetEscape? verbose c rest with
        | .literal first, (.literal last, rest) =>
          if first.char.toNat ≤ last.char.toNat then some (.range first last, rest) else none
        | _, _ => none

/-- Whether a character written twice is an operator. -/
def isOperator (c : Char) : Bool := ['&', '-', '~'].contains c

/-- What a step through a set leads to. -/
inductive SetStep where
  /-- The innermost open set and those around it. -/
  | more (current : OpenSet) (outer : List OpenSet)
  /-- The outermost set has been closed. -/
  | closed (negated : Bool) (contents : CharSet)
deriving Repr, Inhabited

/-- The step for a character between items, and the text behind it. -/
def stepInside? (verbose : Bool) (current : OpenSet) (outer : List OpenSet) (c : Char)
    (text : List Char) : Option (SetStep × List Char) :=
  if c = '[' then
    match readNamed? text with
    | some (item, rest) => some (.more (current.add (.item item)) outer, rest)
    | none => some (.more .start (current :: outer), text)
  else if c = ']' then
    match outer with
    | [] => some (.closed current.negated current.contents, text)
    | next :: outer =>
      some (.more (next.add (.bracketed current.negated current.contents)) outer, text)
  else if isOperator c && text.head? == some c then
    some (.more current.afterOperator outer, text.tail)
  else do
    let (item, rest) ← readRange? verbose c text
    some (.more (current.add (.item item)) outer, rest)

/-- The step for a character, and the text behind it. -/
def stepSet? (verbose : Bool) (current : OpenSet) (outer : List OpenSet) (c : Char)
    (text : List Char) : Option (SetStep × List Char) :=
  match current.phase, c with
  | .opened, '^' => some (.more { current with phase := .leading, negated := true } outer, text)
  | .opened, '-' | .leading, '-' | .dashes, '-' =>
    some (.more { current.addChar '-' with phase := .dashes } outer, text)
  | .opened, ']' | .leading, ']' => some (.more (current.addChar ']') outer, text)
  | _, _ => stepInside? verbose { current with phase := .inside } outer c text

/-- The set behind an opening bracket, and the text behind its closing bracket. -/
def readSet? (verbose : Bool) : Nat → OpenSet → List OpenSet → List Char →
    Option (Bool × CharSet × List Char)
  | 0, _, _, _ => none
  | fuel + 1, current, outer, text =>
    match skip verbose text with
    | [] => none
    | c :: rest => do
      match ← stepSet? verbose current outer c rest with
      | (.closed negated contents, rest) => some (negated, contents, rest)
      | (.more current outer, rest) => readSet? verbose fuel current outer rest

end AesTrials.Pattern
