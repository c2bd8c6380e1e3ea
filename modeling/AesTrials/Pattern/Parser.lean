import AesTrials.Pattern.Set
import AesTrials.Text.Alphanumeric

/-!
# Reading patterns

A pattern is read from left to right; open groups wait on a stack for their closing parenthesis.
Fuel bounds the steps and is never the reason to fail when it exceeds the length of the text: every
step takes a character. Counted repetitions and look-around are not read.
-/

namespace AesTrials.Pattern

/-- The flag of a letter. -/
def Flag.ofChar? : Char → Option Flag
  | 'i' => some .ignoreCase
  | 'm' => some .multiLine
  | 's' => some .dotNewline
  | 'U' => some .swapGreed
  | 'u' => some .unicode
  | 'R' => some .crlf
  | 'x' => some .verbose
  | _ => none

/-- The flags in front of a colon or a closing parenthesis, that mark, and the text behind it. Each
flag is given once; those behind a minus sign, at least one, are switched off. -/
def readFlags? (read : Flags) (on dangling : Bool) :
    List Char → Option (Flags × Char × List Char)
  | [] => none
  | c :: rest =>
    if c = ':' ∨ c = ')' then if dangling then none else some (read.reverse, c, rest)
    else if c = '-' then if on then readFlags? read false true rest else none
    else match Flag.ofChar? c with
      | none => none
      | some flag =>
        if (read.lookup flag).isSome then none else readFlags? ((flag, on) :: read) on false rest

/-- Whether a text can be the name of a group. -/
def isGroupName : List Char → Bool
  | [] => false
  | c :: rest =>
    (c == '_' || Text.isAlphabetic c) &&
      rest.all fun c => Text.isAlphanumeric c || ['_', '.', '[', ']'].contains c

/-- A group that has been read in part, or the whole pattern. -/
structure OpenGroup where
  /-- The flags of the group. -/
  flags : Flags
  /-- Whether the pattern is verbose outside of the group. -/
  verboseOutside : Bool
  /-- The branches that are complete, the last one first. -/
  branches : List Pattern
  /-- The parts of the branch that is being read, the last one first. -/
  parts : List Pattern
deriving Repr, Inhabited

namespace OpenGroup

/-- The group with a part more. -/
def add (group : OpenGroup) (part : Pattern) : OpenGroup :=
  { group with parts := part :: group.parts }

/-- The branch that is being read. -/
def branch (group : OpenGroup) : Pattern := Pattern.ofParts group.parts.reverse

/-- All that has been read as one pattern. -/
def contents (group : OpenGroup) : Pattern :=
  if group.branches.isEmpty then group.branch
  else .choice (group.branch :: group.branches).reverse

/-- The group behind the sign between two branches. -/
def afterBranch (group : OpenGroup) : OpenGroup :=
  { group with branches := group.branch :: group.branches, parts := [] }

/-- The group with its last part repeated, if it has one that is not made of flags. -/
def repeatLast? (group : OpenGroup) : Option OpenGroup :=
  match group.parts with
  | [] | .flags _ :: _ => none
  | last :: before => some { group with parts := .repetition last :: before }

end OpenGroup

/-- How far a pattern has been read. -/
structure State where
  /-- Whether blanks and comments are skipped. -/
  verbose : Bool
  /-- The innermost open group. -/
  current : OpenGroup
  /-- The groups around it, the innermost one first. -/
  outer : List OpenGroup
  /-- The names of groups. -/
  names : List (List Char)
deriving Repr, Inhabited

namespace State

/-- Nothing has been read. -/
def start : State := ⟨false, ⟨[], false, [], []⟩, [], []⟩

/-- The state with a part more in the innermost group. -/
def add (state : State) (part : Pattern) : State :=
  { state with current := state.current.add part }

/-- The state inside a new group. -/
def enter (state : State) (flags : Flags) : State :=
  { state with
    verbose := (flags.lookup .verbose).getD state.verbose
    current := ⟨flags, state.verbose, [], []⟩
    outer := state.current :: state.outer }

/-- The state inside a new group with a name, unless another group has it. -/
def enterNamed? (state : State) (text : List Char) : Option (State × List Char) :=
  let name := text.takeWhile fun c => c != '>'
  match text.drop name.length with
  | [] => none
  | _ :: rest =>
    if isGroupName name && !state.names.contains name then
      some ({ state.enter [] with names := name :: state.names }, rest)
    else none

/-- The state behind the flags at the beginning of a group, or behind a group of nothing else. -/
def enterFlagged? (state : State) (text : List Char) : Option (State × List Char) := do
  let (change, mark, rest) ← readFlags? [] true false text
  if mark = ':' then some (state.enter change, rest)
  else if change.isEmpty then none
  else
    let verbose := (change.lookup .verbose).getD state.verbose
    some ({ state.add (.flags change) with verbose }, rest)

/-- The state behind an opening parenthesis. -/
def enter? (state : State) (text : List Char) : Option (State × List Char) :=
  match skip state.verbose text with
  | '?' :: '<' :: '=' :: _ | '?' :: '<' :: '!' :: _ => none
  | '?' :: '<' :: rest | '?' :: 'P' :: '<' :: rest => state.enterNamed? rest
  | '?' :: rest => state.enterFlagged? rest
  | rest => some (state.enter [], rest)

/-- The state behind a closing parenthesis, if a group is open. -/
def leave? (state : State) : Option State :=
  match state.outer with
  | [] => none
  | next :: outer =>
    some { state with
      verbose := state.current.verboseOutside
      current := next.add (.group state.current.flags state.current.contents)
      outer }

/-- The pattern of an escape. -/
def ofEscape : Escape → Pattern
  | .literal symbol => .literal symbol
  | .anchor => .anchor
  | .boundary => .boundary
  | .shorthand negated => .shorthand negated
  | .category => .category

/-- The state behind a character and what belongs to it, and the text behind that. -/
def step? (state : State) (c : Char) (text : List Char) : Option (State × List Char) :=
  match c with
  | '(' => state.enter? text
  | ')' => state.leave?.map fun state => (state, text)
  | '|' => some ({ state with current := state.current.afterBranch }, text)
  | '[' => do
    let (negated, contents, rest) ← readSet? state.verbose (text.length + 1) .start [] text
    some (state.add (.set negated contents), rest)
  | '{' => none
  | '*' | '+' | '?' => do
    let current ← state.current.repeatLast?
    some ({ state with current }, if text.head? = some '?' then text.tail else text)
  | '\\' => do
    let (escape, rest) ← Escape.read? state.verbose text
    some (state.add (ofEscape escape), rest)
  | '.' => some (state.add .dot, text)
  | '^' | '$' => some (state.add .anchor, text)
  | _ => some (state.add (.literal ⟨c, false⟩), text)

/-- The state behind a whole text. -/
def readAll? : Nat → State → List Char → Option State
  | 0, _, _ => none
  | fuel + 1, state, text =>
    match skip state.verbose text with
    | [] => some state
    | c :: rest => do
      let (state, rest) ← state.step? c rest
      readAll? fuel state rest

end State

/-- How deeply a pattern may be nested. -/
def heightLimit : Nat := 250

/-- The pattern of a text, unless it is malformed or nested too deeply. -/
def read? (text : List Char) : Option Pattern := do
  let state ← State.start.readAll? (text.length + 1) text
  let pattern := state.current.contents
  if state.outer.isEmpty && pattern.height ≤ heightLimit then some pattern else none

end AesTrials.Pattern
