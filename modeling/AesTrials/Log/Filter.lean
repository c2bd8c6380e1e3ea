import AesTrials.Log.Directive
import AesTrials.Log.Event

/-!
# Which records are written

A filter is a list of directives separated by commas. Of the directives that apply to a record, the
most specific one says up to which level it is written: the one with the longest target, then one
that asks for a field, then the one whose field name comes last, then the last one given. A record
to which no directive applies is not written.
-/

namespace AesTrials.Log

namespace Directive

/-- Whether the directive applies to a record. Records are made outside of every span, and values
are compared with fields of spans only. -/
def applies (directive : Directive) (event : Event) : Bool :=
  directive.span.isNone && directive.target.isPrefixOf event.target.toList &&
    match directive.field with
    | none => true
    | some field =>
      field.value.isNone && (event.fields.map fun named => named.1).contains field.name

/-- Whether the directive goes before an earlier one that applies to the same record. -/
def outranks (next earlier : Directive) : Bool :=
  if next.target.length ≠ earlier.target.length then
    decide (earlier.target.length < next.target.length)
  else match earlier.field, next.field with
    | none, _ => true
    | some _, none => false
    | some before, some after => !decide (after.name < before.name)

end Directive

/-- Directives in the order in which they were given. -/
abbrev Filter := List Directive

namespace Filter

/-- The parts of a text that may be directives. -/
def parts (text : String) : List (List Char) :=
  (Text.splitAt ',' text.toList).filter fun part => !part.isEmpty

/-- The filter that writes errors only, used where no directive is given. -/
def errorsOnly : Filter := [⟨[], none, none, .error⟩]

/-- The filter of directives; errors only if there are none. -/
def ofDirectives (directives : List Directive) : Filter :=
  if directives.isEmpty then errorsOnly else directives

/-- The filter of a text, or the fault of the first part that is no directive. -/
def read (text : String) : Except DirectiveFault Filter :=
  ((parts text).mapM Directive.read).map ofDirectives

/-- The directives among some parts and a line for each of the others; no directives if a part
stops the program, and no line for what comes behind it. -/
def readKnownParts : List (List Char) → Option (List Directive) × List String
  | [] => (some [], [])
  | part :: rest =>
    let (directives, lines) := readKnownParts rest
    match Directive.read part with
    | .ok directive => (directives.map (directive :: ·), lines)
    | .error fault =>
      match fault.message? with
      | some message =>
        (directives, ("ignoring `" ++ String.ofList part ++ "`: " ++ message) :: lines)
      | none => (none, [])

/-- The filter of the parts of a text that are directives, and a line for each of the others; no
filter if a part stops the program. -/
def readKnown (text : String) : Option Filter × List String :=
  let (directives, lines) := readKnownParts (parts text)
  (directives.map ofDirectives, lines)

/-- The one of two directives that counts, where the first one may be missing. -/
def prefer (best : Option Directive) (next : Directive) : Option Directive :=
  match best with
  | none => some next
  | some earlier => if next.outranks earlier then some next else some earlier

/-- How much is written of records like the given one. -/
def levelFor (filter : Filter) (event : Event) : Level :=
  match (filter.filter (Directive.applies · event)).foldl prefer none with
  | some directive => directive.level
  | none => .off

/-- Whether a record is written. -/
def allows (filter : Filter) (event : Event) : Bool :=
  event.level.rank ≤ (filter.levelFor event).rank

end Filter

end AesTrials.Log
