import AesTrials.Decimal.Numeral
import AesTrials.Text.Case

/-!
# Levels

A level says how important a record is, or up to which importance records are written.
-/

namespace AesTrials.Log

/-- How much is written, and how important a record is. -/
inductive Level where
  /-- Nothing is written. -/
  | off
  /-- Errors. -/
  | error
  /-- Things that may be wrong. -/
  | warn
  /-- Progress. -/
  | info
  /-- Details of progress. -/
  | debug
  /-- Everything. -/
  | trace
deriving DecidableEq, Repr, Inhabited

namespace Level

/-- Every level, by how much it writes. -/
def all : List Level := [.off, .error, .warn, .info, .debug, .trace]

/-- The name of the level in records. -/
def name : Level → String
  | .off => "OFF"
  | .error => "ERROR"
  | .warn => "WARN"
  | .info => "INFO"
  | .debug => "DEBUG"
  | .trace => "TRACE"

/-- How much the level writes. -/
def rank : Level → Nat
  | .off => 0
  | .error => 1
  | .warn => 2
  | .info => 3
  | .debug => 4
  | .trace => 5

/-- The level of a name in letters of any case, or of a rank; errors for an empty text. -/
def read? (text : List Char) : Option Level :=
  match Decimal.readBelow? (Nat.pow 2 64) text with
  | some rank => all[rank]?
  | none =>
    if text.isEmpty then some .error
    else all.find? fun level => Text.sameLetters level.name.toList text

end Level

end AesTrials.Log
