import AesTrials.Decimal.Numeral
import AesTrials.Report.Basic
import AesTrials.Text.Blank

/-!
# The menu

The dialogue reads one line at a time and answers each with a list of actions. It is at the menu or
at one of three questions; new parameters take effect together, once the third question is
answered. Running a suite is an action like printing a text, so nothing here depends on how a
suite comes out.
-/

namespace AesTrials

/-- What a line means at the menu. -/
inductive MenuChoice where
  /-- Run the suite again. -/
  | rerun
  /-- Change the parameters. -/
  | change
  /-- Run the sweep. -/
  | sweep
  /-- End the session. -/
  | quit
  /-- None of these. -/
  | unknown
deriving DecidableEq, Repr, Inhabited

/-- The choice of the first character that is not blank; a blank line runs the suite again. -/
def MenuChoice.read (line : List Char) : MenuChoice :=
  match Text.trimStart line with
  | [] => .rerun
  | c :: _ =>
    let c := c.toLower
    if c = 'r' then .rerun
    else if c = 'c' then .change
    else if c = 's' then .sweep
    else if c = 'q' then .quit
    else .unknown

/-- A question for a new parameter, with the answers given so far. -/
inductive Question where
  /-- The payload size. -/
  | payloadSize
  /-- The size of the additional data. -/
  | aadSize (payloadSize : Nat)
  /-- The number of iterations. -/
  | iterations (payloadSize aadSize : Nat)
deriving DecidableEq, Repr, Inhabited

/-- What the next line is for. -/
inductive Phase where
  /-- It is a choice from the menu. -/
  | menu
  /-- It is the answer to a question. -/
  | asking (question : Question)
  /-- No line is read any more. -/
  | ended
deriving DecidableEq, Repr, Inhabited

/-- Something the session does. -/
inductive Action where
  /-- Print a text. -/
  | print (text : String)
  /-- Run the suite and print its report. -/
  | suite (params : Params)
  /-- Run the sweep and print its report. -/
  | sweep (params : Params)
  /-- Note that the parameters have been changed. -/
  | changed (params : Params)
deriving DecidableEq, Repr, Inhabited

/-- The parameters in force and what the next line is for. -/
structure Dialogue where
  /-- The parameters in force. -/
  params : Params
  /-- What the next line is for. -/
  phase : Phase
deriving DecidableEq, Repr, Inhabited

namespace Dialogue

/-- The text of the menu. -/
def menu (sweep : String) (params : Params) : String :=
  "R - Rerun tests\n" ++
    "C - Change size(" ++ toString params.payloadSize ++ "), AAD(" ++ toString params.aadSize ++
    ") and iterations(" ++ toString params.iterations ++ ")\n" ++
    "S - Size sweep (" ++ sweep ++ ")\n" ++
    "Q - Quit\n"

/-- The text of a question. -/
def prompt (params : Params) : Question → String
  | .payloadSize => "Size is " ++ toString params.payloadSize ++ ". Enter new size:"
  | .aadSize _ => "AAD size is " ++ toString params.aadSize ++ ". Enter new AAD size:"
  | .iterations _ _ =>
    "Iterations are " ++ toString params.iterations ++ ". Enter new iteration:"

/-- The number that a line answers a question with. -/
def answer? (line : List Char) : Option Nat := Decimal.readBelow? (Nat.pow 2 64) (Text.trim line)

/-- What comes after an answer: the next question or all new parameters. -/
def next (number : Nat) : Question → Question ⊕ Params
  | .payloadSize => .inl (.aadSize number)
  | .aadSize payloadSize => .inl (.iterations payloadSize number)
  | .iterations payloadSize aadSize => .inr ⟨payloadSize, aadSize, number⟩

/-- The dialogue before the first line, and what is done first. -/
def start (sweep : String) (params : Params) : Dialogue × List Action :=
  (⟨params, .menu⟩, [.suite params, .print (menu sweep params)])

/-- What a choice from the menu does. -/
def choose (sweep : String) (dialogue : Dialogue) : MenuChoice → Dialogue × List Action
  | .rerun => (dialogue, [.suite dialogue.params, .print (menu sweep dialogue.params)])
  | .change =>
    ({ dialogue with phase := .asking .payloadSize },
      [.print (prompt dialogue.params .payloadSize)])
  | .sweep => (dialogue, [.sweep dialogue.params, .print (menu sweep dialogue.params)])
  | .quit => ({ dialogue with phase := .ended }, [])
  | .unknown => (dialogue, [.print "Unknown input\n", .print (menu sweep dialogue.params)])

/-- What the answer to a question does. -/
def reply (sweep : String) (dialogue : Dialogue) (question : Question) (line : List Char) :
    Dialogue × List Action :=
  match answer? line with
  | none => (dialogue, [.print "Enter only a number\n", .print (prompt dialogue.params question)])
  | some number =>
    match next number question with
    | .inl question =>
      ({ dialogue with phase := .asking question }, [.print (prompt dialogue.params question)])
    | .inr params => (⟨params, .menu⟩, [.changed params, .print (menu sweep params)])

/-- The dialogue after a line, and what is done. -/
def step (sweep : String) (dialogue : Dialogue) (line : String) : Dialogue × List Action :=
  match dialogue.phase with
  | .menu => dialogue.choose sweep (MenuChoice.read line.toList)
  | .asking question => dialogue.reply sweep question line.toList
  | .ended => (dialogue, [])

end Dialogue

end AesTrials
