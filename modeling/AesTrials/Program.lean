import AesTrials.Log.Filter
import AesTrials.Session.Basic
import AesTrials.Text.Parts

/-!
# The program

The program loads its settings, sets up its log, runs a session and exits with a code. Errors are
reported on lines of their own beside the log records.
-/

namespace AesTrials

/-- How the program ends. -/
structure Exit where
  /-- The exit code. -/
  code : Nat
  /-- The printed text. -/
  output : String
  /-- What is written on the error channel beside the records, one text a line. -/
  diagnostics : List String
  /-- The records that the filter lets through, in order. -/
  records : List Log.Event
deriving Inhabited

/-- The first line on the error channel that is no record. It ends with the words for settings that
cannot be read wherever they are found in it. -/
def Exit.errorLine? (exit : Exit) : Option String :=
  let cause := SettingsError.message .unreadable
  exit.diagnostics.head?.map fun text =>
    String.ofList (Text.upTo cause.toList (Text.firstLine text.toList))

/-- How the program ends, apart from what a session has done. -/
structure Ending where
  /-- The exit code. -/
  code : Nat
  /-- What is written on the error channel at last, one text a line. -/
  lines : List String
deriving DecidableEq, Repr, Inhabited

namespace Ending

/-- The line that ends a program that failed. -/
def failureLine (message : String) : String := "Error: " ++ message

/-- The end of a program that cannot go on. Of its last words only the first line is kept, which is
empty. -/
def stopped : Ending := ⟨101, [""]⟩

/-- The end over settings that cannot be run. -/
def ofSettingsError (error : SettingsError) : Ending :=
  ⟨1, ["ERROR: configuration invalid: " ++ error.message, failureLine (error.chain.headD "")]⟩

/-- The end after a session that ended so. -/
def ofSession : Session.End → Ending
  | .closed => ⟨0, []⟩
  | .unreadable => ⟨1, [failureLine Session.unreadableMessage]⟩
  | .exhausted => stopped
  | .reported report =>
    if report.failureCount = 0 then ⟨0, []⟩
    else ⟨1, [failureLine (toString report.failureCount ++
      " variant run(s) failed the round trip")]⟩

end Ending

/-- What the program has made of its environment. -/
structure Setup where
  /-- The settings. -/
  settings : Settings
  /-- Which records are written. -/
  filter : Log.Filter
  /-- A line for each directive that was ignored. -/
  ignored : List String
deriving Inhabited

namespace Program

/-- The variable whose filter takes precedence over the level of the settings. -/
def filterVariable : String := "RUST_LOG"

/-- The value of a variable, its name taken exactly. -/
def textOf? (environment : Environment) (name : String) : Option String :=
  (environment.reverse.find? fun entry => entry.1 == name).map fun entry => entry.2

/-- The filter of the log and a line for each directive that was ignored; no filter if a directive
stops the program. -/
def filter (environment : Environment) (settings : Settings) : Option Log.Filter × List String :=
  match (textOf? environment filterVariable).map Log.Filter.read with
  | some (.ok filter) => (some filter, [])
  | some (.error .cut) => (none, [])
  | some (.error _) | none => Log.Filter.readKnown settings.logLevel

/-- The setup for an environment whose entries come in some order, or how the program ends over
it. -/
def setUp (environment : Environment) (entries : Entries) : Except Ending Setup :=
  match Settings.load? entries with
  | none => .error .stopped
  | some (.error error) => .error (.ofSettingsError error)
  | some (.ok settings) =>
    match filter environment settings with
    | (some filter, ignored) => .ok ⟨settings, filter, ignored⟩
    | (none, ignored) => .error { Ending.stopped with lines := ignored ++ Ending.stopped.lines }

/-- The program on an environment, whose entries it takes in the order of the variables, and an
input. -/
def run (environment : Environment) (clock : Clock) (entropy : Entropy) (input : Bytes) : Exit :=
  match setUp environment environment.entries with
  | .error ending => ⟨ending.code, "", ending.lines, []⟩
  | .ok setup =>
    let (transcript, final) := Session.run setup.settings clock entropy input
    let starting := .starting setup.settings.mode setup.settings.seed.isSome
    let ending := Ending.ofSession final
    { code := ending.code
      output := transcript.output
      diagnostics := setup.ignored ++ ending.lines
      records := (starting :: transcript.events).filter setup.filter.allows }

end Program

end AesTrials
