import AesTrials.Report.Basic
import AesTrials.Selector
import AesTrials.Settings.Value

/-!
# Settings

Settings come from environment variables whose names begin with `CIPHERBENCH_` in letters of any
case. The keys of these are entered one after the other into a group of settings, in an order that
nothing determines: everything here is a function of the entries in the order in which they come.
Then every setting is read as its type, and the values are validated in a fixed order: the iteration
count, the list of variants, the variant of the sweep.
-/

namespace AesTrials

/-- Names and texts of environment variables. -/
abbrev Environment := List (String × String)

/-- Keys of settings, or of places inside them, and the texts that are entered for them. -/
abbrev Entries := List (String × String)

/-- What is done after the warm-up. -/
inductive Mode where
  /-- Run the suite, then serve the menu. -/
  | interactive
  /-- Run the suite once. -/
  | suite
  /-- Run the sweep once. -/
  | sweep
deriving DecidableEq, Repr, Inhabited

/-- How reports are printed. -/
inductive ReportFormat where
  /-- As an aligned table. -/
  | table
  /-- As JSON. -/
  | json
deriving DecidableEq, Repr, Inhabited

/-- The name of the mode in settings. -/
def Mode.id : Mode → String
  | .interactive => "interactive"
  | .suite => "suite"
  | .sweep => "sweep"

/-- The name of the format in settings. -/
def ReportFormat.id : ReportFormat → String
  | .table => "table"
  | .json => "json"

/-- The modes under their names. -/
def Mode.entries : List (String × Mode) :=
  [Mode.interactive, .suite, .sweep].map fun mode => (mode.id, mode)

/-- The formats under their names. -/
def ReportFormat.entries : List (String × ReportFormat) :=
  [ReportFormat.table, .json].map fun format => (format.id, format)

/-- Settings as they were read, not yet validated. -/
structure Draft where
  /-- Plaintext length in bytes. -/
  payloadSize : Nat
  /-- Additional data length in bytes. -/
  aadSize : Nat
  /-- Cycles for each variant. -/
  iterations : Nat
  /-- The list of variants, if one is given. -/
  variantsText : Option String
  /-- The variant of the sweep. -/
  sweepText : String
  /-- What is done after the warm-up. -/
  mode : Mode
  /-- How reports are printed. -/
  reportFormat : ReportFormat
  /-- Whether a short run comes first. -/
  warmUp : Bool
  /-- The number that seeds the inputs, if one is given. -/
  seed : Option Nat
  /-- Which log records are written. -/
  logLevel : String
deriving DecidableEq, Repr, Inhabited

/-- Settings that can be run. -/
structure Settings extends Draft where
  /-- The variants to run, at least one. -/
  selectors : List Selector
  /-- The variant of the sweep. -/
  sweep : Selector
deriving DecidableEq, Repr, Inhabited

/-- Why settings cannot be run. -/
inductive SettingsError where
  /-- A value does not have the type of its setting. -/
  | unreadable
  /-- The iteration count is zero. -/
  | noIterations
  /-- The list of variants holds an entry that is no selector. -/
  | variants (error : SelectorError)
  /-- The list of variants is blank. -/
  | noVariants
  /-- The variant of the sweep is no selector. -/
  | sweepVariant (error : SelectorError)
deriving DecidableEq, Repr, Inhabited

namespace SettingsError

/-- The wording of the error and of the errors behind it, outermost first. -/
def chain : SettingsError → List String
  | .unreadable => ["failed to deserialise configuration"]
  | .noIterations => ["CIPHERBENCH_ITERATIONS must be > 0"]
  | .variants error => ["CIPHERBENCH_VARIANTS is invalid", error.message]
  | .noVariants => ["CIPHERBENCH_VARIANTS must name at least one variant"]
  | .sweepVariant error => ["CIPHERBENCH_SWEEP_VARIANT is invalid", error.message]

/-- The wording of the whole chain. -/
def message (error : SettingsError) : String := ": ".intercalate error.chain

/-- The selector error behind the error, if there is one. -/
def selectorError? : SettingsError → Option SelectorError
  | .variants error | .sweepVariant error => some error
  | _ => none

end SettingsError

namespace Environment

/-- The entries after one more variable, if that belongs to this program. -/
def enter (entries : Entries) (given : String × String) : Entries :=
  match SettingPath.key? given.1 with
  | none => entries
  | some key => Keyed.assign key given.2 entries

/-- The keys of the variables, each with the text of the last variable that has it. -/
def entries (environment : Environment) : Entries := environment.foldl enter []

end Environment

namespace Setting

/-- The group of all settings after one more entry. -/
def enter? (root : Setting) (entry : String × String) : Option Setting :=
  give? (ofText entry.2) (SettingPath.ofKey entry.1).toSteps (some root)

/-- The group of all settings that entries make in their order; none if an index in one of them
stands for no place. -/
def build? (entries : Entries) : Option Setting := entries.foldlM enter? (.group [])

/-- The part of a setting with a name. -/
def part? (setting : Setting) (name : String) : Option Setting := (parts (some setting)).lookup name

/-- The value of a part as a type, or the value used unless it is given; none if the part cannot be
read as the type. -/
def read? {α : Type} (root : Setting) (name : String) (read : Setting → Option α)
    (standard : α) : Option α :=
  match root.part? name with
  | none => some standard
  | some setting => read setting

end Setting

/-- The draft of a group of settings, if every value has the type of its setting. -/
def Draft.read? (root : Setting) : Option Draft := do
  let payloadSize ← root.read? "payload_size" Setting.toNat? Params.standard.payloadSize
  let aadSize ← root.read? "aad_size" Setting.toNat? Params.standard.aadSize
  let iterations ← root.read? "iterations" Setting.toNat? Params.standard.iterations
  let variantsText ← root.read? "variants" (fun s => s.toText?.map some) none
  let sweepText ← root.read? "sweep_variant" Setting.toText? "aes256-gcm"
  let mode ← root.read? "mode" (Setting.choose? Mode.entries) .interactive
  let reportFormat ← root.read? "report_format" (Setting.choose? ReportFormat.entries) .table
  let warmUp ← root.read? "warmup" Setting.toBool? true
  let seed ← root.read? "seed" (fun s => s.toNat?.map some) none
  let logLevel ← root.read? "log_level" Setting.toText? "warn"
  some { payloadSize, aadSize, iterations, variantsText, sweepText, mode, reportFormat, warmUp,
         seed, logLevel }

namespace Draft

/-- The variants of the list, or the standard suite if no list is given. -/
def selectors (draft : Draft) : Except SettingsError (List Selector) :=
  match draft.variantsText with
  | none => .ok Selector.standardSuite
  | some text =>
    match Selector.readList text with
    | .error error => .error (.variants error)
    | .ok [] => .error .noVariants
    | .ok selectors => .ok selectors

/-- The variant of the sweep. -/
def sweep (draft : Draft) : Except SettingsError Selector :=
  match Selector.read draft.sweepText with
  | .error error => .error (.sweepVariant error)
  | .ok selector => .ok selector

/-- The settings, if they can be run. -/
def validate (draft : Draft) : Except SettingsError Settings :=
  if draft.iterations = 0 then .error .noIterations
  else do
    let selectors ← draft.selectors
    let sweep ← draft.sweep
    .ok { draft with selectors, sweep }

end Draft

namespace Settings

/-- The settings that a group of settings holds. -/
def ofRoot (root : Setting) : Except SettingsError Settings :=
  match Draft.read? root with
  | none => .error .unreadable
  | some draft => draft.validate

/-- The settings that entries make in their order, or the error over them. There is neither if an
index stands for no place, and the program stops. -/
def load? (entries : Entries) : Option (Except SettingsError Settings) :=
  (Setting.build? entries).map ofRoot

/-- The parameters of the first benchmark. -/
def params (settings : Settings) : Params :=
  ⟨settings.payloadSize, settings.aadSize, settings.iterations⟩

end Settings

end AesTrials
