import AesTrials.Json.Printer
import AesTrials.Log.Level
import AesTrials.Settings.Basic
import AesTrials.Trial.Run

/-!
# What is logged

An event of a session has a level, a target and fields; none of them holds a key, a vector or a
plaintext.
-/

namespace AesTrials.Log

/-- Something that happens in a session. -/
inductive Event where
  /-- The program begins. -/
  | starting (mode : Mode) (seeded : Bool)
  /-- The warm-up begins. -/
  | warmingUp
  /-- The warm-up has ended. -/
  | warmedUp (failures : Bool)
  /-- A suite begins. -/
  | suiteStarted (variants : Nat) (params : Params)
  /-- A sweep begins. -/
  | sweepStarted (selector : Selector) (iterations : Nat)
  /-- A run without cycles gets one. -/
  | cyclesRaised
  /-- The cycles of a run begin. -/
  | runStarted (variant : String) (cycles plainSize aadSize : Nat)
  /-- A run has passed. -/
  | runPassed (variant : String) (averageDuration : Duration)
  /-- A run has failed. -/
  | runFailed (variant : String) (kind : FailureKind)
  /-- The parameters have been changed. -/
  | paramsChanged (params : Params)
deriving Inhabited

namespace Event

/-- How important the event is. -/
def level : Event → Level
  | .starting .. | .warmingUp | .suiteStarted .. | .sweepStarted .. | .runPassed ..
  | .paramsChanged .. => .info
  | .warmedUp .. | .runStarted .. => .debug
  | .cyclesRaised | .runFailed .. => .warn

/-- The part of the program that the event belongs to. -/
def target : Event → String
  | .starting .. => "cipher_bench"
  | .warmingUp | .warmedUp .. | .paramsChanged .. => "cipher_bench::session"
  | .sweepStarted .. => "cipher_bench::runner::sweep"
  | .suiteStarted .. | .cyclesRaised | .runStarted .. | .runPassed .. | .runFailed .. =>
    "cipher_bench::runner"

/-- The event in words. -/
def message : Event → String
  | .starting .. => "cipher-bench starting"
  | .warmingUp => "performing warm-up run"
  | .warmedUp .. => "warm-up finished"
  | .suiteStarted .. => "running benchmark suite"
  | .sweepStarted .. => "running size sweep"
  | .cyclesRaised => "iteration count of 0 raised to 1"
  | .runStarted .. => "run started"
  | .runPassed .. => "run passed"
  | .runFailed .. => "run failed"
  | .paramsChanged .. => "benchmark parameters changed"

/-- The version that the program states. -/
def version : String := "0.1.0"

/-- The name of a mode in records. -/
def modeName : Mode → String
  | .interactive => "Interactive"
  | .suite => "Suite"
  | .sweep => "Sweep"

/-- The fields of the parameters. -/
def paramFields (params : Params) : List (String × Json) :=
  [("payload_size", .ofNat params.payloadSize), ("aad_size", .ofNat params.aadSize),
    ("iterations", .ofNat params.iterations)]

/-- The fields beside the message. -/
def details : Event → List (String × Json)
  | .starting mode seeded =>
    [("version", .ofText version), ("mode", .ofText (modeName mode)), ("seeded", .bool seeded)]
  | .warmingUp | .cyclesRaised => []
  | .warmedUp failures => [("failures", .bool failures)]
  | .suiteStarted variants params => ("variants", .ofNat variants) :: paramFields params
  | .sweepStarted selector iterations =>
    [("variant", .ofText selector.write), ("iterations", .ofNat iterations)]
  | .runStarted variant cycles plainSize aadSize =>
    [("variant", .ofText variant), ("iterations", .ofNat cycles),
      ("plain_size", .ofNat plainSize), ("aad_size", .ofNat aadSize)]
  | .runPassed variant averageDuration =>
    [("variant", .ofText variant), ("avg_ms", .ofFloat averageDuration.toMilliseconds)]
  | .runFailed variant kind =>
    [("variant", .ofText variant), ("kind", .ofText kind.code),
      ("retryable", .bool kind.retryable)]
  | .paramsChanged params => paramFields params

/-- All fields of the record. -/
def fields (event : Event) : List (String × Json) :=
  ("message", .ofText event.message) :: event.details

/-- The record as a value. -/
def toJson (event : Event) : Json :=
  .ofFields [("level", .ofText event.level.name), ("fields", .ofFields event.fields),
    ("target", .ofText event.target)]

/-- The events of a run that was asked for the given number of cycles. -/
def ofRun (iterations : Nat) (outcome : Outcome) (result : Result) : List Event :=
  (if iterations = 0 then [cyclesRaised] else []) ++
    (match outcome.startedAs with
      | some variant =>
        [runStarted variant (Trial.cycleCount iterations) outcome.plainSize outcome.aadSize]
      | none => []) ++
    [match result.failure with
      | none => runPassed result.name result.averageDuration
      | some failure => runFailed result.name failure.kind]

end Event

end AesTrials.Log
