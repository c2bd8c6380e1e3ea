import AesTrials.Session.Basic

/-!
# Sessions in a world

The steps of a session for any surroundings in which transcripts can be delivered and runs can be
measured: on the command line these are the terminal and the clock of the system. What a task logs
is delivered as soon as it happens, between the runs. The lines of the input come from outside, one
at a time, so carrying the dialogue on is left to the surroundings too.
-/

namespace AesTrials

/-- What a session asks of its surroundings. -/
structure World (m : Type → Type) where
  /-- Deliver what has been printed and logged. -/
  deliver : Transcript → m Unit
  /-- Make the run with a number, and measure how long it takes. -/
  measure : Nat → Job → Entropy → m (Outcome × Elapsed × Entropy)

namespace World

variable {m : Type → Type} [Monad m] (world : World m) (settings : Settings)

/-- Make runs one after the other, the first of them with a number. -/
def runAll (iterations : Nat) : Nat → Entropy → List Job → m (List (Outcome × Elapsed) × Entropy)
  | _, entropy, [] => pure ([], entropy)
  | number, entropy, job :: jobs => do
    let (outcome, time, entropy) ← world.measure number job entropy
    world.deliver (.log (Log.Event.ofRun iterations outcome (outcome.result time)))
    let (later, entropy) ← runAll iterations (number + 1) entropy jobs
    return ((outcome, time) :: later, entropy)

/-- Do a task if it can be done. -/
def perform? (supplies : Supplies) (task : Task) : m (Option (Report × Supplies)) := do
  world.deliver (.log (task.announcement settings))
  if task.fits then
    let (jobs, stream) := task.jobs settings supplies.stream
    world.deliver (.log (task.opening settings))
    let (runs, entropy) ← world.runAll task.params.iterations supplies.runs supplies.entropy jobs
    let report := Report.ofOutcomes task.params (runs.map Prod.fst) (runs.map Prod.snd)
    world.deliver (task.closing settings report)
    return some (report, { stream, entropy, runs := supplies.runs + runs.length })
  else return none

/-- Do an action of the dialogue if it can be done. -/
def act (supplies : Supplies) : Action → m (Option Supplies)
  | .print text => do
    world.deliver (.print text)
    return some supplies
  | .changed params => do
    world.deliver (.log [.paramsChanged params])
    return some supplies
  | .suite params => do
    let done ← world.perform? settings supplies (.suite params)
    return done.map Prod.snd
  | .sweep params => do
    let done ← world.perform? settings supplies (.sweep params)
    return done.map Prod.snd

/-- Do actions in order, up to one that cannot be done. -/
def actAll (supplies : Supplies) : List Action → m (Option Supplies)
  | [] => return some supplies
  | action :: actions => do
    match ← world.act settings supplies action with
    | none => return none
    | some supplies => actAll supplies actions

/-- Hear a line of the input: the session ends, or the dialogue goes on. -/
def hear (dialogue : Dialogue) (supplies : Supplies) (line : Bytes) :
    m (Session.End ⊕ Dialogue × Supplies) :=
  match Bytes.toText? line with
  | none => return .inl .unreadable
  | some line => do
    let (dialogue, actions) := dialogue.step settings.sweep.write line
    match ← world.actAll settings supplies actions with
    | none => return .inl .exhausted
    | some supplies =>
      if dialogue.phase = .ended then return .inl .closed
      else return .inr (dialogue, supplies)

variable (converse : Dialogue → Supplies → m Session.End)

/-- Serve the menu, given how the dialogue is carried on. -/
def interact (supplies : Supplies) : m Session.End := do
  let (dialogue, actions) := Dialogue.start settings.sweep.write settings.params
  match ← world.actAll settings supplies actions with
  | none => return .exhausted
  | some supplies => converse dialogue supplies

/-- Do the one task of a session. -/
def reportOn (supplies : Supplies) (task : Task) : m Session.End := do
  match ← world.perform? settings supplies task with
  | none => return .exhausted
  | some (report, _) => return .reported report

/-- Do what the mode of the settings says. -/
def runMode (supplies : Supplies) : m Session.End :=
  match settings.mode with
  | .interactive => world.interact settings converse supplies
  | .suite => world.reportOn settings supplies (.suite settings.params)
  | .sweep => world.reportOn settings supplies (.sweep settings.params)

/-- Run a session. -/
def run (entropy : Entropy) : m Session.End := do
  let supplies := Supplies.start settings.seed entropy
  if settings.warmUp then
    match ← world.perform? settings supplies .warmUp with
    | none => return .exhausted
    | some (_, supplies) => world.runMode settings converse supplies
  else world.runMode settings converse supplies

end World

end AesTrials
