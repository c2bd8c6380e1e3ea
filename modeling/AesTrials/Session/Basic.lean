import AesTrials.Log.Event
import AesTrials.Report.Json
import AesTrials.Report.Table
import AesTrials.Session.Dialogue
import AesTrials.Trial.Suite

/-!
# Sessions

A session warms up if it is asked to and then runs a suite, a sweep, or the menu over lines of
input. Everything it takes from outside is explicit: the input, the entropy, and a clock that says
how long each run takes. What it prints and what it logs are kept apart. Only sizes beyond the
greatest length of a text keep a task from being done; the session ends there.
-/

namespace AesTrials

/-- What a session has printed and logged. -/
structure Transcript where
  /-- The printed text. -/
  output : String
  /-- The logged events, in order. -/
  events : List Log.Event
deriving Inhabited

namespace Transcript

/-- Nothing printed or logged. -/
def empty : Transcript := ⟨"", []⟩

/-- One transcript after the other. -/
def append (first second : Transcript) : Transcript :=
  ⟨first.output ++ second.output, first.events ++ second.events⟩

instance : Append Transcript := ⟨append⟩

/-- A printed text. -/
def print (text : String) : Transcript := ⟨text, []⟩

/-- Logged events. -/
def log (events : List Log.Event) : Transcript := ⟨"", events⟩

@[simp] theorem output_append (first second : Transcript) :
    (first ++ second).output = first.output ++ second.output := rfl

@[simp] theorem events_append (first second : Transcript) :
    (first ++ second).events = first.events ++ second.events := rfl

@[ext] theorem ext_of_parts {first second : Transcript} (output : first.output = second.output)
    (events : first.events = second.events) : first = second := by
  cases first
  cases second
  simp_all

@[simp] theorem empty_append (transcript : Transcript) : empty ++ transcript = transcript := by
  ext1 <;> simp [empty]

@[simp] theorem append_empty (transcript : Transcript) : transcript ++ empty = transcript := by
  ext1 <;> simp [empty]

@[simp] theorem log_append (first second : List Log.Event) :
    log first ++ log second = log (first ++ second) := rfl

/-- Transcripts are put one after the other in any grouping. -/
theorem append_assoc (first second third : Transcript) :
    first ++ second ++ third = first ++ (second ++ third) := by
  ext1
  · exact String.append_assoc
  · exact List.append_assoc _ _ _

end Transcript

/-- Runs that are made together. -/
inductive Task where
  /-- The suite at its smallest, whose report is not printed. -/
  | warmUp
  /-- The suite. -/
  | suite (params : Params)
  /-- The sweep. -/
  | sweep (params : Params)
deriving DecidableEq, Repr, Inhabited

namespace Task

/-- The parameters of the warm-up. -/
def warmUpParams : Params := ⟨10, 0, 1⟩

/-- The parameters that the report carries. -/
def params : Task → Params
  | .warmUp => warmUpParams
  | .suite params | .sweep params => params

/-- Whether inputs of the sizes of the task can be made. -/
def fits : Task → Bool
  | .warmUp => Workload.fits warmUpParams.payloadSize warmUpParams.aadSize
  | .suite params => Workload.fits params.payloadSize params.aadSize
  | .sweep params => Sweep.sizes.all (Workload.fits · params.aadSize)

/-- The warm-up can always be done. -/
theorem fits_warmUp : fits .warmUp = true := by decide

/-- What is logged before the inputs are drawn. -/
def announcement (settings : Settings) : Task → List Log.Event
  | .warmUp => [.warmingUp]
  | .suite _ => []
  | .sweep params => [.sweepStarted settings.sweep params.iterations]

/-- What is logged before the runs, once inputs are drawn. -/
def opening (settings : Settings) : Task → List Log.Event
  | .warmUp => [.suiteStarted settings.selectors.length warmUpParams]
  | .suite params => [.suiteStarted settings.selectors.length params]
  | .sweep _ => []

/-- The jobs of the task and the stream left. -/
def jobs (settings : Settings) (stream : WordStream) : Task → List Job × WordStream
  | .warmUp => Suite.jobs stream settings.selectors warmUpParams
  | .suite params => Suite.jobs stream settings.selectors params
  | .sweep params => Sweep.jobs stream settings.sweep params

/-- The printed form of a report. -/
def render (format : ReportFormat) (report : Report) : String :=
  match format with
  | .table => Table.renderReport report ++ "\n"
  | .json => report.renderJson ++ "\n"

/-- What is printed and logged after the runs. -/
def closing (settings : Settings) (task : Task) (report : Report) : Transcript :=
  match task with
  | .warmUp => .log [.warmedUp report.hasFailures]
  | .suite _ | .sweep _ => .print (render settings.reportFormat report)

end Task

/-- How long each run takes, by its number. -/
abbrev Clock := Nat → Elapsed

/-- The first of some runs takes its own time, and the later ones take theirs. -/
theorem Clock.map_range_succ (clock : Clock) (number count : Nat) :
    ((List.range (count + 1)).map fun i => clock (number + i)) =
      clock number :: (List.range count).map fun i => clock (number + 1 + i) := by
  have shifted : (fun i => clock (number + i)) ∘ Nat.succ = fun i => clock (number + 1 + i) := by
    funext i
    rw [Function.comp_apply, Nat.succ_eq_add_one, Nat.add_assoc, Nat.add_comm 1 i]
  rw [List.range_succ_eq_map, List.map_cons, List.map_map, shifted, Nat.add_zero]

/-- The supplies that a session uses up. -/
structure Supplies where
  /-- The stream of inputs. -/
  stream : WordStream
  /-- The entropy of the variants. -/
  entropy : Entropy
  /-- Runs made so far. -/
  runs : Nat

namespace Supplies

/-- The supplies at the start: a seeded stream, or one keyed from entropy. -/
def start (seed : Option Nat) (entropy : Entropy) : Supplies :=
  match seed with
  | some seed => ⟨.ofNumber seed, entropy, 0⟩
  | none =>
    let (key, entropy) := entropy.draw 32
    ⟨.ofBytes key, entropy, 0⟩

end Supplies

namespace Session

/-- What is logged for the runs of a task, given their outcomes and results. -/
def runEvents (params : Params) (outcomes : List Outcome) (results : List Result) :
    List Log.Event :=
  (List.zipWith (Log.Event.ofRun params.iterations) outcomes results).flatten

/-- A task done: its report, its transcript and the supplies left. -/
def perform (settings : Settings) (clock : Clock) (supplies : Supplies) (task : Task) :
    Report × Transcript × Supplies :=
  let (jobs, stream) := task.jobs settings supplies.stream
  let (outcomes, entropy) := Job.runAll supplies.entropy jobs
  let times := (List.range outcomes.length).map fun i => clock (supplies.runs + i)
  let report := Report.ofOutcomes task.params outcomes times
  (report,
    .log (task.announcement settings ++ task.opening settings ++
        runEvents task.params outcomes report.results) ++
      task.closing settings report,
    { stream, entropy, runs := supplies.runs + outcomes.length })

/-- A task done if it can be: its transcript, and its report and the supplies left. -/
def perform? (settings : Settings) (clock : Clock) (supplies : Supplies) (task : Task) :
    Transcript × Option (Report × Supplies) :=
  if task.fits then
    let (report, transcript, supplies) := perform settings clock supplies task
    (transcript, some (report, supplies))
  else (.log (task.announcement settings), none)

/-- An action of the dialogue done: its transcript and the supplies left. -/
def act (settings : Settings) (clock : Clock) (supplies : Supplies) (action : Action) :
    Transcript × Option Supplies :=
  match action with
  | .print text => (.print text, some supplies)
  | .changed params => (.log [.paramsChanged params], some supplies)
  | .suite params =>
    let (transcript, done) := perform? settings clock supplies (.suite params)
    (transcript, done.map Prod.snd)
  | .sweep params =>
    let (transcript, done) := perform? settings clock supplies (.sweep params)
    (transcript, done.map Prod.snd)

/-- Actions done one after the other, up to one that cannot be done. -/
def actAll (settings : Settings) (clock : Clock) (supplies : Supplies) :
    List Action → Transcript × Option Supplies
  | [] => (.empty, some supplies)
  | action :: actions =>
    match act settings clock supplies action with
    | (first, none) => (first, none)
    | (first, some supplies) =>
      let (rest, supplies) := actAll settings clock supplies actions
      (first ++ rest, supplies)

/-- How a session ends. -/
inductive End where
  /-- The menu was left. -/
  | closed
  /-- One report was printed. -/
  | reported (report : Report)
  /-- A line of the input is not UTF-8. -/
  | unreadable
  /-- A task cannot be done. -/
  | exhausted
deriving Inhabited

/-- What has been done and what is done with the supplies left. -/
def andThen (done : Transcript × Option Supplies) (next : Supplies → Transcript × End) :
    Transcript × End :=
  match done with
  | (first, none) => (first, .exhausted)
  | (first, some supplies) =>
    let (later, final) := next supplies
    (first ++ later, final)

@[simp] theorem andThen_none (first : Transcript) (next : Supplies → Transcript × End) :
    andThen (first, none) next = (first, .exhausted) := rfl

@[simp] theorem andThen_some (first : Transcript) (supplies : Supplies)
    (next : Supplies → Transcript × End) :
    andThen (first, some supplies) next = (first ++ (next supplies).1, (next supplies).2) := rfl

/-- The lines of an input that begins with the given byte, from those of the input behind it. -/
def lineStep (byte : UInt8) (lines : List Bytes) : List Bytes :=
  if byte = 10 then [byte] :: lines
  else match lines with
    | [] => [[byte]]
    | line :: lines => (byte :: line) :: lines

/-- The lines of an input, each with its line feed if it has one. -/
def lines (input : Bytes) : List Bytes :=
  input.foldr lineStep []

/-- The dialogue over the lines left. -/
def converse (settings : Settings) (clock : Clock) :
    Dialogue → Supplies → List Bytes → Transcript × End
  | _, _, [] => (.empty, .closed)
  | dialogue, supplies, line :: rest =>
    if dialogue.phase = .ended then (.empty, .closed)
    else
      match Bytes.toText? line with
      | none => (.empty, .unreadable)
      | some line =>
        let (dialogue, actions) := dialogue.step settings.sweep.write line
        andThen (actAll settings clock supplies actions) fun supplies =>
          converse settings clock dialogue supplies rest

/-- The menu over a whole input. -/
def interact (settings : Settings) (clock : Clock) (supplies : Supplies) (input : Bytes) :
    Transcript × End :=
  let (dialogue, actions) := Dialogue.start settings.sweep.write settings.params
  andThen (actAll settings clock supplies actions) fun supplies =>
    converse settings clock dialogue supplies (lines input)

/-- One task over which the session ends. -/
def reportOn (settings : Settings) (clock : Clock) (supplies : Supplies) (task : Task) :
    Transcript × End :=
  match perform? settings clock supplies task with
  | (transcript, none) => (transcript, .exhausted)
  | (transcript, some (report, _)) => (transcript, .reported report)

/-- What the mode of the settings does. -/
def runMode (settings : Settings) (clock : Clock) (supplies : Supplies) (input : Bytes) :
    Transcript × End :=
  match settings.mode with
  | .interactive => interact settings clock supplies input
  | .suite => reportOn settings clock supplies (.suite settings.params)
  | .sweep => reportOn settings clock supplies (.sweep settings.params)

/-- A whole session. -/
def run (settings : Settings) (clock : Clock) (entropy : Entropy) (input : Bytes) :
    Transcript × End :=
  let supplies := Supplies.start settings.seed entropy
  if settings.warmUp then
    let (_, first, supplies) := perform settings clock supplies .warmUp
    let (later, final) := runMode settings clock supplies input
    (first ++ later, final)
  else runMode settings clock supplies input

/-- What is said of an input that cannot be read. -/
def unreadableMessage : String := "failed to read from stdin"

end Session

end AesTrials
