import AesTrials.Trial.Workload

/-!
# Suites and sweeps

A suite runs several variants on one workload and binds the key in every cycle. A sweep runs one
variant on workloads of growing size and binds the key once for each. Both are lists of jobs, which
do not depend on how the jobs run.
-/

namespace AesTrials

/-- A run that is still to be made. -/
structure Job where
  /-- The variant, without a key. -/
  variant : Variant
  /-- What the run is given. -/
  inputs : Inputs
  /-- How many cycles are asked for. -/
  iterations : Nat
  /-- When the key is bound. -/
  setup : KeySetup
deriving DecidableEq, Repr, Inhabited

namespace Job

/-- The job of a selector on a workload. -/
def ofSelector (workload : Workload) (iterations : Nat) (setup : KeySetup) (selector : Selector) :
    Job :=
  { variant := selector.build
    inputs := workload.inputs selector.width selector.family.nonceSource
    iterations, setup }

/-- The outcome of the job and the entropy left. -/
def run (job : Job) (entropy : Entropy) : Outcome × Entropy :=
  let (outcome, state) :=
    Trial.run Variant.subject job.inputs job.iterations job.setup (job.variant, entropy)
  (outcome, state.2)

/-- The outcomes of the jobs in order and the entropy left. -/
def runAll (entropy : Entropy) : List Job → List Outcome × Entropy
  | [] => ([], entropy)
  | job :: jobs =>
    let (outcome, entropy) := job.run entropy
    let (outcomes, entropy) := runAll entropy jobs
    (outcome :: outcomes, entropy)

end Job

/-- The jobs of a suite and the stream left. -/
def Suite.jobs (stream : WordStream) (selectors : List Selector) (params : Params) :
    List Job × WordStream :=
  let (workload, stream) := Workload.draw stream params.payloadSize params.aadSize
  (selectors.map (Job.ofSelector workload params.iterations .perIteration), stream)

namespace Sweep

/-- The payload sizes of a sweep, smallest first. -/
def sizes : List Nat := [1, 10, 100, 1000, 10000, 100000, 1000000]

/-- The jobs for a list of payload sizes and the stream left; the payload size of the parameters
is not used. -/
def jobsFor (selector : Selector) (params : Params) :
    List Nat → WordStream → List Job × WordStream
  | [], stream => ([], stream)
  | size :: sizes, stream =>
    let (workload, stream) := Workload.draw stream size params.aadSize
    let (jobs, stream) := jobsFor selector params sizes stream
    (Job.ofSelector workload params.iterations .once selector :: jobs, stream)

/-- The jobs of a sweep and the stream left. -/
def jobs (stream : WordStream) (selector : Selector) (params : Params) : List Job × WordStream :=
  jobsFor selector params sizes stream

end Sweep

/-- The report of outcomes, given the time of each. -/
def Report.ofOutcomes (params : Params) (outcomes : List Outcome) (times : List Elapsed) :
    Report :=
  { params, results := List.zipWith Outcome.result outcomes times }

end AesTrials
