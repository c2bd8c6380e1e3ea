import AesTrials.Proofs.Isolation

/-!
# What tasks come to

The results of a task follow from its parameters and the selectors that it runs: neither the stream
of its inputs nor entropy nor when keys are bound shows in them. So a sweep comes to the same as
suites of its selector alone, one for each of its payload sizes, and leaves the stream where they
leave it.
-/

namespace AesTrials

/-- The selectors that a task runs, in order, and the parameters of their runs. -/
def Task.entries (settings : Settings) : Task → List (Selector × Params)
  | .warmUp => settings.selectors.map fun selector => (selector, warmUpParams)
  | .suite params => settings.selectors.map fun selector => (selector, params)
  | .sweep params =>
    Sweep.sizes.map fun size => (settings.sweep, { params with payloadSize := size })

namespace Sweep

variable (selector : Selector) (params : Params)

/-- The jobs of a sweep are drawn for its sizes. -/
theorem made_jobsFor (sizes : List Nat) (stream : WordStream) :
    List.Forall₂ Job.Made (sizes.map fun size => (selector, { params with payloadSize := size }))
      (jobsFor selector params sizes stream).1 := by
  induction sizes generalizing stream with
  | nil => exact .nil
  | cons size sizes ih =>
    exact .cons ⟨stream, .once, rfl⟩ (ih (Workload.draw stream size params.aadSize).2)

/-- The payload size of the parameters shows in no job of a sweep. -/
theorem jobsFor_payloadSize (payloadSize : Nat) (sizes : List Nat) (stream : WordStream) :
    jobsFor selector { params with payloadSize } sizes stream =
      jobsFor selector params sizes stream := by
  induction sizes generalizing stream with
  | nil => rfl
  | cons size sizes ih => simp only [jobsFor, ih]

end Sweep

/-- The jobs of a task are drawn for its entries. -/
theorem Task.made_jobs (settings : Settings) (stream : WordStream) (task : Task) :
    List.Forall₂ Job.Made (task.entries settings) (task.jobs settings stream).1 := by
  cases task with
  | warmUp => exact Suite.made_jobs stream settings.selectors warmUpParams
  | suite params => exact Suite.made_jobs stream settings.selectors params
  | sweep params => exact Sweep.made_jobsFor settings.sweep params Sweep.sizes stream

namespace Session

/-- The report of a task has the results that are expected of its entries, times left out. -/
theorem untimed_perform (settings : Settings) (clock : Clock) (supplies : Supplies) (task : Task) :
    (perform settings clock supplies task).1.untimed =
      (task.entries settings).map fun entry => entry.1.result entry.2 := by
  have results := Job.results_runAll (task.made_jobs settings supplies.stream) supplies.entropy
  rw [← results]
  exact Report.untimed_ofOutcomes _ _ _ (by simp)

variable (settings : Settings) (params : Params) (stream : WordStream)

/-- The report of a sweep of the selector and the supplies left. -/
def sweep (around : Surroundings) (selector : Selector) : Report × Supplies :=
  let supplies := ⟨stream, around.entropy, around.runs⟩
  let (report, _, left) :=
    perform { settings with sweep := selector } around.clock supplies (.sweep params)
  (report, left)

/-- The reports of suites of the selector alone, one for each payload size, each of which draws its
inputs where the one before it left the stream, and the supplies left by the last one. -/
def suites (clock : Clock) (selector : Selector) : List Nat → Supplies → List Report × Supplies
  | [], supplies => ([], supplies)
  | size :: sizes, supplies =>
    let (report, _, left) := perform { settings with selectors := [selector] } clock supplies
      (.suite { params with payloadSize := size })
    let (reports, left) := suites clock selector sizes left
    (report :: reports, left)

/-- Suites of one selector have one result each, the one that is expected at their payload size. -/
theorem untimed_suites (clock : Clock) (selector : Selector) (sizes : List Nat)
    (supplies : Supplies) :
    (suites settings params clock selector sizes supplies).1.map Report.untimed =
      sizes.map fun size => [selector.result { params with payloadSize := size }] := by
  induction sizes generalizing supplies with
  | nil => rfl
  | cons size sizes ih =>
    simp only [suites, List.map_cons, ih, untimed_perform]
    rfl

/-- Suites of one selector leave the stream where the jobs of a sweep over the same sizes leave
it. -/
theorem stream_suites (clock : Clock) (selector : Selector) (sizes : List Nat)
    (supplies : Supplies) :
    (suites settings params clock selector sizes supplies).2.stream =
      (Sweep.jobsFor selector params sizes supplies.stream).2 := by
  induction sizes generalizing supplies with
  | nil => rfl
  | cons size sizes ih =>
    simp only [suites, Sweep.jobsFor, ih]
    rfl

/-- A sweep has one result for each of its payload sizes, which ascend. Times left out, they are in
order the results of suites of the selector alone, of which each has the next payload size and draws
its inputs where the one before it left the stream; and the sweep leaves the stream where the last
suite leaves it. What else a sweep and the suites find around them makes no difference. The report
has the parameters that were given, whose payload size shows neither in the results nor in the
stream that is left. -/
theorem sweep_eq_suites (around other : Surroundings) (selector : Selector) :
    let swept := sweep settings params stream around selector
    let stepped := suites settings params other.clock selector Sweep.sizes
      ⟨stream, other.entropy, other.runs⟩
    Sweep.sizes.Pairwise (· < ·) ∧
      swept.1.results.map Result.plainSize = Sweep.sizes ∧
      stepped.1.map Report.untimed = swept.1.untimed.map (fun result => [result]) ∧
      stepped.2.stream = swept.2.stream ∧
      swept.1.params = params ∧
      ∀ payloadSize,
        let again := sweep settings { params with payloadSize } stream around selector
        again.1.results = swept.1.results ∧ again.2.stream = swept.2.stream := by
  intro swept stepped
  have expected : swept.1.untimed =
      Sweep.sizes.map fun size => selector.result { params with payloadSize := size } := by
    refine (untimed_perform _ _ _ _).trans ?_
    rw [Task.entries, List.map_map]
    rfl
  have left : swept.2.stream = (Sweep.jobsFor selector params Sweep.sizes stream).2 := rfl
  refine ⟨by decide, ?_, ?_, ?_, rfl, ?_⟩
  · have sizes := congrArg (List.map Result.plainSize) expected
    have plain : (Result.plainSize ∘ fun size =>
        selector.result { params with payloadSize := size }) = id := rfl
    rw [Report.untimed, List.map_map, List.map_map, plain, List.map_id] at sizes
    exact sizes
  · rw [expected, List.map_map]
    exact untimed_suites settings params other.clock selector Sweep.sizes _
  · rw [left]
    exact stream_suites settings params other.clock selector Sweep.sizes _
  · intro payloadSize again
    have jobs : Sweep.jobs stream selector { params with payloadSize } =
        Sweep.jobs stream selector params :=
      Sweep.jobsFor_payloadSize selector params payloadSize Sweep.sizes stream
    constructor
    · simp only [swept, again, sweep, perform, Task.jobs, jobs]
      rfl
    · simp only [swept, again, sweep, perform, Task.jobs, jobs]

end Session

end AesTrials
