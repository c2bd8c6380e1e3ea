import AesTrials.Proofs.Course
import AesTrials.Proofs.Script
import AesTrials.Proofs.Validation

/-!
# How often runs repeat

A report says how many cycles its runs were asked for. A run that passes makes that many, and its
mean time is taken over them, except that a run which is asked for none makes one all the same. The
settings never ask for none; a change of the parameters can.
-/

namespace AesTrials

/-- A run that is made and timed. -/
structure Measurement where
  /-- The job. -/
  job : Job
  /-- The entropy that it finds. -/
  entropy : Entropy
  /-- How long it takes. -/
  elapsed : Elapsed

namespace Measurement

/-- The result of the run. -/
def result (measured : Measurement) : Result :=
  (measured.job.run measured.entropy).1.result measured.elapsed

/-- The calls that the run makes of its variant. -/
def calls (measured : Measurement) : List Call :=
  let job := measured.job
  (Trial.journal Variant.subject job.inputs job.iterations job.setup
    (job.variant, measured.entropy)).calls

/-- Whether the run made a number of cycles, and its mean time is taken over as many. -/
def Over (measured : Measurement) (count : Nat) : Prop :=
  measured.calls.countP Call.isEncrypt = count ∧ measured.calls.countP Call.isDecrypt = count ∧
    measured.result.averageDuration = measured.elapsed.average count

/-- A run makes one number of cycles only. -/
theorem Over.unique {measured : Measurement} {count other : Nat} (one : measured.Over count)
    (two : measured.Over other) : count = other :=
  one.1.symm.trans two.1

end Measurement

/-- The runs of jobs one after the other, the first of which has a number on the clock. -/
def Job.measure (clock : Clock) : Nat → Entropy → List Job → List Measurement
  | _, _, [] => []
  | number, entropy, job :: jobs =>
    ⟨job, entropy, clock number⟩ :: measure clock (number + 1) (job.run entropy).2 jobs

namespace Session

variable (settings : Settings) (clock : Clock)

/-- Something that a session does and that shows. -/
inductive Deed where
  /-- A text of the dialogue is printed. -/
  | spoken (text : String)
  /-- A task is done with the supplies that it finds, and its report is printed. -/
  | performed (task : Task) (supplies : Supplies)

/-- What is printed for a deed. -/
def printed : Deed → Printed
  | .spoken text => .words text
  | .performed task supplies => .findings (perform settings clock supplies task).1

/-- The texts of an action. -/
def texts : Action → List String
  | .print text => [text]
  | .changed _ | .suite _ | .sweep _ => []

/-- What is to be done after the warm-up. -/
def actions (input : Bytes) : List Action :=
  match settings.mode with
  | .interactive => (agenda settings input).1
  | .suite => [.suite settings.params]
  | .sweep => [.sweep settings.params]

/-- The supplies that the warm-up leaves, or those at the start if there is none. -/
def ready (entropy : Entropy) : Supplies :=
  let supplies := Supplies.start settings.seed entropy
  if settings.warmUp then (perform settings clock supplies .warmUp).2.2 else supplies

section Output

variable {action : Action} {task : Task} (supplies : Supplies)

end Output

section Origin

end Origin

end Session

namespace Script

end Script

namespace Session

variable {settings : Settings} {clock : Clock}

/-- An environment that asks for one variant and one iteration. -/
def single : Environment :=
  [("CIPHERBENCH_ITERATIONS", "1"), ("CIPHERBENCH_VARIANTS", "aes128-gcm"),
    ("CIPHERBENCH_WARMUP", "false")]

end Session

end AesTrials
