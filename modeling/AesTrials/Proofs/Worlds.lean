import AesTrials.Proofs.Agenda
import AesTrials.Session.World

/-!
# Sessions on record

A world that only keeps a record of what is delivered, measures by a given clock and hears given
lines turns the steps of a session into functions. They are the functions by which sessions are
described: a session on record is the session over the same input, record for transcript and end for
end.
-/

namespace AesTrials

/-- A result and the record of what has been delivered on the way to it. -/
structure Recorded (α : Type) where
  /-- What has been delivered. -/
  record : Transcript
  /-- The result. -/
  result : α

namespace Recorded

variable {α β : Type}

instance : Monad Recorded where
  pure result := ⟨.empty, result⟩
  bind first next := ⟨first.record ++ (next first.result).record, (next first.result).result⟩

/-- Nothing is delivered where there is only a result. -/
@[simp] theorem pure_eq (result : α) : (pure result : Recorded α) = ⟨.empty, result⟩ := rfl

/-- What is done later is on record later. -/
@[simp] theorem bind_eq (first : Recorded α) (next : α → Recorded β) :
    first >>= next =
      ⟨first.record ++ (next first.result).record, (next first.result).result⟩ := rfl

/-- A result with its transcript on record. -/
def of (done : Transcript × α) : Recorded α := ⟨done.1, done.2⟩

end Recorded

namespace World

/-- The world that keeps a record. -/
def onRecord (clock : Clock) : World Recorded where
  deliver transcript := ⟨transcript, ()⟩
  measure number job entropy := ⟨.empty, (job.run entropy).1, clock number, (job.run entropy).2⟩

variable (settings : Settings) (clock : Clock)

@[simp] theorem deliver_onRecord (transcript : Transcript) :
    (onRecord clock).deliver transcript = ⟨transcript, ()⟩ := rfl

@[simp] theorem measure_onRecord (number : Nat) (job : Job) (entropy : Entropy) :
    (onRecord clock).measure number job entropy =
      ⟨.empty, (job.run entropy).1, clock number, (job.run entropy).2⟩ := rfl

/-- Runs on record are the runs made in order, each with the time of its number. -/
theorem runAll_onRecord (iterations number : Nat) (entropy : Entropy) (jobs : List Job) :
    let outcomes := (Job.runAll entropy jobs).1
    let times := (List.range outcomes.length).map fun i => clock (number + i)
    (onRecord clock).runAll iterations number entropy jobs =
      ⟨.log (List.zipWith (Log.Event.ofRun iterations) outcomes
          (List.zipWith Outcome.result outcomes times)).flatten,
        outcomes.zip times, (Job.runAll entropy jobs).2⟩ := by
  induction jobs generalizing number entropy with
  | nil => rfl
  | cons job jobs ih =>
    simp only [runAll, Job.runAll, measure_onRecord, deliver_onRecord, Recorded.bind_eq, ih,
      Recorded.pure_eq, List.length_cons, clock.map_range_succ, List.zipWith_cons_cons,
      List.zip_cons_cons, List.flatten_cons, Transcript.empty_append, Transcript.append_empty,
      Transcript.log_append]

/-- A task on record is the task if it can be done. -/
theorem perform?_onRecord (supplies : Supplies) (task : Task) :
    (onRecord clock).perform? settings supplies task =
      .of (Session.perform? settings clock supplies task) := by
  unfold perform? Session.perform?
  cases task.fits with
  | false => simp [Recorded.of]
  | true =>
    let jobs := (task.jobs settings supplies.stream).1
    let outcomes := (Job.runAll supplies.entropy jobs).1
    let times := (List.range outcomes.length).map fun i => clock (supplies.runs + i)
    have count : times.length = outcomes.length := by simp [times]
    have firsts : (outcomes.zip times).map Prod.fst = outcomes := List.map_fst_zip (by omega)
    have seconds : (outcomes.zip times).map Prod.snd = times := List.map_snd_zip (by omega)
    have zipped : (outcomes.zip times).length = outcomes.length := by simp [count]
    have recorded :=
      runAll_onRecord clock task.params.iterations supplies.runs supplies.entropy jobs
    simp only [if_true, deliver_onRecord, Recorded.bind_eq, recorded, Recorded.pure_eq, jobs,
      outcomes, times, firsts, seconds, zipped, Recorded.of, Session.perform, Session.runEvents,
      Report.ofOutcomes, Transcript.append_empty, ← Transcript.append_assoc,
      Transcript.log_append, List.append_assoc]

/-- An action on record is the action. -/
theorem act_onRecord (supplies : Supplies) (action : Action) :
    (onRecord clock).act settings supplies action =
      .of (Session.act settings clock supplies action) := by
  cases action with
  | print text => simp [act, Session.act, Recorded.of]
  | changed params => simp [act, Session.act, Recorded.of]
  | suite params => simp [act, Session.act, Recorded.of, perform?_onRecord]
  | sweep params => simp [act, Session.act, Recorded.of, perform?_onRecord]

/-- Actions on record are the actions, up to one that cannot be done. -/
theorem actAll_onRecord (supplies : Supplies) (actions : List Action) :
    (onRecord clock).actAll settings supplies actions =
      .of (Session.actAll settings clock supplies actions) := by
  induction actions generalizing supplies with
  | nil => rfl
  | cons action actions ih =>
    rw [actAll, Session.actAll, act_onRecord]
    cases Session.act settings clock supplies action with
    | mk first left =>
      cases left with
      | none => simp [Recorded.of]
      | some left => simp [Recorded.of, ih]

/-- The dialogue carried on over lines, until it ends or no line is left. -/
def converseOnRecord : List Bytes → Dialogue → Supplies → Recorded Session.End
  | [], _, _ => pure .closed
  | line :: rest, dialogue, supplies => do
    match ← (onRecord clock).hear settings dialogue supplies line with
    | .inl final => return final
    | .inr (dialogue, supplies) => converseOnRecord rest dialogue supplies

/-- A dialogue over lines goes the same way whether it notices its end before or after a line. -/
theorem converseOnRecord_eq (lines : List Bytes) {dialogue : Dialogue}
    (goes : dialogue.phase ≠ .ended) (supplies : Supplies) :
    converseOnRecord settings clock lines dialogue supplies =
      .of (Session.converse settings clock dialogue supplies lines) := by
  induction lines generalizing dialogue supplies with
  | nil => rfl
  | cons line rest ih =>
    rw [converseOnRecord, hear, Session.converse, if_neg goes]
    cases Bytes.toText? line with
    | none => simp [Recorded.of]
    | some line =>
      simp only [actAll_onRecord]
      cases Session.actAll settings clock supplies
          (dialogue.step settings.sweep.write line).2 with
      | mk first left =>
        cases left with
        | none => simp [Recorded.of]
        | some left =>
          by_cases ended : (dialogue.step settings.sweep.write line).1.phase = .ended
          · simp [Recorded.of, ended, Session.converse_of_ended]
          · simp [Recorded.of, ended, ih ended]

/-- The menu on record is the menu. -/
theorem interact_onRecord (supplies : Supplies) (input : Bytes) :
    (onRecord clock).interact settings
        (converseOnRecord settings clock (Session.lines input)) supplies =
      .of (Session.interact settings clock supplies input) := by
  unfold interact Session.interact
  simp only [actAll_onRecord]
  cases Session.actAll settings clock supplies
      (Dialogue.start settings.sweep.write settings.params).2 with
  | mk first left =>
    cases left with
    | none => simp [Recorded.of]
    | some left =>
      have goes : (Dialogue.start settings.sweep.write settings.params).1.phase ≠ .ended := nofun
      simp [Recorded.of, converseOnRecord_eq settings clock (Session.lines input) goes]

/-- The one task of a session on record is that task. -/
theorem reportOn_onRecord (supplies : Supplies) (task : Task) :
    (onRecord clock).reportOn settings supplies task =
      .of (Session.reportOn settings clock supplies task) := by
  unfold reportOn Session.reportOn
  rw [perform?_onRecord]
  cases Session.perform? settings clock supplies task with
  | mk transcript done => cases done <;> simp [Recorded.of]

/-- What the mode says is done on record as it is done. -/
theorem runMode_onRecord (supplies : Supplies) (input : Bytes) :
    (onRecord clock).runMode settings
        (converseOnRecord settings clock (Session.lines input)) supplies =
      .of (Session.runMode settings clock supplies input) := by
  unfold runMode Session.runMode
  cases settings.mode with
  | interactive => exact interact_onRecord settings clock supplies input
  | suite | sweep => exact reportOn_onRecord settings clock supplies _

/-- The steps of a session, taken by a world that keeps a record and hears the lines of an input,
print and log what the session prints and logs over that input, and end as it ends. -/
theorem run_onRecord (entropy : Entropy) (input : Bytes) :
    (onRecord clock).run settings (converseOnRecord settings clock (Session.lines input)) entropy =
      .of (Session.run settings clock entropy input) := by
  unfold run Session.run
  cases settings.warmUp with
  | false => exact runMode_onRecord settings clock _ input
  | true =>
    simp only [perform?_onRecord, Session.perform?, Task.fits_warmUp, if_true]
    simp [Recorded.of, runMode_onRecord]

end World

end AesTrials
