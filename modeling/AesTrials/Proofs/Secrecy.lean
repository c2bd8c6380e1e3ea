import AesTrials.Program
import AesTrials.Proofs.MaskedReport
import AesTrials.Proofs.Means

/-!
# What a session gives away

The keys, vectors and additional data of a session come from its seed or from entropy, and a warm-up
uses some of them up. None of this shows: but for the times that were measured, what a session
prints and how it ends follow from the rest of its settings and from its input.
-/

namespace AesTrials

namespace Session

/-- How a session ends, times left out. -/
def End.untimed : End → End
  | .reported report => .reported { report with results := report.untimed }
  | .closed => .closed
  | .unreadable => .unreadable
  | .exhausted => .exhausted

/-- What is printed about one task over which a session ends, times left out. -/
def shownOf (settings : Settings) (task : Task) : List Printed :=
  if task.fits then [.findings (task.expected settings)] else []

/-- How a session ends over one task, times left out. -/
def endingOf (settings : Settings) (task : Task) : End :=
  if task.fits then .reported (task.expected settings) else .exhausted

/-- What a session prints, times left out. -/
def shown (settings : Settings) (input : Bytes) : List Printed :=
  match settings.mode with
  | .interactive =>
    ((agenda settings input).1.takeWhile Action.fits).flatMap (Action.shown settings)
  | .suite => shownOf settings (.suite settings.params)
  | .sweep => shownOf settings (.sweep settings.params)

/-- How a session ends, times left out. -/
def ending (settings : Settings) (input : Bytes) : End :=
  match settings.mode with
  | .interactive =>
    if (agenda settings input).1.all Action.fits then (agenda settings input).2.2 else .exhausted
  | .suite => endingOf settings (.suite settings.params)
  | .sweep => endingOf settings (.sweep settings.params)

variable (settings : Settings) (clock : Clock) (supplies : Supplies)

/-- A dialogue does not end with a report. -/
theorem untimed_hear (sweep : String) (dialogue : Dialogue) (lines : List Bytes) :
    (hear sweep dialogue lines).2.2.untimed = (hear sweep dialogue lines).2.2 := by
  induction lines generalizing dialogue with
  | nil => rfl
  | cons line rest ih =>
    rw [hear]
    split
    · rfl
    · split
      · rfl
      · exact ih _

/-- A task over which a session ends shows what is expected of it. -/
theorem shows_reportOn {task : Task}
    (printed : ∀ report, (task.closing settings report).output =
      Task.render settings.reportFormat report) :
    (reportOn settings clock supplies task).2.untimed = endingOf settings task ∧
      Shows settings.reportFormat clock (reportOn settings clock supplies task).1.output
        (shownOf settings task) := by
  cases fits : task.fits with
  | false =>
    simp only [reportOn, perform?, endingOf, shownOf, fits]
    exact ⟨rfl, .nothing⟩
  | true =>
    simp only [reportOn, perform?, endingOf, shownOf, fits, if_true]
    refine ⟨?_, shows_perform settings clock supplies printed⟩
    rw [End.untimed, untimed_perform]
    rfl

/-- Whatever the mode, a session shows what is expected of it. -/
theorem shows_runMode (input : Bytes) :
    (runMode settings clock supplies input).2.untimed = ending settings input ∧
      Shows settings.reportFormat clock (runMode settings clock supplies input).1.output
        (shown settings input) := by
  rw [runMode, ending, shown]
  cases settings.mode with
  | interactive =>
    obtain ⟨ends, shows⟩ := shows_interact settings clock supplies input
    refine ⟨?_, shows⟩
    rw [ends]
    split
    · exact untimed_hear _ _ _
    · rfl
  | suite => exact shows_reportOn settings clock supplies fun _ => rfl
  | sweep => exact shows_reportOn settings clock supplies fun _ => rfl

/-- A session shows what is expected of it, warmed up or not. -/
theorem shows_run (entropy : Entropy) (input : Bytes) :
    (run settings clock entropy input).2.untimed = ending settings input ∧
      Shows settings.reportFormat clock (run settings clock entropy input).1.output
        (shown settings input) := by
  rw [run]
  split
  · have silent (supplies : Supplies) :
        (perform settings clock supplies .warmUp).2.1.output = "" := by
      simp [perform, Task.closing, Transcript.log]
    simp only [Transcript.output_append, silent, String.empty_append]
    exact shows_runMode settings clock _ input
  · exact shows_runMode settings clock _ input

end Session

/-- The program ends in the same way whatever times its report has. -/
theorem Ending.ofSession_untimed (final : Session.End) :
    ofSession final.untimed = ofSession final := by
  cases final with
  | closed | unreadable | exhausted => rfl
  | reported report =>
    have failures : (Report.mk report.params report.untimed).failureCount =
        report.failureCount := by
      simp only [Report.failureCount, Report.untimed, List.filter_map, List.length_map]
      rfl
    simp only [Session.End.untimed, ofSession, failures]

namespace Session

/-- The names in what a session prints fit their column. -/
theorem namesFit_shown (settings : Settings) (input : Bytes) :
    ∀ part ∈ shown settings input, part.NamesFit := by
  have one (task : Task) : ∀ part ∈ shownOf settings task, part.NamesFit := by
    intro part listed
    rw [shownOf] at listed
    split at listed
    · rw [List.mem_singleton.mp listed]
      exact task.namesFit_expected settings
    · contradiction
  intro part listed
  rw [shown] at listed
  split at listed
  · obtain ⟨action, _, among⟩ := List.mem_flatMap.mp listed
    exact action.namesFit_shown settings part among
  · exact one _ part listed
  · exact one _ part listed

/-- Two sessions that differ in the seed, in whether they warm up, in the entropy that they find and
in the times that they measure. Times left out, both print the same and both end in the same way,
and this is what is expected of the settings and the input that they share. Their texts are the same
once times are hidden in them, in JSON always and in a table if the times are legible there. -/
theorem run_noninterference (settings : Settings) (input : Bytes) (seed otherSeed : Option Nat)
    (warmUp otherWarmUp : Bool) (clock otherClock : Clock) (entropy otherEntropy : Entropy) :
    let one := run { settings with seed, warmUp } clock entropy input
    let other := run { settings with seed := otherSeed, warmUp := otherWarmUp } otherClock
      otherEntropy input
    (∃ parts otherParts,
      one.1.output = Printed.writeAll settings.reportFormat parts ∧
        other.1.output = Printed.writeAll settings.reportFormat otherParts ∧
        parts.map Printed.untimed = shown settings input ∧
        otherParts.map Printed.untimed = shown settings input) ∧
      (one.2.untimed = ending settings input ∧ other.2.untimed = ending settings input ∧
        Ending.ofSession one.2 = Ending.ofSession other.2) ∧
      (settings.reportFormat = .json ∨ clock.Legible ∧ otherClock.Legible →
        Masking.hide one.1.output = Masking.hide other.1.output) := by
  intro one other
  obtain ⟨ends, parts, output, same, timed⟩ :=
    shows_run { settings with seed, warmUp } clock entropy input
  obtain ⟨otherEnds, otherParts, otherOutput, otherSame, otherTimed⟩ :=
    shows_run { settings with seed := otherSeed, warmUp := otherWarmUp } otherClock otherEntropy
      input
  refine ⟨⟨parts, otherParts, output, otherOutput, same, otherSame⟩, ⟨ends, otherEnds, ?_⟩, ?_⟩
  · rw [← Ending.ofSession_untimed, ends, ← Ending.ofSession_untimed other.2, otherEnds]
    rfl
  · intro readable
    have fits : ∀ part ∈ parts, part.NamesFit := by
      intro part listed
      apply Printed.namesFit_of_untimed
      apply namesFit_shown settings input
      exact same ▸ List.mem_map_of_mem listed
    have pairs : parts.map Printed.untimed = otherParts.map Printed.untimed :=
      same.trans otherSame.symm
    apply Masking.Alike.hide_eq
    rw [show one.1.output = _ from output, show other.1.output = _ from otherOutput]
    exact Printed.alike_writeAll readable pairs fits timed otherTimed

/-- Two sessions over a table, one of them seeded and warmed up, whose runs take different times. -/
theorem run_noninterference_table :
    let settings : Settings := { (default : Settings) with reportFormat := .table }
    Clock.Legible (fun _ => .zero) ∧ Clock.Legible (fun _ => .ofNanoseconds 60) ∧
      Masking.hide (run { settings with seed := some 7, warmUp := true } (fun _ => .zero)
          (.cycle [1, 2]) (Bytes.ofText "s\n")).1.output =
        Masking.hide (run { settings with seed := none, warmUp := false }
          (fun _ => .ofNanoseconds 60) (.cycle [3]) (Bytes.ofText "s\n")).1.output := by
  intro settings
  have legible : ∀ nanoseconds ≤ 60, (Duration.mk nanoseconds).Legible := by
    unfold Duration.Legible
    decide +kernel
  -- A mean is no longer than that of one cycle.
  have means {elapsed : Elapsed} (short : (elapsed.average 1).nanoseconds ≤ 60) (count : Nat) :
      (elapsed.average count).Legible := by
    obtain rfl | positive := Nat.eq_zero_or_pos count
    · exact legible 0 (Nat.zero_le 60)
    · exact legible _ ((elapsed.average_le positive).trans short)
  have empty : (Elapsed.zero.average 1).nanoseconds ≤ 60 := by decide +kernel
  have few : ((Elapsed.ofNanoseconds 60).average 1).nanoseconds ≤ 60 := by decide +kernel
  have still : Clock.Legible fun _ => .zero := fun _ => means empty
  have short : Clock.Legible fun _ => .ofNanoseconds 60 := fun _ => means few
  exact ⟨still, short, (run_noninterference settings (Bytes.ofText "s\n") (some 7) none true false
    (fun _ => .zero) (fun _ => .ofNanoseconds 60) (.cycle [1, 2]) (.cycle [3])).2.2
    (.inr ⟨still, short⟩)⟩

end Session

end AesTrials
