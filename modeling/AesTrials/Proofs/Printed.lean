import AesTrials.Proofs.Agenda
import AesTrials.Proofs.Expectation

/-!
# What is printed

All that a session prints are the texts of its dialogue and the reports of its tasks. But for the
times in them, which are means of what the clock says, the reports are those that are expected; so
what is printed follows from what is to be done, up to a task that cannot be done.
-/

namespace AesTrials

/-- A part of what is printed. -/
inductive Printed where
  /-- A text of the dialogue. -/
  | words (text : String)
  /-- A report. -/
  | findings (report : Report)

namespace Printed

/-- The printed form of a part: a text of the dialogue as it is, and a report as a table or as JSON
with a line feed behind it. -/
def write (format : ReportFormat) : Printed → String
  | .words text => text
  | .findings report =>
    match format with
    | .table => Table.renderReport report ++ "\n"
    | .json => report.renderJson ++ "\n"

/-- The part, times left out. -/
def untimed : Printed → Printed
  | .words text => .words text
  | .findings report => .findings { report with results := report.untimed }

/-- Whether the times of a part are means of what a clock says. -/
def TimedBy (clock : Clock) : Printed → Prop
  | .words _ => True
  | .findings report => ∀ result ∈ report.results,
    ∃ run count, result.averageDuration = (clock run).average count

/-- The printed form of parts. -/
def writeAll (format : ReportFormat) (parts : List Printed) : String :=
  String.join (parts.map (write format))

theorem writeAll_append (format : ReportFormat) (front back : List Printed) :
    writeAll format (front ++ back) = writeAll format front ++ writeAll format back := by
  rw [writeAll, List.map_append, String.join_append]
  rfl

theorem writeAll_singleton (format : ReportFormat) (part : Printed) :
    writeAll format [part] = part.write format := by
  simp [writeAll, String.join]

end Printed

/-- A report is printed in its format. -/
theorem Task.render_eq_write (format : ReportFormat) (report : Report) :
    Task.render format report = (Printed.findings report).write format := by
  cases format <;> rfl

/-- Whether a text is the printed form of parts that have their times from a clock and are the given
ones, times left out. -/
def Shows (format : ReportFormat) (clock : Clock) (text : String) (expected : List Printed) :
    Prop :=
  ∃ parts, text = Printed.writeAll format parts ∧ parts.map Printed.untimed = expected ∧
    ∀ part ∈ parts, part.TimedBy clock

namespace Shows

variable {format : ReportFormat} {clock : Clock}

theorem nothing : Shows format clock "" [] := ⟨[], rfl, rfl, nofun⟩

/-- A text of the dialogue shows as it is. -/
theorem ofText (text : String) : Shows format clock text [.words text] :=
  ⟨[.words text], (Printed.writeAll_singleton _ (.words text)).symm, rfl,
    List.forall_mem_singleton.mpr trivial⟩

/-- Texts one behind the other show the parts of both. -/
theorem append {front back : String} {first later : List Printed}
    (one : Shows format clock front first) (other : Shows format clock back later) :
    Shows format clock (front ++ back) (first ++ later) := by
  obtain ⟨parts, rfl, rfl, timed⟩ := one
  obtain ⟨more, rfl, rfl, timedToo⟩ := other
  exact ⟨parts ++ more, (Printed.writeAll_append _ _ _).symm, List.map_append,
    List.forall_mem_append.mpr ⟨timed, timedToo⟩⟩

end Shows

/-- The times of a report are means of the times that were measured. -/
theorem Report.timed_ofOutcomes {params : Params} {outcomes : List Outcome}
    {times : List Elapsed} :
    ∀ result ∈ (ofOutcomes params outcomes times).results,
      ∃ time ∈ times, ∃ count, result.averageDuration = time.average count := by
  induction outcomes generalizing times with
  | nil => exact nofun
  | cons outcome outcomes ih =>
    cases times with
    | nil => exact nofun
    | cons time times =>
      refine List.forall_mem_cons.mpr ⟨⟨time, List.mem_cons_self, _, rfl⟩, ?_⟩
      intro result listed
      obtain ⟨time, among, mean⟩ := ih result listed
      exact ⟨time, List.mem_cons_of_mem _ among, mean⟩

/-- The report of a task, times left out. -/
def Task.expected (settings : Settings) (task : Task) : Report :=
  ⟨task.params, (task.entries settings).map fun entry => entry.1.result entry.2⟩

namespace Action

/-- The task that an action does. -/
def task? : Action → Option Task
  | .print _ | .changed _ => none
  | .suite params => some (.suite params)
  | .sweep params => some (.sweep params)

/-- Whether an action can be done. -/
def fits (action : Action) : Bool := action.task?.all Task.fits

/-- What an action prints, times left out. -/
def shown (settings : Settings) : Action → List Printed
  | .print text => [.words text]
  | .changed _ => []
  | .suite params => [.findings (Task.expected settings (.suite params))]
  | .sweep params => [.findings (Task.expected settings (.sweep params))]

end Action

namespace Session

variable (settings : Settings) (clock : Clock)

/-- The times of the report of a task are means of what the clock says. -/
theorem timed_perform (supplies : Supplies) (task : Task) :
    (Printed.findings (perform settings clock supplies task).1).TimedBy clock := by
  intro result listed
  obtain ⟨time, among, count, mean⟩ := Report.timed_ofOutcomes result listed
  obtain ⟨run, _, rfl⟩ := List.mem_map.mp among
  exact ⟨_, count, mean⟩

/-- The printed report of a task is the one that is expected. -/
theorem shows_perform (supplies : Supplies) {task : Task}
    (printed : ∀ report, (task.closing settings report).output =
      Task.render settings.reportFormat report) :
    Shows settings.reportFormat clock (perform settings clock supplies task).2.1.output
      [.findings (task.expected settings)] := by
  refine ⟨[.findings (perform settings clock supplies task).1], ?_, ?_, ?_⟩
  · rw [Printed.writeAll_singleton, ← Task.render_eq_write, ← printed]
    simp only [perform, Transcript.output_append, Transcript.log, String.empty_append]
  · have results := untimed_perform settings clock supplies task
    rw [List.map_singleton, Printed.untimed, results]
    rfl
  · exact List.forall_mem_singleton.mpr (timed_perform settings clock supplies task)

/-- An action that can be done shows what is expected of it. -/
theorem act_of_fits (supplies : Supplies) {action : Action} (fits : action.fits = true) :
    ((act settings clock supplies action).2.isSome = true) ∧
      Shows settings.reportFormat clock (act settings clock supplies action).1.output
        (action.shown settings) := by
  cases action with
  | print text => exact ⟨rfl, .ofText text⟩
  | changed params => exact ⟨rfl, .nothing⟩
  | suite params | sweep params =>
    simp only [Action.fits, Action.task?, Option.all_some] at fits
    simp only [act, perform?, fits, if_true]
    exact ⟨rfl, shows_perform settings clock supplies fun _ => rfl⟩

/-- An action that cannot be done prints nothing and is the last. -/
theorem act_of_not_fits (supplies : Supplies) {action : Action} (beyond : action.fits = false) :
    (act settings clock supplies action).2 = none ∧
      (act settings clock supplies action).1.output = "" := by
  cases action with
  | print text | changed params => contradiction
  | suite params | sweep params =>
    simp only [Action.fits, Action.task?, Option.all_some] at beyond
    simp only [act, perform?, beyond]
    exact ⟨rfl, rfl⟩

/-- Actions show what is expected of those before the first that cannot be done, and all are done
if there is none. -/
theorem shows_actAll (supplies : Supplies) (actions : List Action) :
    ((actAll settings clock supplies actions).2.isSome = actions.all Action.fits) ∧
      Shows settings.reportFormat clock (actAll settings clock supplies actions).1.output
        ((actions.takeWhile Action.fits).flatMap (Action.shown settings)) := by
  induction actions generalizing supplies with
  | nil => exact ⟨rfl, .nothing⟩
  | cons action actions ih =>
    rw [actAll, List.all_cons, List.takeWhile_cons]
    cases done : act settings clock supplies action with
    | mk first left =>
      cases fits : action.fits with
      | false =>
        have last := act_of_not_fits settings clock supplies fits
        rw [done] at last
        obtain ⟨rfl, silent⟩ := last
        refine ⟨rfl, ?_⟩
        rw [if_neg Bool.false_ne_true]
        exact silent ▸ .nothing
      | true =>
        have goes := act_of_fits settings clock supplies fits
        rw [done] at goes
        obtain ⟨some, shown⟩ := goes
        obtain ⟨left, rfl⟩ := Option.isSome_iff_exists.mp some
        obtain ⟨all, later⟩ := ih left
        exact ⟨all, shown.append later⟩

/-- An interaction shows what is expected of its actions before the first that cannot be done, and
ends as it is to end if there is none. -/
theorem shows_interact (supplies : Supplies) (input : Bytes) :
    let actions := (agenda settings input).1
    (interact settings clock supplies input).2 =
        (if actions.all Action.fits then (agenda settings input).2.2 else .exhausted) ∧
      Shows settings.reportFormat clock (interact settings clock supplies input).1.output
        ((actions.takeWhile Action.fits).flatMap (Action.shown settings)) := by
  intro actions
  obtain ⟨all, shown⟩ := shows_actAll settings clock supplies actions
  rw [interact_eq]
  cases done : actAll settings clock supplies actions with
  | mk transcript left =>
    rw [done] at all shown
    cases left with
    | none => exact ⟨by rw [← all]; rfl, shown⟩
    | some left =>
      rw [andThen_some, Transcript.append_empty, ← all]
      exact ⟨rfl, shown⟩

end Session

end AesTrials
