import AesTrials.Proofs.Loops
import AesTrials.Proofs.Printed
import AesTrials.Proofs.WholeNumbers
import Mathlib.Data.List.Infix

/-!
# Scripts

A script is an input taken apart into what its lines are for: turns at the menu, of which a change
of the parameters takes lines until three questions are answered, and the lines with which the
session finishes. Every text is the text of a script, and the script says all that is done: a task
or a menu has the parameters of the last change before it that was complete.
-/

namespace AesTrials

namespace Script

/-- How a question is answered: by a line that is a number, behind lines that are refused. -/
structure Answer where
  /-- The lines that are refused. -/
  refused : List String
  /-- The line that answers the question. -/
  line : String
  /-- The number that it says. -/
  number : Nat
  /-- No number is said by a line that is refused. -/
  unfit : ∀ line ∈ refused, ∀ number, ¬ Dialogue.Answers line number
  /-- The number is that of the line. -/
  fit : Dialogue.Answers line number

/-- The lines that it takes to answer the question. -/
def Answer.lines (answer : Answer) : List String := answer.refused ++ [answer.line]

/-- A line at the menu, with the answers that it asks for. -/
inductive Turn where
  /-- The suite is run. -/
  | suite (line : String) (meant : MenuChoice.rerun.Meant (Text.mark? line))
  /-- The sweep is run. -/
  | sweep (line : String) (meant : MenuChoice.sweep.Meant (Text.mark? line))
  /-- The line is not understood. -/
  | unknown (line : String) (meant : MenuChoice.unknown.Meant (Text.mark? line))
  /-- The parameters are changed. -/
  | change (line : String) (meant : MenuChoice.change.Meant (Text.mark? line))
    (payloadSize aadSize iterations : Answer)

/-- The answers to the questions before the one that is left open. -/
inductive Progress where
  /-- The first question is open. -/
  | begun
  /-- The second question is open. -/
  | sized (payloadSize : Answer)
  /-- The third question is open. -/
  | paired (payloadSize aadSize : Answer)

/-- How the session finishes. -/
inductive Finish where
  /-- The input ends at the menu. -/
  | silent
  /-- The menu is left; the lines behind are not read. -/
  | quit (line : String) (meant : MenuChoice.quit.Meant (Text.mark? line)) (unread : List Bytes)
  /-- The input ends before the parameters are changed; the last lines are refused. -/
  | amid (line : String) (meant : MenuChoice.change.Meant (Text.mark? line)) (progress : Progress)
    (refused : List String) (unfit : ∀ line ∈ refused, ∀ number, ¬ Dialogue.Answers line number)

end Script

/-- An input taken apart. -/
structure Script where
  /-- The turns. -/
  turns : List Script.Turn
  /-- What comes behind them. -/
  finish : Script.Finish

namespace Script

/-- The lines of a turn. -/
def Turn.lines : Turn → List String
  | .suite line _ | .sweep line _ | .unknown line _ => [line]
  | .change line _ payloadSize aadSize iterations =>
    line :: (payloadSize.lines ++ aadSize.lines ++ iterations.lines)

/-- The parameters that a turn brings in force. -/
def Turn.changed? : Turn → Option Params
  | .suite .. | .sweep .. | .unknown .. => none
  | .change _ _ payloadSize aadSize iterations =>
    some ⟨payloadSize.number, aadSize.number, iterations.number⟩

/-- The task of a turn. -/
def Turn.task? (params : Params) : Turn → Option Task
  | .suite .. => some (.suite params)
  | .sweep .. => some (.sweep params)
  | .unknown .. | .change .. => none

/-- The lines that answer the questions before the open one. -/
def Progress.lines : Progress → List String
  | .begun => []
  | .sized payloadSize => payloadSize.lines
  | .paired payloadSize aadSize => payloadSize.lines ++ aadSize.lines

/-- The question that is open. -/
def Progress.question : Progress → Question
  | .begun => .payloadSize
  | .sized payloadSize => .aadSize payloadSize.number
  | .paired payloadSize aadSize => .iterations payloadSize.number aadSize.number

/-- The lines with which the session finishes. -/
def Finish.lines : Finish → List Bytes
  | .silent => []
  | .quit line _ unread => Bytes.ofText line :: unread
  | .amid line _ progress refused _ =>
    (line :: (progress.lines ++ refused)).map Bytes.ofText

/-- What the next line would be for. -/
def Finish.phase : Finish → Phase
  | .silent => .menu
  | .quit .. => .ended
  | .amid _ _ progress _ _ => .asking progress.question

/-- The lines of a script. -/
def lines (script : Script) : List Bytes :=
  (script.turns.flatMap Turn.lines).map Bytes.ofText ++ script.finish.lines

/-- The parameters in force after some turns: those of the last change, or else the initial ones. -/
def inForce (initial : Params) (turns : List Turn) : Params :=
  (turns.filterMap Turn.changed?).getLast?.getD initial

/-- What is done about lines that are refused: the question is put again for each. -/
def again (params : Params) (question : Question) (refused : List String) : List Action :=
  refused.flatMap fun _ =>
    [.print "Enter only a number\n", .print (Dialogue.prompt params question)]

/-- What is done about a question: it is put, and put again for each line that is refused. -/
def asked (params : Params) (question : Question) (refused : List String) : List Action :=
  .print (Dialogue.prompt params question) :: again params question refused

/-- What is done about the questions before the open one. -/
def Progress.actions (params : Params) : Progress → List Action
  | .begun => []
  | .sized payloadSize => asked params .payloadSize payloadSize.refused
  | .paired payloadSize aadSize =>
    asked params .payloadSize payloadSize.refused ++
      asked params (.aadSize payloadSize.number) aadSize.refused

/-- What is done in a turn. -/
def Turn.actions (sweep : String) (params : Params) : Turn → List Action
  | .suite .. => [.suite params, .print (Dialogue.menu sweep params)]
  | .sweep .. => [.sweep params, .print (Dialogue.menu sweep params)]
  | .unknown .. => [.print "Unknown input\n", .print (Dialogue.menu sweep params)]
  | .change _ _ payloadSize aadSize iterations =>
    let changed : Params := ⟨payloadSize.number, aadSize.number, iterations.number⟩
    (Progress.paired payloadSize aadSize).actions params ++
      asked params (.iterations payloadSize.number aadSize.number) iterations.refused ++
      [.changed changed, .print (Dialogue.menu sweep changed)]

/-- What is done at the end. -/
def Finish.actions (params : Params) : Finish → List Action
  | .silent | .quit .. => []
  | .amid _ _ progress refused _ =>
    progress.actions params ++ asked params progress.question refused

/-- What is done in turns, each under the parameters in force after those before it. -/
def turnActions (sweep : String) (initial : Params) (turns : List Turn) : List Action :=
  (List.zipWith (fun before turn => turn.actions sweep (inForce initial before))
    turns.inits turns).flatten

/-- The tasks of turns, each under the parameters in force after those before it. -/
def turnTasks (initial : Params) (turns : List Turn) : List Task :=
  (List.zipWith (fun before turn => turn.task? (inForce initial before))
    turns.inits turns).reduceOption

/-- What is done over a script. -/
def actions (sweep : String) (initial : Params) (script : Script) : List Action :=
  [.suite initial, .print (Dialogue.menu sweep initial)] ++
    turnActions sweep initial script.turns ++
    script.finish.actions (inForce initial script.turns)

/-- The tasks of a script: a suite first, and then those of the turns. -/
def tasks (initial : Params) (script : Script) : List Task :=
  .suite initial :: turnTasks initial script.turns

section Turns

variable (initial : Params) (turn : Turn) (turns : List Turn)

/-- After a turn the parameters in force are those that it changes to, or the initial ones. -/
theorem inForce_cons :
    inForce initial (turn :: turns) = inForce (turn.changed?.getD initial) turns := by
  rw [inForce, inForce, List.filterMap_cons]
  cases turn.changed? with
  | none => rfl
  | some changed =>
    rw [List.getLast?_cons]
    rfl

theorem turnActions_cons (sweep : String) :
    turnActions sweep initial (turn :: turns) =
      turn.actions sweep initial ++ turnActions sweep (turn.changed?.getD initial) turns := by
  rw [turnActions, List.inits_cons, List.zipWith_cons_cons, List.zipWith_map_left]
  simp only [inForce_cons]
  rfl

theorem turnTasks_cons :
    turnTasks initial (turn :: turns) =
      (turn.task? initial).toList ++ turnTasks (turn.changed?.getD initial) turns := by
  rw [turnTasks, List.inits_cons, List.zipWith_cons_cons, List.zipWith_map_left]
  simp only [inForce_cons]
  have start : inForce initial [] = initial := rfl
  rw [start]
  cases turn.task? initial <;> rfl

end Turns

section Tasks

variable (params : Params) (question : Question) (refused : List String)

theorem tasks_again : (again params question refused).filterMap Action.task? = [] := by
  induction refused with
  | nil => rfl
  | cons _ _ ih => exact ih

theorem tasks_asked : (asked params question refused).filterMap Action.task? = [] :=
  tasks_again params question refused

theorem Progress.tasks_actions (progress : Progress) :
    (progress.actions params).filterMap Action.task? = [] := by
  cases progress <;> simp [Progress.actions, tasks_asked]

theorem Turn.tasks_actions (sweep : String) (turn : Turn) :
    (turn.actions sweep params).filterMap Action.task? = (turn.task? params).toList := by
  cases turn with
  | suite | sweep | unknown => rfl
  | change text meant payloadSize aadSize iterations =>
    simp [Turn.actions, Turn.task?, Progress.tasks_actions, tasks_asked, Action.task?]

theorem Finish.tasks_actions (finish : Finish) :
    (finish.actions params).filterMap Action.task? = [] := by
  cases finish <;> simp [Finish.actions, Progress.tasks_actions, tasks_asked]

theorem tasks_turnActions (sweep : String) (turns : List Turn) :
    (turnActions sweep params turns).filterMap Action.task? = turnTasks params turns := by
  induction turns generalizing params with
  | nil => rfl
  | cons turn turns ih =>
    rw [turnActions_cons, turnTasks_cons, List.filterMap_append, Turn.tasks_actions, ih]

/-- The tasks of a script are those of its actions. -/
theorem tasks_actions (sweep : String) (initial : Params) (script : Script) :
    (script.actions sweep initial).filterMap Action.task? = script.tasks initial := by
  rw [actions, List.filterMap_append, List.filterMap_append, tasks_turnActions,
    Finish.tasks_actions, List.append_nil]
  rfl

end Tasks

section Existence

/-- The script with a turn in front. -/
def cons (turn : Turn) (script : Script) : Script := ⟨turn :: script.turns, script.finish⟩

end Existence

end Script

namespace Session

open Script

variable {sweep : String} {params : Params} {question : Question}

/-- Whether lines of text make a dialogue do some actions and go on as another one, whatever comes
behind them. -/
def Leads (sweep : String) (before : Dialogue) (texts : List String) (actions : List Action)
    (after : Dialogue) : Prop :=
  ∀ rest, hear sweep before (texts.map Bytes.ofText ++ rest) =
    (actions ++ (hear sweep after rest).1, (hear sweep after rest).2)

namespace Leads

theorem refl (dialogue : Dialogue) : Leads sweep dialogue [] [] dialogue := fun _ => rfl

/-- Lines lead on from where the lines before them lead. -/
theorem trans {before between after : Dialogue} {front back : List String}
    {first later : List Action} (one : Leads sweep before front first between)
    (other : Leads sweep between back later after) :
    Leads sweep before (front ++ back) (first ++ later) after := by
  intro rest
  rw [List.map_append, List.append_assoc, one, other, List.append_assoc]

/-- A line leads where its step leads. -/
theorem line {phase : Phase} (goes : phase ≠ .ended) (text : String) :
    Leads sweep ⟨params, phase⟩ [text] (Dialogue.step sweep ⟨params, phase⟩ text).2
      (Dialogue.step sweep ⟨params, phase⟩ text).1 :=
  fun rest => hear_text sweep goes text rest

/-- Lines that are refused lead back to the question. -/
theorem refused (texts : List String)
    (unfit : ∀ line ∈ texts, ∀ number, ¬ Dialogue.Answers line number) :
    Leads sweep ⟨params, .asking question⟩ texts (again params question texts)
      ⟨params, .asking question⟩ := by
  induction texts with
  | nil => exact refl _
  | cons text texts ih =>
    have first : Leads sweep ⟨params, .asking question⟩ [text]
        [.print "Enter only a number\n", .print (Dialogue.prompt params question)]
        ⟨params, .asking question⟩ := by
      have goes : Phase.asking question ≠ .ended := nofun
      have step : Leads sweep ⟨params, .asking question⟩ [text] _ _ := line goes text
      have none := Dialogue.answer?_eq_none_iff.mpr (unfit text List.mem_cons_self)
      simpa only [Dialogue.step, Dialogue.reply, none] using step
    exact first.trans (ih fun line later => unfit line (List.mem_cons_of_mem _ later))

/-- An answer leads where its number leads. -/
theorem answered (answer : Answer) :
    Leads sweep ⟨params, .asking question⟩ answer.lines
      (again params question answer.refused ++
        match Dialogue.next answer.number question with
        | .inl question => [.print (Dialogue.prompt params question)]
        | .inr changed => [.changed changed, .print (Dialogue.menu sweep changed)])
      (match Dialogue.next answer.number question with
        | .inl question => ⟨params, .asking question⟩
        | .inr changed => ⟨changed, .menu⟩) := by
  have goes : Phase.asking question ≠ .ended := nofun
  have last : Leads sweep ⟨params, .asking question⟩ [answer.line] _ _ := line goes answer.line
  have number := Dialogue.answer?_eq_some_iff.mpr answer.fit
  simp only [Dialogue.step, Dialogue.reply, number] at last
  refine (refused answer.refused answer.unfit).trans ?_
  cases next : Dialogue.next answer.number question with
  | inl question => simpa only [next] using last
  | inr changed => simpa only [next] using last

/-- A line at the menu leads where its choice leads. -/
theorem chosen {text : String} {choice : MenuChoice}
    (meant : choice.Meant (Text.mark? text)) :
    Leads sweep ⟨params, .menu⟩ [text] (Dialogue.choose sweep ⟨params, .menu⟩ choice).2
      (Dialogue.choose sweep ⟨params, .menu⟩ choice).1 := by
  have goes : Phase.menu ≠ .ended := nofun
  have step : Leads sweep ⟨params, .menu⟩ [text] _ _ := line goes text
  simpa only [Dialogue.step, MenuChoice.read_eq_iff.mpr meant] using step

/-- A change leads to the question that is open. -/
theorem progressed {text : String} (meant : MenuChoice.change.Meant (Text.mark? text))
    (progress : Progress) :
    Leads sweep ⟨params, .menu⟩ (text :: progress.lines)
      (progress.actions params ++ [.print (Dialogue.prompt params progress.question)])
      ⟨params, .asking progress.question⟩ := by
  have begun : Leads sweep ⟨params, .menu⟩ [text]
      [.print (Dialogue.prompt params .payloadSize)] ⟨params, .asking .payloadSize⟩ :=
    chosen meant
  have sized (payloadSize : Answer) : Leads sweep ⟨params, .menu⟩ (text :: payloadSize.lines)
      (asked params .payloadSize payloadSize.refused ++
        [.print (Dialogue.prompt params (.aadSize payloadSize.number))])
      ⟨params, .asking (.aadSize payloadSize.number)⟩ :=
    begun.trans (answered payloadSize)
  cases progress with
  | begun => exact begun
  | sized payloadSize => exact sized payloadSize
  | paired payloadSize aadSize =>
    have paired := (sized payloadSize).trans (answered aadSize)
    simpa [Progress.lines, Progress.question, Progress.actions, asked, Dialogue.next] using paired

/-- A turn leads back to the menu. -/
theorem turned (turn : Turn) :
    Leads sweep ⟨params, .menu⟩ turn.lines (turn.actions sweep params)
      ⟨turn.changed?.getD params, .menu⟩ := by
  cases turn with
  | suite text meant | sweep text meant | unknown text meant => exact chosen meant
  | change text meant payloadSize aadSize iterations =>
    have paired : Leads sweep ⟨params, .menu⟩ _ _ _ :=
      progressed meant (.paired payloadSize aadSize)
    have changed := paired.trans (answered iterations)
    simpa [Progress.lines, Progress.question, Turn.lines, Turn.changed?, Turn.actions, asked,
      Dialogue.next] using changed

/-- Turns lead back to the menu, with the parameters in force after them. -/
theorem turns (initial : Params) (turns : List Turn) :
    Leads sweep ⟨initial, .menu⟩ (turns.flatMap Turn.lines) (turnActions sweep initial turns)
      ⟨inForce initial turns, .menu⟩ := by
  induction turns generalizing initial with
  | nil => exact refl _
  | cons turn turns ih =>
    rw [List.flatMap_cons, turnActions_cons, inForce_cons]
    exact (turned turn).trans (ih _)

end Leads

end Session

end AesTrials
