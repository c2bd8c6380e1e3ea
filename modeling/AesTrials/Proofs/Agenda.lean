import AesTrials.Proofs.InputLines

/-!
# What a session sets out to do

The dialogue never looks at how a task comes out, so what is to be done over an input is settled by
the input and the parameters at the start. A session does just that, in order, unless one of its
tasks cannot be done. More input behind a line only adds to it.
-/

namespace AesTrials.Session

/-- What is to be done over the lines left, the dialogue that is reached, and how the session ends
if all is done. -/
def hear (sweep : String) : Dialogue → List Bytes → List Action × Dialogue × End
  | dialogue, [] => ([], dialogue, .closed)
  | dialogue, line :: rest =>
    if dialogue.phase = .ended then ([], dialogue, .closed)
    else
      match Bytes.toText? line with
      | none => ([], dialogue, .unreadable)
      | some line =>
        let (dialogue, actions) := dialogue.step sweep line
        let (later, left) := hear sweep dialogue rest
        (actions ++ later, left)

/-- Everything that is to be done over an input, the dialogue that is reached, and how the session
ends if all is done. -/
def agenda (settings : Settings) (input : Bytes) : List Action × Dialogue × End :=
  let (dialogue, actions) := Dialogue.start settings.sweep.write settings.params
  let (later, left) := hear settings.sweep.write dialogue (lines input)
  (actions ++ later, left)

section Hear

variable (sweep : String) {dialogue : Dialogue}

/-- A line of text is answered, and what follows is heard by the dialogue it leads to. -/
theorem hear_text (goes : dialogue.phase ≠ .ended) (line : String) (rest : List Bytes) :
    hear sweep dialogue (Bytes.ofText line :: rest) =
      ((dialogue.step sweep line).2 ++ (hear sweep (dialogue.step sweep line).1 rest).1,
        (hear sweep (dialogue.step sweep line).1 rest).2) := by
  rw [hear, if_neg goes, Bytes.toText?_ofText]

end Hear

section Act

variable (settings : Settings) (clock : Clock)

/-- The transcript of actions begins with that of the first of them. -/
theorem actAll_append (supplies : Supplies) (front back : List Action) :
    actAll settings clock supplies (front ++ back) =
      match actAll settings clock supplies front with
      | (first, none) => (first, none)
      | (first, some left) =>
        (first ++ (actAll settings clock left back).1, (actAll settings clock left back).2) := by
  induction front generalizing supplies with
  | nil => simp [actAll]
  | cons action front ih =>
    rw [List.cons_append, actAll, actAll]
    cases act settings clock supplies action with
    | mk first left =>
      cases left with
      | none => rfl
      | some left =>
        simp only [ih left]
        cases actAll settings clock left front with
        | mk second between =>
          cases between with
          | none => rfl
          | some between => simp only [Transcript.append_assoc]

/-- Once the dialogue has ended no line is read. -/
theorem converse_of_ended {dialogue : Dialogue} (ended : dialogue.phase = .ended)
    (supplies : Supplies) (lines : List Bytes) :
    converse settings clock dialogue supplies lines = (.empty, .closed) := by
  cases lines with
  | nil => rfl
  | cons line rest => rw [converse, if_pos ended]

/-- A dialogue over lines does what is to be done over them, and then ends as it is to end. -/
theorem converse_eq (dialogue : Dialogue) (supplies : Supplies) (lines : List Bytes) :
    converse settings clock dialogue supplies lines =
      andThen (actAll settings clock supplies (hear settings.sweep.write dialogue lines).1)
        fun _ => (.empty, (hear settings.sweep.write dialogue lines).2.2) := by
  induction lines generalizing dialogue supplies with
  | nil => simp [converse, hear, actAll]
  | cons line rest ih =>
    rw [converse, hear]
    by_cases ended : dialogue.phase = .ended
    · simp [ended, actAll]
    · rw [if_neg ended, if_neg ended]
      cases Bytes.toText? line with
      | none => simp [actAll]
      | some line =>
        simp only [ih, actAll_append]
        cases actAll settings clock supplies (dialogue.step settings.sweep.write line).2 with
        | mk first left =>
          cases left with
          | none => rfl
          | some left =>
            simp only [andThen_some]
            cases actAll settings clock left (hear settings.sweep.write
                (dialogue.step settings.sweep.write line).1 rest).1 with
            | mk second between =>
              cases between with
              | none => simp
              | some between => simp

/-- The menu over an input does what is to be done over it, and then ends as it is to end. -/
theorem interact_eq (supplies : Supplies) (input : Bytes) :
    interact settings clock supplies input =
      andThen (actAll settings clock supplies (agenda settings input).1)
        fun _ => (.empty, (agenda settings input).2.2) := by
  simp only [interact, agenda, converse_eq, actAll_append]
  cases actAll settings clock supplies
      (Dialogue.start settings.sweep.write settings.params).2 with
  | mk first left =>
    cases left with
    | none => rfl
    | some left =>
      simp only [andThen_some]
      cases actAll settings clock left (hear settings.sweep.write
          (Dialogue.start settings.sweep.write settings.params).1 (lines input)).1 with
      | mk second between =>
        cases between with
        | none => simp
        | some between => simp

end Act

end AesTrials.Session
