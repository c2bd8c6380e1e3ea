import AesTrials.Proofs.Worlds

/-!
# The menu as loops

Serving the menu is a loop over choices, and a change of the parameters asks three questions in a
row, each of them a loop up to a number. All loops take lines off one input, and the end of it ends
all of them. The dialogue, which takes one line at a time and knows what it is for, does the same.
-/

namespace AesTrials.Session

variable (settings : Settings) (clock : Clock)

/-- Keep something that is delivered on record. -/
def deliver (transcript : Transcript) : Recorded Unit := ⟨transcript, ()⟩

/-- Ask a question until a number is entered. What comes of it is the number and the lines left, or
the end of the session. -/
def promptNumber (prompt : String) : List Bytes → Recorded (End ⊕ Nat × List Bytes)
  | [] => do
    deliver (.print prompt)
    return .inl .closed
  | line :: rest => do
    deliver (.print prompt)
    match Bytes.toText? line with
    | none => return .inl .unreadable
    | some text =>
      match Dialogue.answer? text.toList with
      | some number => return .inr (number, rest)
      | none =>
        deliver (.print "Enter only a number\n")
        promptNumber prompt rest

/-- Ask for new parameters, which take effect together. -/
def changeParams (params : Params) (lines : List Bytes) :
    Recorded (End ⊕ Params × List Bytes) := do
  match ← promptNumber (Dialogue.prompt params .payloadSize) lines with
  | .inl final => return .inl final
  | .inr (payloadSize, lines) =>
    match ← promptNumber (Dialogue.prompt params (.aadSize payloadSize)) lines with
    | .inl final => return .inl final
    | .inr (aadSize, lines) =>
      match ← promptNumber (Dialogue.prompt params (.iterations payloadSize aadSize)) lines with
      | .inl final => return .inl final
      | .inr (iterations, lines) =>
        deliver (.log [.paramsChanged ⟨payloadSize, aadSize, iterations⟩])
        return .inr (⟨payloadSize, aadSize, iterations⟩, lines)

/-- A question takes no lines back. -/
theorem length_promptNumber {prompt : String} {lines left : List Bytes} {number : Nat}
    (asked : (promptNumber prompt lines).result = .inr (number, left)) :
    left.length ≤ lines.length := by
  induction lines with
  | nil => cases asked
  | cons line rest ih =>
    simp only [promptNumber, deliver, Recorded.bind_eq] at asked
    split at asked
    · cases asked
    · split at asked
      · cases asked
        simp
      · exact Nat.le_succ_of_le (ih asked)

/-- A change takes no lines back. -/
theorem length_changeParams {params changed : Params} {lines left : List Bytes}
    (answered : (changeParams params lines).result = .inr (changed, left)) :
    left.length ≤ lines.length := by
  simp only [changeParams, Recorded.bind_eq] at answered
  split at answered
  · cases answered
  · rename_i payloadSize second first
    split at answered
    · cases answered
    · rename_i aadSize third next
      split at answered
      · cases answered
      · rename_i iterations fourth last
        cases answered
        exact Nat.le_trans (length_promptNumber last)
          (Nat.le_trans (length_promptNumber next) (length_promptNumber first))

/-- Serve the menu until the session ends. -/
def serve (params : Params) (supplies : Supplies) (lines : List Bytes) : Recorded End := do
  deliver (.print (Dialogue.menu settings.sweep.write params))
  match lines with
  | [] => return .closed
  | line :: rest =>
    match Bytes.toText? line with
    | none => return .unreadable
    | some text =>
      match MenuChoice.read text.toList with
      | .rerun =>
        match ← Recorded.of (perform? settings clock supplies (.suite params)) with
        | none => return .exhausted
        | some (_, supplies) => serve params supplies rest
      | .change =>
        match changed : changeParams params rest with
        | ⟨record, .inl final⟩ => ⟨record, final⟩
        | ⟨record, .inr (params, left)⟩ =>
          have shorter : left.length ≤ rest.length := length_changeParams (by rw [changed])
          deliver record
          serve params supplies left
      | .sweep =>
        match ← Recorded.of (perform? settings clock supplies (.sweep params)) with
        | none => return .exhausted
        | some (_, supplies) => serve params supplies rest
      | .quit => return .closed
      | .unknown =>
        deliver (.print "Unknown input\n")
        serve params supplies rest
termination_by lines.length

section Dialogue

variable {settings clock} {params : Params} {supplies : Supplies}

end Dialogue

end AesTrials.Session
