import AesTrials.Frame

/-!
# Cutting messages

A message is cut where it is declared to be cut: the parts have the declared lengths and join to the
message, and nothing else does both. A message that is too short for the declared lengths is refused
with a framing error, whatever the lengths add up to. Messages that differ in one part only are cut
alike.
-/

namespace AesTrials.Frame

/-- The outer parts of a split message have the declared lengths. -/
theorem lengths_of_split {message : Bytes} {aadLength ivLength tagLength : Nat} {frame : Frame}
    (h : split message aadLength ivLength tagLength = .ok frame) :
    frame.aad.length = aadLength ∧ frame.iv.length = ivLength ∧ frame.tag.length = tagLength := by
  simp only [split] at h
  split at h
  · contradiction
  · split at h
    · contradiction
    · rename_i long
      cases h
      simp only [List.length_take, List.length_drop]
      omega

/-- Declared lengths of a split message add up to a size that can be stated. -/
theorem stated_of_split {message : Bytes} {aadLength ivLength tagLength : Nat} {frame : Frame}
    (h : split message aadLength ivLength tagLength = .ok frame) :
    aadLength + ivLength + tagLength < sizeLimit := by
  simp only [split] at h
  split at h
  · contradiction
  · omega

/-- A message that is shorter than its declared parts is refused: over their lengths if these add up
to more than a size that can be stated, else over its own. -/
theorem split_of_short {message : Bytes} {aadLength ivLength tagLength : Nat}
    (short : message.length < aadLength + ivLength + tagLength) :
    split message aadLength ivLength tagLength = .error (.corruptFraming
      (if sizeLimit ≤ aadLength + ivLength + tagLength then .lengthsOverflow else .tooShort)) := by
  by_cases overflow : sizeLimit ≤ aadLength + ivLength + tagLength
  · simp only [split, if_pos overflow]
  · simp only [split, if_neg overflow, if_pos short]

/-- A message that is shorter than its declared parts is refused over its framing. -/
theorem split_eq_error_of_short {message : Bytes} {aadLength ivLength tagLength : Nat}
    (short : message.length < aadLength + ivLength + tagLength) :
    ∃ fault, split message aadLength ivLength tagLength = .error (.corruptFraming fault) :=
  ⟨_, split_of_short short⟩

/-- A message that does not split is refused over its framing. -/
theorem error_of_split {message : Bytes} {aadLength ivLength tagLength : Nat} {error : CipherError}
    (h : split message aadLength ivLength tagLength = .error error) :
    ∃ fault, error = .corruptFraming fault := by
  simp only [split] at h
  split at h
  · cases h
    exact ⟨_, rfl⟩
  · split at h
    · cases h
      exact ⟨_, rfl⟩
    · contradiction

/-- A message splits into exactly the frame of the declared lengths that joins to it. -/
theorem split_eq_ok_iff {message : Bytes} {aadLength ivLength tagLength : Nat} {frame : Frame} :
    split message aadLength ivLength tagLength = .ok frame ↔
      aadLength + ivLength + tagLength < sizeLimit ∧ frame.join = message ∧
        frame.aad.length = aadLength ∧ frame.iv.length = ivLength ∧
        frame.tag.length = tagLength := by
  constructor
  · intro h
    exact ⟨stated_of_split h, join_of_split h, lengths_of_split h⟩
  · rintro ⟨stated, rfl, rfl, rfl, rfl⟩
    exact split_join frame stated

/-- A message that is long enough for its declared parts splits. -/
theorem exists_split {message : Bytes} {aadLength ivLength tagLength : Nat}
    (stated : aadLength + ivLength + tagLength < sizeLimit)
    (long : aadLength + ivLength + tagLength ≤ message.length) :
    ∃ frame, split message aadLength ivLength tagLength = .ok frame := by
  simp only [split, if_neg (Nat.not_le_of_lt stated), if_neg (Nat.not_lt_of_le long)]
  exact ⟨_, rfl⟩

section Parts

variable {message : Bytes} {aadLength ivLength tagLength : Nat} {frame : Frame}

/-- In front of a message that splits stands its additional data. -/
theorem take_of_split (parts : split message aadLength ivLength tagLength = .ok frame) :
    message.take aadLength = frame.aad := by
  obtain ⟨_, joined, aad, _⟩ := split_eq_ok_iff.mp parts
  rw [← joined, ← aad, join, List.append_assoc, List.append_assoc, List.take_left]

/-- Behind the additional data stands the vector. -/
theorem take_drop_of_split (parts : split message aadLength ivLength tagLength = .ok frame) :
    (message.drop aadLength).take ivLength = frame.iv := by
  obtain ⟨_, joined, aad, iv, _⟩ := split_eq_ok_iff.mp parts
  rw [← joined, ← aad, ← iv, join, List.append_assoc, List.append_assoc, List.drop_left,
    List.take_left]

/-- A message that splits is long enough to hold its tag. -/
theorem untaggedLength?_of_split
    (parts : split message aadLength ivLength tagLength = .ok frame) :
    untaggedLength? message tagLength = some (message.length - tagLength) := by
  obtain ⟨_, joined, _, _, tag⟩ := split_eq_ok_iff.mp parts
  have total := length_join frame
  rw [joined, tag] at total
  rw [untaggedLength?, if_pos (by omega)]

/-- In front of the tag of a message that splits stand its other parts. -/
theorem take_untagged (parts : split message aadLength ivLength tagLength = .ok frame) :
    message.take (message.length - tagLength) = frame.aad ++ frame.iv ++ frame.body := by
  obtain ⟨_, joined, _, _, tag⟩ := split_eq_ok_iff.mp parts
  rw [← joined, ← tag, join, List.length_append, Nat.add_sub_cancel, List.take_left]

/-- The rest of a message that splits is its tag. -/
theorem drop_untagged (parts : split message aadLength ivLength tagLength = .ok frame) :
    message.drop (message.length - tagLength) = frame.tag := by
  obtain ⟨_, joined, _, _, tag⟩ := split_eq_ok_iff.mp parts
  rw [← joined, ← tag, join, List.length_append, Nat.add_sub_cancel, List.drop_left]

/-- Cut again without its tag, a message that splits has the same other parts. -/
theorem split_untagged (parts : split message aadLength ivLength tagLength = .ok frame) :
    split (message.take (message.length - tagLength)) aadLength ivLength 0 =
      .ok { frame with tag := [] } := by
  obtain ⟨stated, _, aad, iv, _⟩ := split_eq_ok_iff.mp parts
  refine split_eq_ok_iff.mpr ⟨by omega, ?_, aad, iv, rfl⟩
  rw [take_untagged parts, join, List.append_nil]

/-- A message with as many other bytes in front is cut in the same way behind them. -/
theorem split_of_drop_eq {other : Bytes} (length : other.length = message.length)
    (behind : other.drop aadLength = message.drop aadLength) (ivLength tagLength : Nat) :
    split other aadLength ivLength tagLength =
      (split message aadLength ivLength tagLength).map
        fun frame => { frame with aad := other.take aadLength } := by
  simp only [split, length, behind]
  split
  · rfl
  · split <;> rfl

/-- A message with as many other bytes for a tag is cut in the same way in front of them. -/
theorem split_of_take_eq {other : Bytes} (length : other.length = message.length)
    (front : other.take (message.length - tagLength) = message.take (message.length - tagLength))
    (parts : split message aadLength ivLength tagLength = .ok frame) :
    split other aadLength ivLength tagLength =
      .ok { frame with tag := other.drop (message.length - tagLength) } := by
  obtain ⟨stated, joined, aad, iv, tag⟩ := split_eq_ok_iff.mp parts
  have total := length_join frame
  rw [joined] at total
  have tagged : (other.drop (message.length - tagLength)).length = tagLength := by
    rw [List.length_drop]
    omega
  refine split_eq_ok_iff.mpr ⟨stated, ?_, aad, iv, tagged⟩
  rw [join, ← take_untagged parts, ← front, List.take_append_drop]

end Parts

end AesTrials.Frame
