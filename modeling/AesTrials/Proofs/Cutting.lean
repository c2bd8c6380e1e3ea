import AesTrials.InBounds
import AesTrials.Proofs.Framing

/-!
# Messages and frames

Cutting is done step by step: two sums of declared lengths, each of which has to fit a word, three
cuts, and a subtraction from what is left behind the second of them. No step ever leaves its bounds,
since the sum is compared with the message first. So messages that are long enough for the declared
lengths and frames with outer parts of these lengths correspond one to one.
-/

namespace AesTrials.Frame

open InBounds

/-- The declared lengths added up from the front, if a word holds every sum on the way. -/
def outer? (aadLength ivLength tagLength : UInt64) : Option UInt64 :=
  (sum? aadLength ivLength).bind fun front => sum? front tagLength

/-- The message cut step by step; no result at all if a step leaves its bounds. -/
def splitInSteps (message : Bytes) (aadLength ivLength tagLength : UInt64) :
    Option (Except CipherError Frame) :=
  match outer? aadLength ivLength tagLength with
  | none => some (.error (.corruptFraming .lengthsOverflow))
  | some outer =>
    if message.length < outer.toNat then some (.error (.corruptFraming .tooShort))
    else do
      let (aad, rest) ← cut? message aadLength.toNat
      let (iv, rest) ← cut? rest ivLength.toNat
      let position ← difference? rest.length tagLength.toNat
      let (body, tag) ← cut? rest position
      some (.ok { aad, iv, body, tag })

section Steps

variable {aadLength ivLength tagLength outer : UInt64}

/-- What the declared lengths add up to. -/
theorem toNat_of_outer? (added : outer? aadLength ivLength tagLength = some outer) :
    outer.toNat = aadLength.toNat + ivLength.toNat + tagLength.toNat := by
  obtain ⟨front, first, second⟩ := Option.bind_eq_some_iff.mp added
  rw [sum?_eq_some_iff] at first second
  rw [second, first]

/-- A sum that no word holds is found out at the first or at the second addition. -/
theorem overflow_of_outer? (overflow : outer? aadLength ivLength tagLength = none) :
    sizeLimit ≤ aadLength.toNat + ivLength.toNat + tagLength.toNat := by
  unfold outer? at overflow
  cases first : sum? aadLength ivLength with
  | none =>
    have exceeds := sum?_eq_none_iff.mp first
    omega
  | some front =>
    rw [first, Option.bind_some] at overflow
    have exceeds := sum?_eq_none_iff.mp overflow
    have same := sum?_eq_some_iff.mp first
    omega

/-- Every step of cutting a message stays in bounds, and all of them together cut it. -/
theorem splitInSteps_eq (message : Bytes) (aadLength ivLength tagLength : UInt64) :
    splitInSteps message aadLength ivLength tagLength =
      some (split message aadLength.toNat ivLength.toNat tagLength.toNat) := by
  unfold splitInSteps
  cases added : outer? aadLength ivLength tagLength with
  | none => simp only [split, if_pos (overflow_of_outer? added)]
  | some outer =>
    have total := toNat_of_outer? added
    have stated : ¬ sizeLimit ≤ outer.toNat := Nat.not_le_of_lt outer.toNat_lt
    by_cases short : message.length < outer.toNat
    · simp only [split, ← total, if_neg stated, if_pos short]
    · -- What is behind the vector is the body and the tag.
      have first : aadLength.toNat ≤ message.length := by omega
      have second : ivLength.toNat ≤ (message.drop aadLength.toNat).length := by
        rw [List.length_drop]
        omega
      have rest : ((message.drop aadLength.toNat).drop ivLength.toNat).length -
          tagLength.toNat = message.length - outer.toNat := by
        rw [List.length_drop, List.length_drop]
        omega
      have third : tagLength.toNat ≤
          ((message.drop aadLength.toNat).drop ivLength.toNat).length := by
        rw [List.length_drop, List.length_drop]
        omega
      have last : message.length - outer.toNat ≤
          ((message.drop aadLength.toNat).drop ivLength.toNat).length := by
        omega
      simp only [if_neg short, cut?_of_le first, Option.bind_eq_bind, Option.bind_some,
        cut?_of_le second, difference?_of_le third, rest, cut?_of_le last, split, ← total,
        if_neg stated]

end Steps

/-- A message splits exactly if its declared lengths add up to no more than its own. -/
theorem exists_split_iff {message : Bytes} (stated : message.length < sizeLimit)
    {aadLength ivLength tagLength : Nat} :
    (∃ frame, split message aadLength ivLength tagLength = .ok frame) ↔
      aadLength + ivLength + tagLength ≤ message.length := by
  constructor
  · rintro ⟨frame, parts⟩
    obtain ⟨_, joined, aad, iv, tag⟩ := split_eq_ok_iff.mp parts
    have total := length_join frame
    rw [joined] at total
    omega
  · intro long
    exact exists_split (Nat.lt_of_le_of_lt long stated) long

/-- The body of a split message is what its outer parts leave of it. -/
theorem length_body_of_split {message : Bytes} {aadLength ivLength tagLength : Nat} {frame : Frame}
    (parts : split message aadLength ivLength tagLength = .ok frame) :
    frame.body.length = message.length - (aadLength + ivLength + tagLength) := by
  obtain ⟨_, joined, aad, iv, tag⟩ := split_eq_ok_iff.mp parts
  have total := length_join frame
  rw [joined] at total
  omega

/-- Cutting at declared lengths and joining are inverse to each other, for all messages whose length
is a size. No step of cutting leaves its bounds. A message is cut exactly if the declared lengths,
added as numbers, are no more than its own, and refused over its framing otherwise, also where a
word does not hold their sum; its parts have the declared lengths, the body has the rest, and they
join to the message. And a frame that joins to such a message is got back from it at the lengths of
its outer parts. -/
theorem split_join_inverse :
    (∀ (message : Bytes) (aadLength ivLength tagLength : UInt64), message.length < sizeLimit →
      let outer := aadLength.toNat + ivLength.toNat + tagLength.toNat
      let cut := split message aadLength.toNat ivLength.toNat tagLength.toNat
      splitInSteps message aadLength ivLength tagLength = some cut ∧
        ((∃ frame, cut = .ok frame) ↔ outer ≤ message.length) ∧
        (message.length < outer → cut = .error (.corruptFraming
          (if sizeLimit ≤ outer then .lengthsOverflow else .tooShort))) ∧
        ∀ frame, cut = .ok frame →
          frame.aad.length = aadLength.toNat ∧ frame.iv.length = ivLength.toNat ∧
            frame.body.length = message.length - outer ∧ frame.tag.length = tagLength.toNat ∧
            frame.join = message) ∧
      ∀ frame : Frame, frame.join.length < sizeLimit →
        split frame.join frame.aad.length frame.iv.length frame.tag.length = .ok frame := by
  constructor
  · intro message aadLength ivLength tagLength stated outer cut
    refine ⟨splitInSteps_eq message aadLength ivLength tagLength, exists_split_iff stated,
      split_of_short, ?_⟩
    intro frame parts
    obtain ⟨aad, iv, tag⟩ := lengths_of_split parts
    exact ⟨aad, iv, length_body_of_split parts, tag, join_of_split parts⟩
  · intro frame stated
    have total := length_join frame
    exact split_join frame (by omega)

/-- Five bytes in three parts, lengths that only a larger word adds up, and the frame of five
bytes. -/
theorem split_join_inverse_five :
    let message : Bytes := [1, 2, 3, 4, 5]
    let frame : Frame := ⟨[1], [2, 3], [], [4, 5]⟩
    (∃ frame, split message 1 2 2 = .ok frame ∧ frame.body.length = 0 ∧ frame.join = message) ∧
      split message 18446744073709551615 1 0 = .error (.corruptFraming .lengthsOverflow) ∧
      split frame.join 1 2 2 = .ok frame := by
  intro message frame
  obtain ⟨cuts, joins⟩ := split_join_inverse
  have stated : message.length < sizeLimit := by decide
  obtain ⟨_, long, _, parts⟩ := cuts message 1 2 2 stated
  obtain ⟨_, _, short, _⟩ := cuts message 18446744073709551615 1 0 stated
  obtain ⟨found, cut⟩ := long.mpr (by decide)
  obtain ⟨_, _, body, _, joined⟩ := parts found cut
  exact ⟨⟨found, cut, body, joined⟩, short (by decide), joins frame (by decide)⟩

end AesTrials.Frame
