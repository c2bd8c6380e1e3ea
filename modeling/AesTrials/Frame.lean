import AesTrials.Bytes
import AesTrials.CipherError

/-!
# The layout of a message

A message is its additional data, its vector, its body and its tag, one after the other. It holds
no lengths: whoever splits a message says how long the three outer parts are. Sizes are 64-bit, so
declared lengths that add up to more are refused before they are compared with the message.
Splitting undoes joining, and joining undoes splitting.
-/

namespace AesTrials

/-- The four parts of a message. -/
structure Frame where
  /-- Additional data, carried in the clear. -/
  aad : Bytes
  /-- Initialisation vector or nonce; empty where none is sent. -/
  iv : Bytes
  /-- Ciphertext. -/
  body : Bytes
  /-- Authentication tag; empty where there is none. -/
  tag : Bytes
deriving DecidableEq, Repr, Inhabited

/-- One more than the largest size that can be stated. -/
def sizeLimit : Nat := Nat.pow 2 64

namespace Frame

/-- The parts one after the other. -/
def join (frame : Frame) : Bytes :=
  frame.aad ++ frame.iv ++ frame.body ++ frame.tag

/-- The message cut at the declared lengths; the body is what is left between them. -/
def split (message : Bytes) (aadLength ivLength tagLength : Nat) : Except CipherError Frame :=
  let outer := aadLength + ivLength + tagLength
  if sizeLimit ≤ outer then .error (.corruptFraming .lengthsOverflow)
  else if message.length < outer then .error (.corruptFraming .tooShort)
  else
    let afterAad := message.drop aadLength
    let afterIv := afterAad.drop ivLength
    let bodyLength := message.length - outer
    .ok { aad := message.take aadLength
          iv := afterAad.take ivLength
          body := afterIv.take bodyLength
          tag := afterIv.drop bodyLength }

/-- The length of the message without its tag, if it is long enough to hold one. -/
def untaggedLength? (message : Bytes) (tagLength : Nat) : Option Nat :=
  if tagLength ≤ message.length then some (message.length - tagLength) else none

/-- A frame is as long as its parts together. -/
theorem length_join (frame : Frame) :
    frame.join.length =
      frame.aad.length + frame.iv.length + frame.body.length + frame.tag.length := by
  simp only [join, List.length_append]

/-- The parts of a split message give the message back. -/
theorem join_of_split {message : Bytes} {aadLength ivLength tagLength : Nat} {frame : Frame}
    (h : split message aadLength ivLength tagLength = .ok frame) : frame.join = message := by
  simp only [split] at h
  split at h
  · contradiction
  · split at h
    · contradiction
    · cases h
      simp only [join, List.append_assoc, List.take_append_drop]

/-- A message splits at the lengths of its parts into those parts. -/
theorem split_join (frame : Frame)
    (h : frame.aad.length + frame.iv.length + frame.tag.length < sizeLimit) :
    split frame.join frame.aad.length frame.iv.length frame.tag.length = .ok frame := by
  have short : ¬ sizeLimit ≤ frame.aad.length + frame.iv.length + frame.tag.length := by omega
  have long : ¬ frame.join.length < frame.aad.length + frame.iv.length + frame.tag.length := by
    rw [length_join]
    omega
  have body : frame.join.length - (frame.aad.length + frame.iv.length + frame.tag.length) =
      frame.body.length := by
    rw [length_join]
    omega
  simp only [split, short, long, if_false, body]
  simp [join]

end Frame

end AesTrials
