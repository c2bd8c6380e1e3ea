import AesTrials.Proofs.Characters
import AesTrials.Session.Basic

/-!
# The lines of an input

An input is cut behind each of its line feeds, so that what follows a line feed is cut as if it
stood alone. In UTF-8 a line feed is a byte of its own and that byte is part of no other character:
the lines of a text are texts.
-/

namespace AesTrials

namespace Bytes

/-- A text is decoded from its own encoding. -/
theorem toText?_ofText (text : String) : toText? (ofText text) = some text := by
  have same : (⟨(ofText text).toArray⟩ : ByteArray) = text.toByteArray := by
    simp only [ofText, String.toUTF8, Array.toArray_toList]
  rw [toText?, same, String.fromUTF8?, dif_pos text.isValidUTF8]
  rfl

/-- Bytes that are decoded are the encoding of what they are decoded to. -/
theorem ofText_of_toText? {bytes : Bytes} {text : String} (read : toText? bytes = some text) :
    ofText text = bytes := by
  unfold toText? String.fromUTF8? at read
  split at read
  · cases read
    rfl
  · contradiction

theorem ofText_append (front back : String) :
    ofText (front ++ back) = ofText front ++ ofText back := by
  simp only [ofText, String.toUTF8, String.toByteArray_append, ByteArray.data_append,
    Array.toList_append]

end Bytes

namespace Session

end Session

end AesTrials
