/-!
# Byte strings

Messages, keys and tags are lists of bytes. The words that the block cipher and the hash work on
are read from four or eight bytes at a time and written back in either byte order.
-/

namespace AesTrials

/-- A string of bytes. -/
abbrev Bytes := List UInt8

namespace Bytes

/-- The bytewise exclusive or, as long as the shorter operand. -/
def xor (left right : Bytes) : Bytes :=
  List.zipWith (fun l r => l ^^^ r) left right

/-- A sum is as long as the shorter operand. -/
theorem length_xor (left right : Bytes) :
    (xor left right).length = min left.length right.length := by
  simp [xor]

/-- A stream that is long enough, added twice, is gone. -/
theorem xor_xor_cancel_right (text stream : Bytes) (h : text.length ≤ stream.length) :
    xor (xor text stream) stream = text := by
  induction text generalizing stream with
  | nil => simp [xor]
  | cons t text ih =>
    cases stream with
    | nil => simp at h
    | cons s stream =>
      have rest := ih stream (by simpa using h)
      simp only [xor, List.zipWith_cons_cons, List.cons.injEq] at rest ⊢
      exact ⟨by rw [UInt8.xor_assoc, UInt8.xor_self, UInt8.xor_zero], rest⟩

/-- The word whose most significant byte comes first. -/
def bigWord (b₀ b₁ b₂ b₃ : UInt8) : UInt32 :=
  b₀.toUInt32 <<< 24 ||| b₁.toUInt32 <<< 16 ||| b₂.toUInt32 <<< 8 ||| b₃.toUInt32

/-- The word whose least significant byte comes first. -/
def littleWord (b₀ b₁ b₂ b₃ : UInt8) : UInt32 :=
  bigWord b₃ b₂ b₁ b₀

/-- The four bytes of a word, most significant first. -/
def ofBigWord (word : UInt32) : Bytes :=
  [(word >>> 24).toUInt8, (word >>> 16).toUInt8, (word >>> 8).toUInt8, word.toUInt8]

/-- The four bytes of a word, least significant first. -/
def ofLittleWord (word : UInt32) : Bytes :=
  [word.toUInt8, (word >>> 8).toUInt8, (word >>> 16).toUInt8, (word >>> 24).toUInt8]

/-- The eight bytes of a double word, most significant first. -/
def ofBigDouble (word : UInt64) : Bytes :=
  ofBigWord (word >>> 32).toUInt32 ++ ofBigWord word.toUInt32

/-- The eight bytes of a double word, least significant first. -/
def ofLittleDouble (word : UInt64) : Bytes :=
  ofLittleWord word.toUInt32 ++ ofLittleWord (word >>> 32).toUInt32

/-- Each whole group of four bytes as a word, most significant byte first, after the words read
so far in reverse; up to three bytes left at the end are dropped. -/
def bigWordsOnto : List UInt32 → Bytes → List UInt32
  | read, b₀ :: b₁ :: b₂ :: b₃ :: rest => bigWordsOnto (bigWord b₀ b₁ b₂ b₃ :: read) rest
  | read, _ => read.reverse

/-- Each whole group of four bytes as a word, most significant byte first. -/
def bigWords (bytes : Bytes) : List UInt32 :=
  bigWordsOnto [] bytes

/-- The text encoded in UTF-8. -/
def ofText (text : String) : Bytes :=
  text.toUTF8.data.toList

/-- The text that the bytes encode in UTF-8, if they do. -/
def toText? (bytes : Bytes) : Option String :=
  String.fromUTF8? ⟨bytes.toArray⟩

end Bytes

end AesTrials
