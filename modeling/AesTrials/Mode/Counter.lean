import AesTrials.Aes.Cipher

/-!
# Counter mode

A keystream is the encipherment of successive counter blocks. Adding it to a text twice gives the
text back, so one function both encrypts and decrypts. The counter is one 32-bit word of the block
and wraps within it.
-/

namespace AesTrials.Counter

open Aes

/-- The block whose last column, read from its most significant byte, is raised by the step. -/
def bigEndian (start : Block) (step : Nat) : Block :=
  { start with c₃ := Column.ofBigWord (start.c₃.toBigWord + UInt32.ofNat step) }

/-- The block whose first column, read from its least significant byte, is raised by the step. -/
def littleEndian (start : Block) (step : Nat) : Block :=
  { start with c₀ := Column.ofLittleWord (start.c₀.toLittleWord + UInt32.ofNat step) }

/-- Enough keystream for a text of the given length: the encipherments of counter blocks 0, 1, … -/
def keystream (cipher : Cipher) (counter : Nat → Block) (length : Nat) : Bytes :=
  (List.range ((length + (blockLength - 1)) / blockLength)).flatMap
    fun step => (cipher.encipher (counter step)).toBytes

/-- The text with the keystream added. -/
def apply (cipher : Cipher) (counter : Nat → Block) (text : Bytes) : Bytes :=
  Bytes.xor text (keystream cipher counter text.length)

/-- A keystream is long enough for its text. -/
theorem le_length_keystream (cipher : Cipher) (counter : Nat → Block) (length : Nat) :
    length ≤ (keystream cipher counter length).length := by
  have blocks : (keystream cipher counter length).length =
      (length + (blockLength - 1)) / blockLength * blockLength := by
    simp only [keystream, List.length_flatMap, Block.length_toBytes, List.map_const',
      List.sum_replicate_nat, List.length_range]
  rw [blocks, blockLength]
  omega

/-- A text keeps its length. -/
theorem length_apply (cipher : Cipher) (counter : Nat → Block) (text : Bytes) :
    (apply cipher counter text).length = text.length := by
  rw [apply, Bytes.length_xor, Nat.min_eq_left (le_length_keystream cipher counter text.length)]

/-- Adding the keystream twice gives the text back. -/
theorem apply_apply (cipher : Cipher) (counter : Nat → Block) (text : Bytes) :
    apply cipher counter (apply cipher counter text) = text := by
  have length := length_apply cipher counter text
  rw [apply, length, apply]
  exact Bytes.xor_xor_cancel_right _ _ (le_length_keystream cipher counter text.length)

end AesTrials.Counter
