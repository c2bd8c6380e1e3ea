import AesTrials.Bytes
import AesTrials.CipherError

/-!
# PKCS#7 padding

Padding fills the last block and always adds at least one byte; every added byte is the number of
bytes added. Two readers take it off: `unpad` trusts the last byte and checks only that it fits,
`unpadStrict` checks every byte that it takes off. Both give back what was padded.
-/

namespace AesTrials.Padding

/-- Bytes that fill up a block after the given number of bytes. -/
def fillLength (blockSize length : Nat) : Nat :=
  blockSize - length % blockSize

/-- The data followed by its padding. -/
def append (blockSize : Nat) (data : Bytes) : Bytes :=
  let count := fillLength blockSize data.length
  data ++ List.replicate count (UInt8.ofNat count)

/-- The data padded to whole blocks of a size that one byte can express. -/
def pad (blockSize : Nat) (data : Bytes) : Except CipherError Bytes :=
  if 1 ≤ blockSize ∧ blockSize ≤ 255 then .ok (append blockSize data)
  else .error (.invalidArgument .padBlockSize)

/-- The data without as many bytes as the last one says, if they fit the data and the block. -/
def unpad (blockSize : Nat) (data : Bytes) : Except CipherError Bytes :=
  match data.getLast? with
  | none => .error (.corruptFraming .emptyPadding)
  | some last =>
    let count := last.toNat
    if count = 0 then .error (.corruptFraming .zeroPadding)
    else if data.length < count then .error (.corruptFraming .paddingBeyondData)
    else if blockSize < count then .error (.corruptFraming .paddingBeyondBlock)
    else .ok (data.take (data.length - count))

/-- The data without its padding, if every byte of the padding is the length of the padding. -/
def unpadStrict (blockSize : Nat) (data : Bytes) : Except CipherError Bytes :=
  match data.getLast? with
  | none => .error (.corruptFraming .notPaddedBlocks)
  | some last =>
    let count := last.toNat
    let kept := data.length - count
    if count = 0 ∨ blockSize < count ∨ data.length < count then
      .error (.corruptFraming .notPaddedBlocks)
    else if (data.drop kept).all (fun byte => byte == last) then .ok (data.take kept)
    else .error (.corruptFraming .notPaddedBlocks)

/-- Padding is never empty and never longer than a block. -/
theorem fillLength_bounds {blockSize : Nat} (h : 0 < blockSize) (length : Nat) :
    1 ≤ fillLength blockSize length ∧ fillLength blockSize length ≤ blockSize := by
  have rest := Nat.mod_lt length h
  unfold fillLength
  omega

/-- A byte can count the padding of blocks that it can count. -/
theorem toNat_fill {blockSize : Nat} (h : 0 < blockSize) (small : blockSize ≤ 255) (length : Nat) :
    (UInt8.ofNat (fillLength blockSize length)).toNat = fillLength blockSize length := by
  have high := (fillLength_bounds h length).2
  exact UInt8.toNat_ofNat_of_lt' (show fillLength blockSize length < 256 by omega)

/-- Padded data is whole blocks. -/
theorem dvd_length_append {blockSize : Nat} (h : 0 < blockSize) (data : Bytes) :
    blockSize ∣ (append blockSize data).length := by
  have rest := Nat.mod_lt data.length h
  have parts := Nat.mod_add_div data.length blockSize
  refine ⟨data.length / blockSize + 1, ?_⟩
  simp only [append, fillLength, List.length_append, List.length_replicate, Nat.mul_add]
  omega

/-- What is padded is whole blocks. -/
theorem dvd_length_of_pad {blockSize : Nat} (h : 0 < blockSize) {data padded : Bytes}
    (done : pad blockSize data = .ok padded) : blockSize ∣ padded.length := by
  unfold pad at done
  split at done
  · cases done
    exact dvd_length_append h data
  · contradiction

/-- The last byte of padded data is the length of the padding. -/
theorem getLast?_append {blockSize : Nat} (h : 0 < blockSize) (data : Bytes) :
    (append blockSize data).getLast? =
      some (UInt8.ofNat (fillLength blockSize data.length)) := by
  have positive := (fillLength_bounds h data.length).1
  simp [append, List.getLast?_append, List.getLast?_replicate]
  omega

/-- Taking padding off by its last byte gives the data back. -/
theorem unpad_append {blockSize : Nat} (h : 0 < blockSize) (small : blockSize ≤ 255)
    (data : Bytes) : unpad blockSize (append blockSize data) = .ok data := by
  obtain ⟨low, high⟩ := fillLength_bounds h data.length
  have count := toNat_fill h small data.length
  have length : (append blockSize data).length =
      data.length + fillLength blockSize data.length := by simp [append]
  simp only [unpad, getLast?_append h, count, length]
  rw [if_neg (by omega), if_neg (by omega), if_neg (by omega)]
  simp [append]

/-- Taking padding off with every byte checked gives the data back. -/
theorem unpadStrict_append {blockSize : Nat} (h : 0 < blockSize) (small : blockSize ≤ 255)
    (data : Bytes) : unpadStrict blockSize (append blockSize data) = .ok data := by
  obtain ⟨low, high⟩ := fillLength_bounds h data.length
  have count := toNat_fill h small data.length
  have length : (append blockSize data).length =
      data.length + fillLength blockSize data.length := by simp [append]
  simp only [unpadStrict, getLast?_append h, count, length]
  rw [if_neg (by omega)]
  simp [append]

end AesTrials.Padding
