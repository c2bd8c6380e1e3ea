import AesTrials.InBounds
import AesTrials.Proofs.Verdict

/-!
# Padding there and back

Padding is counted in a single byte: the block size less the bytes that are in the last block. This
never leaves the range of a byte, for blocks that a byte can count. What was padded is got back.
The converse holds as far as taking padding off is lenient: whole blocks that are unpadded are
padded again to as many bytes with the same last one, and to the same bytes exactly if those that
were taken off are all equal.
-/

namespace AesTrials.Padding

open InBounds

/-- The data padded step by step, with the padding counted in a byte; no result at all if a step
leaves its bounds. -/
def padInSteps (blockSize : Nat) (data : Bytes) : Option (Except CipherError Bytes) :=
  match (byte? blockSize).filter (fun block => block != 0) with
  | none => some (.error (.invalidArgument .padBlockSize))
  | some block => do
    let rest ← byte? (data.length % blockSize)
    let count ← byteDifference? block rest
    some (.ok (data ++ List.replicate count.toNat count))

/-- The data unpadded step by step; no result at all if a step leaves its bounds. -/
def unpadInSteps (blockSize : Nat) (data : Bytes) : Option (Except CipherError Bytes) :=
  match data.getLast? with
  | none => some (.error (.corruptFraming .emptyPadding))
  | some last =>
    let count := last.toNat
    if count = 0 then some (.error (.corruptFraming .zeroPadding))
    else if data.length < count then some (.error (.corruptFraming .paddingBeyondData))
    else if blockSize < count then some (.error (.corruptFraming .paddingBeyondBlock))
    else do
      let kept ← difference? data.length count
      let (front, _) ← cut? data kept
      some (.ok front)

section Steps

variable {blockSize : Nat}

/-- A block size is taken if it is a byte other than zero. -/
theorem filter_byte? (blockSize : Nat) :
    (byte? blockSize).filter (fun block => block != 0) =
      if 1 ≤ blockSize ∧ blockSize ≤ 255 then some (UInt8.ofNat blockSize) else none := by
  by_cases small : blockSize < 256
  · have value : (UInt8.ofNat blockSize).toNat = blockSize := UInt8.toNat_ofNat_of_lt' small
    by_cases zero : blockSize = 0
    · subst zero
      rfl
    · have nonzero : UInt8.ofNat blockSize ≠ 0 := by
        intro same
        rw [same] at value
        exact zero value.symm
      rw [byte?_of_lt small, if_pos (by omega)]
      simp [nonzero]
  · rw [byte?, if_neg small, if_neg (by omega)]
    rfl

/-- The number of padding bytes comes out of a subtraction of bytes that does not fall below
zero. -/
theorem byteDifference?_fill (positive : 1 ≤ blockSize) (small : blockSize ≤ 255) (length : Nat) :
    byteDifference? (UInt8.ofNat blockSize) (UInt8.ofNat (length % blockSize)) =
      some (UInt8.ofNat (fillLength blockSize length)) := by
  have rest := Nat.mod_lt length positive
  have block : (UInt8.ofNat blockSize).toNat = blockSize :=
    UInt8.toNat_ofNat_of_lt' (show blockSize < 256 by omega)
  have last : (UInt8.ofNat (length % blockSize)).toNat = length % blockSize :=
    UInt8.toNat_ofNat_of_lt' (show length % blockSize < 256 by omega)
  have le : UInt8.ofNat (length % blockSize) ≤ UInt8.ofNat blockSize := by
    rw [UInt8.le_iff_toNat_le, block, last]
    omega
  rw [byteDifference?_of_le le, Option.some_inj, ← UInt8.toNat_inj, UInt8.toNat_sub_of_le _ _ le,
    block, last, toNat_fill positive small, fillLength]

/-- Every step of padding stays in bounds, and all of them together pad. -/
theorem padInSteps_eq (blockSize : Nat) (data : Bytes) :
    padInSteps blockSize data = some (pad blockSize data) := by
  unfold padInSteps
  rw [filter_byte?]
  by_cases range : 1 ≤ blockSize ∧ blockSize ≤ 255
  · obtain ⟨positive, small⟩ := range
    have rest : data.length % blockSize < 256 := by
      have below := Nat.mod_lt data.length positive
      omega
    have fill := toNat_fill positive small data.length
    simp only [if_pos (And.intro positive small), byte?_of_lt rest, Option.bind_eq_bind,
      Option.bind_some, byteDifference?_fill positive small, fill, pad, append]
  · simp only [if_neg range, pad]

/-- Every step of unpadding stays in bounds, and all of them together unpad. -/
theorem unpadInSteps_eq (blockSize : Nat) (data : Bytes) :
    unpadInSteps blockSize data = some (unpad blockSize data) := by
  unfold unpadInSteps unpad
  cases data.getLast? with
  | none => rfl
  | some last =>
    simp only
    by_cases zero : last.toNat = 0
    · simp only [if_pos zero]
    · by_cases beyond : data.length < last.toNat
      · simp only [if_neg zero, if_pos beyond]
      · by_cases block : blockSize < last.toNat
        · simp only [if_neg zero, if_neg beyond, if_pos block]
        · have fits : last.toNat ≤ data.length := Nat.le_of_not_lt beyond
          have inside : data.length - last.toNat ≤ data.length := Nat.sub_le _ _
          simp only [if_neg zero, if_neg beyond, if_neg block, difference?_of_le fits,
            Option.bind_eq_bind, Option.bind_some, cut?_of_le inside]

end Steps

section Converse

variable {blockSize : Nat} {data padding padded : Bytes} {last : UInt8}

/-- Padding that completes whole blocks and ends in its own length is replaced, if it is put on
again, by copies of its last byte. -/
theorem append_of_counted (whole : blockSize ∣ (data ++ padding).length)
    (small : padding.length ≤ blockSize) (ends : padding.getLast? = some last)
    (counted : last.toNat = padding.length) :
    append blockSize data = data ++ List.replicate padding.length last := by
  have positive : 0 < padding.length := List.length_pos_of_mem (List.mem_of_getLast? ends)
  have total : (data ++ padding).length = data.length + padding.length := List.length_append
  have fill := fillLength_sub whole positive small (by omega)
  rw [total, Nat.add_sub_cancel] at fill
  rw [append, fill, ← counted, UInt8.ofNat_toNat]

/-- Bytes are copies of the last of them exactly if they are all equal. -/
theorem replicate_eq_iff (ends : padding.getLast? = some last) :
    List.replicate padding.length last = padding ↔
      ∀ byte ∈ padding, ∀ other ∈ padding, byte = other := by
  constructor
  · intro same byte member other also
    rw [← same] at member also
    rw [List.eq_of_mem_replicate member, List.eq_of_mem_replicate also]
  · intro equal
    refine (List.eq_replicate_iff.mpr ⟨rfl, ?_⟩).symm
    intro byte member
    exact equal byte member last (List.mem_of_getLast? ends)

/-- What whole blocks are padded to again once they have been unpadded: as many bytes, with the same
last one, and the same bytes if those taken off are all equal. -/
theorem pad_of_unpad (positive : 1 ≤ blockSize) (byte : blockSize ≤ 255)
    (whole : blockSize ∣ padded.length) (taken : unpad blockSize padded = .ok data) :
    ∃ again, pad blockSize data = .ok again ∧ again.length = padded.length ∧
      again.getLast? = padded.getLast? ∧
      (again = padded ↔ ∀ byte ∈ padded.drop data.length,
        ∀ other ∈ padded.drop data.length, byte = other) := by
  obtain ⟨padding, rfl, small, last, ends, counted⟩ := unpad_eq_ok_iff_exists.mp taken
  have again := append_of_counted whole small ends counted
  have some_byte : padding.length ≠ 0 := by
    have positive := List.length_pos_of_mem (List.mem_of_getLast? ends)
    omega
  refine ⟨append blockSize data, if_pos ⟨positive, byte⟩, ?_, ?_, ?_⟩
  · rw [again, List.length_append, List.length_append, List.length_replicate]
  · rw [again, List.getLast?_append, List.getLast?_append, ends, List.getLast?_replicate,
      if_neg some_byte]
  · rw [again, List.append_cancel_left_eq, List.drop_left]
    exact replicate_eq_iff ends

/-- Unpadding takes a byte off at least, and leaves what stands in front. -/
theorem front_of_unpad (taken : unpad blockSize padded = .ok data) :
    data <+: padded ∧ data ≠ padded := by
  obtain ⟨padding, rfl, _, last, ends, _⟩ := unpad_eq_ok_iff_exists.mp taken
  refine ⟨List.prefix_append data padding, ?_⟩
  intro same
  have nothing : padding = [] := List.self_eq_append_right.mp same
  rw [nothing] at ends
  contradiction

end Converse

/-- For blocks of one to 255 bytes, data is padded to whole blocks by one to as many bytes as a
block has, each of which is their number, and is got back by unpadding; all other block sizes are
refused. Whole blocks that are unpadded lose one byte or more from their end, and what is left is
padded to as many bytes with the same last one, which are the same bytes exactly if the bytes lost
are all equal.
No step of padding or unpadding leaves its bounds, whatever the block size and the data are. -/
theorem pad_unpad_inverse :
    (∀ blockSize data, padInSteps blockSize data = some (pad blockSize data) ∧
      unpadInSteps blockSize data = some (unpad blockSize data)) ∧
      (∀ blockSize, 1 ≤ blockSize → blockSize ≤ 255 → ∀ data, ∃ count : UInt8,
        1 ≤ count.toNat ∧ count.toNat ≤ blockSize ∧
          pad blockSize data = .ok (data ++ List.replicate count.toNat count) ∧
          blockSize ∣ (data ++ List.replicate count.toNat count).length ∧
          unpad blockSize (data ++ List.replicate count.toNat count) = .ok data) ∧
      (∀ blockSize, blockSize = 0 ∨ 256 ≤ blockSize → ∀ data,
        pad blockSize data = .error (.invalidArgument .padBlockSize)) ∧
      ∀ blockSize, 1 ≤ blockSize → blockSize ≤ 255 → ∀ padded data, blockSize ∣ padded.length →
        unpad blockSize padded = .ok data →
          data <+: padded ∧ data ≠ padded ∧
            ∃ again, pad blockSize data = .ok again ∧ again.length = padded.length ∧
              again.getLast? = padded.getLast? ∧
              (again = padded ↔ ∀ byte ∈ padded.drop data.length,
                ∀ other ∈ padded.drop data.length, byte = other) := by
  refine ⟨?_, ?_, ?_, ?_⟩
  · intro blockSize data
    exact ⟨padInSteps_eq blockSize data, unpadInSteps_eq blockSize data⟩
  · intro blockSize positive small data
    obtain ⟨low, high⟩ := fillLength_bounds positive data.length
    refine ⟨UInt8.ofNat (fillLength blockSize data.length), ?_⟩
    rw [toNat_fill positive small]
    exact ⟨low, high, if_pos ⟨positive, small⟩, dvd_length_append positive data,
      unpad_append positive small data⟩
  · intro blockSize outside data
    exact if_neg (by omega)
  · intro blockSize positive small padded data whole taken
    obtain ⟨front, shorter⟩ := front_of_unpad taken
    exact ⟨front, shorter, pad_of_unpad positive small whole taken⟩

/-- Three bytes in the largest block, and a block of four that ends in ragged padding. -/
theorem pad_unpad_inverse_ragged :
    let data : Bytes := [1, 2, 3]
    let padded : Bytes := [1, 7, 9, 3]
    (∃ count : UInt8, pad 255 data = .ok (data ++ List.replicate count.toNat count) ∧
      255 ∣ (data ++ List.replicate count.toNat count).length) ∧
      pad 256 data = .error (.invalidArgument .padBlockSize) ∧ unpad 4 padded = .ok [1] ∧
      ∃ again, pad 4 [1] = .ok again ∧ again.length = 4 ∧ again.getLast? = some 3 ∧
        again ≠ padded := by
  intro data padded
  obtain ⟨_, there, refused, back⟩ := pad_unpad_inverse
  obtain ⟨count, _, _, made, whole, _⟩ := there 255 (by decide) (by decide) data
  have taken : unpad 4 padded = .ok [1] := rfl
  obtain ⟨_, _, again, repadded, length, last, same⟩ :=
    back 4 (by decide) (by decide) padded [1] (by decide) taken
  have ragged : again ≠ padded := by
    intro equal
    have unequal : ¬ ∀ byte ∈ padded.drop 1, ∀ other ∈ padded.drop 1, byte = other := by decide
    exact unequal (same.mp equal)
  exact ⟨⟨count, made, whole⟩, refused 256 (.inr (Nat.le_refl 256)) data, taken,
    again, repadded, length, last, ragged⟩

end AesTrials.Padding
