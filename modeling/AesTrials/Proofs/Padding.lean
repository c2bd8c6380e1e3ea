import AesTrials.Padding

/-!
# What padding determines

Whole blocks in front of data change nothing in its padding. Data that strict unpadding accepts is
the padded form of what it gives back, so strict padding has one reading and one writing.
-/

namespace AesTrials.Padding

/-- Padded data is as long as the data and its padding. -/
theorem length_append (blockSize : Nat) (data : Bytes) :
    (append blockSize data).length = data.length + fillLength blockSize data.length := by
  simp only [append, List.length_append, List.length_replicate]

/-- Padded data is one block more than the whole blocks of the data. -/
theorem length_append_eq_mul {blockSize : Nat} (positive : 0 < blockSize) (data : Bytes) :
    (append blockSize data).length = blockSize * (data.length / blockSize + 1) := by
  have rest := Nat.mod_lt data.length positive
  have parts := Nat.mod_add_div data.length blockSize
  rw [length_append, fillLength, Nat.mul_add, Nat.mul_one]
  omega

/-- Whole blocks in front do not change how much is missing from the last block. -/
theorem fillLength_add_of_dvd {blockSize front : Nat} (whole : blockSize ∣ front) (length : Nat) :
    fillLength blockSize (front + length) = fillLength blockSize length := by
  obtain ⟨count, rfl⟩ := whole
  simp only [fillLength, Nat.mul_add_mod]

/-- Whole blocks in front of data stand in front of its padded form. -/
theorem append_append_of_dvd {blockSize : Nat} {front : Bytes} (whole : blockSize ∣ front.length)
    (data : Bytes) : append blockSize (front ++ data) = front ++ append blockSize data := by
  simp only [append, List.length_append, fillLength_add_of_dvd whole, List.append_assoc]

/-- What stands behind whole blocks of padded data, if these end inside the data, is the padded
form of the data behind them. -/
theorem back_of_append_of_le {blockSize : Nat} {front back data : Bytes}
    (whole : blockSize ∣ front.length) (parts : front ++ back = append blockSize data)
    (inside : front.length ≤ data.length) :
    back = append blockSize (data.drop front.length) := by
  have taken : (data.take front.length).length = front.length := by
    rw [List.length_take, Nat.min_eq_left inside]
  have cut : append blockSize data =
      data.take front.length ++ append blockSize (data.drop front.length) := by
    rw [← append_append_of_dvd (by rw [taken]; exact whole), List.take_append_drop]
  rw [cut] at parts
  exact (List.append_inj parts taken.symm).2

/-- Nothing stands behind whole blocks of padded data that do not end inside the data. -/
theorem back_of_append_of_lt {blockSize : Nat} (positive : 0 < blockSize)
    {front back data : Bytes} (whole : blockSize ∣ front.length)
    (parts : front ++ back = append blockSize data) (beyond : data.length < front.length) :
    back = [] := by
  have lengths := congrArg List.length parts
  have total := dvd_length_append positive data
  rw [← lengths, List.length_append, Nat.dvd_add_right whole] at total
  rw [List.length_append, length_append] at lengths
  have small := (fillLength_bounds positive data.length).2
  exact List.eq_nil_of_length_eq_zero (Nat.eq_zero_of_dvd_of_lt total (by omega))

/-- Data that lacks a number of bytes up to a block has that number of bytes as its padding. -/
theorem fillLength_sub {blockSize total count : Nat} (whole : blockSize ∣ total)
    (positive : 0 < count) (small : count ≤ blockSize) (fits : count ≤ total) :
    fillLength blockSize (total - count) = count := by
  obtain ⟨blocks, rfl⟩ := whole
  obtain ⟨before, rfl⟩ : ∃ before, blocks = before + 1 := by
    cases blocks with
    | zero => omega
    | succ before => exact ⟨before, rfl⟩
  have kept : blockSize * (before + 1) - count = blockSize * before + (blockSize - count) := by
    rw [Nat.mul_add, Nat.mul_one]
    omega
  rw [fillLength, kept, Nat.mul_add_mod]
  by_cases full : count = blockSize
  · rw [full, Nat.sub_self, Nat.zero_mod, Nat.sub_zero]
  · rw [Nat.mod_eq_of_lt (by omega)]
    omega

/-- What strict unpadding checks: the bytes taken off are copies of a byte that counts them. -/
theorem unpadStrict_eq_ok {blockSize : Nat} {padded data : Bytes}
    (h : unpadStrict blockSize padded = .ok data) :
    ∃ last : UInt8, 0 < last.toNat ∧ last.toNat ≤ blockSize ∧ last.toNat ≤ padded.length ∧
      padded = data ++ List.replicate last.toNat last ∧
      data.length = padded.length - last.toNat := by
  unfold unpadStrict at h
  split at h
  · contradiction
  · rename_i last _
    simp only at h
    split at h
    · contradiction
    · rename_i bounds
      split at h
      · rename_i same
        cases h
        have copies : padded.drop (padded.length - last.toNat) =
            List.replicate last.toNat last := by
          rw [List.eq_replicate_iff]
          refine ⟨by rw [List.length_drop]; omega, ?_⟩
          intro byte member
          simpa using List.all_eq_true.mp same byte member
        refine ⟨last, by omega, by omega, by omega, ?_, ?_⟩
        · rw [← copies, List.take_append_drop]
        · rw [List.length_take]
          omega
      · contradiction

/-- Whole blocks that strict unpadding accepts are the padded form of what it gives back. -/
theorem append_of_unpadStrict {blockSize : Nat} {padded data : Bytes}
    (whole : blockSize ∣ padded.length) (h : unpadStrict blockSize padded = .ok data) :
    append blockSize data = padded := by
  obtain ⟨last, positive, small, fits, parts, length⟩ := unpadStrict_eq_ok h
  have fill : fillLength blockSize data.length = last.toNat := by
    rw [length]
    exact fillLength_sub whole positive small fits
  rw [append, fill, UInt8.ofNat_toNat, parts]

end AesTrials.Padding
