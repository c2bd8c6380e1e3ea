/-!
# Letters of either case

Only the letters A to Z have a case here; every other character is left as it is.
-/

namespace AesTrials.Text

/-- The text with the letters A to Z in lower case. -/
def lower (text : String) : String := String.ofList (text.toList.map Char.toLower)

/-- Whether two texts are equal up to the case of the letters A to Z. -/
def sameLetters (left right : List Char) : Bool :=
  left.map Char.toLower == right.map Char.toLower

/-- Texts that are the same but for the case of letters have the same length. -/
theorem length_eq_of_sameLetters {left right : List Char} (h : sameLetters left right) :
    left.length = right.length := by
  simpa using congrArg List.length (eq_of_beq h)

/-- The lower case of a letter A to Z is 32 behind it, that of any other character the character. -/
theorem toNat_toLower (c : Char) :
    c.toLower.toNat = if 65 ≤ c.toNat ∧ c.toNat ≤ 90 then c.toNat + 32 else c.toNat := by
  unfold Char.toLower
  split
  · rename_i bounds
    simp only [ge_iff_le, UInt32.le_iff_toNat_le] at bounds
    have letter : 65 ≤ c.toNat ∧ c.toNat ≤ 90 := bounds
    have shift : (c.val + ('a'.val - 'A'.val)).toNat = c.toNat + 32 := by
      have step : ('a'.val - 'A'.val).toNat = 32 := by decide
      have value : c.val.toNat = c.toNat := rfl
      rw [UInt32.toNat_add, step, value]
      omega
    rw [if_pos letter]
    exact shift
  · rename_i bounds
    simp only [ge_iff_le, UInt32.le_iff_toNat_le] at bounds
    have other : ¬ (65 ≤ c.toNat ∧ c.toNat ≤ 90) := bounds
    rw [if_neg other]

/-- A character whose lower case is no letter a to z is its own lower case. -/
theorem eq_of_toLower_eq {c other : Char} (lower : c.toLower = other)
    (apart : other.toNat < 97 ∨ 122 < other.toNat) : c = other := by
  rw [← Char.toNat_inj]
  have value := toNat_toLower c
  rw [lower] at value
  split at value <;> omega

end AesTrials.Text
