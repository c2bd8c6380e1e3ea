import AesTrials.Bytes

/-!
# Characters and their bytes

In UTF-8 a character below 128 is a single byte, and that byte is part of no other character. So
such characters are found in a text wherever their bytes are found in its encoding.
-/

namespace AesTrials.Bytes

/-- A character below 128 is one byte. -/
theorem utf8EncodeChar_of_lt {c : Char} (ascii : c.toNat < 128) :
    String.utf8EncodeChar c = [UInt8.ofNat c.toNat] := by
  have small : c.val.toNat ≤ 127 := Nat.le_of_lt_succ ascii
  rw [String.utf8EncodeChar, if_pos small]
  rfl

/-- A byte below 128 is the whole encoding of the character that it is part of. -/
theorem toNat_of_mem_utf8EncodeChar {c : Char} {byte : UInt8}
    (member : byte ∈ String.utf8EncodeChar c) (ascii : byte.toNat < 128) :
    c.toNat = byte.toNat := by
  -- A byte of a longer encoding is at least 128.
  have high (n : Nat) (large : 128 ≤ n) (small : n < 256) : ¬ (UInt8.ofNat n).toNat < 128 := by
    rw [UInt8.toNat_ofNat_of_lt' small]
    omega
  unfold String.utf8EncodeChar at member
  simp only at member
  split at member
  · rename_i single
    have only : byte = UInt8.ofNat c.toNat := by simpa using member
    have bound : c.toNat ≤ 127 := single
    rw [only, UInt8.toNat_ofNat_of_lt' (show c.toNat < 256 by omega)]
  · split at member
    · simp only [List.mem_cons, List.not_mem_nil, or_false] at member
      rcases member with rfl | rfl <;> exact absurd ascii (high _ (by omega) (by omega))
    · split at member
      · simp only [List.mem_cons, List.not_mem_nil, or_false] at member
        rcases member with rfl | rfl | rfl <;> exact absurd ascii (high _ (by omega) (by omega))
      · simp only [List.mem_cons, List.not_mem_nil, or_false] at member
        rcases member with rfl | rfl | rfl | rfl <;>
          exact absurd ascii (high _ (by omega) (by omega))

/-- A text is encoded character by character. -/
theorem ofText_ofList (text : List Char) :
    ofText (String.ofList text) = text.flatMap String.utf8EncodeChar := by
  simp [ofText, String.toUTF8, List.utf8Encode]

section Ascii

variable {text : List Char} {c : Char}

/-- A character below 128 is in a text if its byte is in the encoding of the text. -/
theorem mem_flatMap_iff (ascii : c.toNat < 128) :
    UInt8.ofNat c.toNat ∈ text.flatMap String.utf8EncodeChar ↔ c ∈ text := by
  have value : (UInt8.ofNat c.toNat).toNat = c.toNat :=
    UInt8.toNat_ofNat_of_lt' (show c.toNat < 256 by omega)
  rw [List.mem_flatMap]
  constructor
  · rintro ⟨other, among, member⟩
    have same := toNat_of_mem_utf8EncodeChar member (by omega)
    rw [value, Char.toNat_inj] at same
    exact same ▸ among
  · intro among
    refine ⟨c, among, ?_⟩
    rw [utf8EncodeChar_of_lt ascii]
    exact List.mem_singleton_self _

/-- A text begins with a character below 128 if its encoding begins with the byte of that
character. -/
theorem flatMap_eq_cons_iff (ascii : c.toNat < 128) {rest : Bytes} :
    text.flatMap String.utf8EncodeChar = UInt8.ofNat c.toNat :: rest ↔
      ∃ behind, text = c :: behind ∧ behind.flatMap String.utf8EncodeChar = rest := by
  have value : (UInt8.ofNat c.toNat).toNat = c.toNat :=
    UInt8.toNat_ofNat_of_lt' (show c.toNat < 256 by omega)
  constructor
  · intro begins
    cases text with
    | nil => contradiction
    | cons first behind =>
      rw [List.flatMap_cons] at begins
      obtain ⟨byte, more, encoded⟩ :=
        List.exists_cons_of_ne_nil (String.utf8EncodeChar_ne_nil (c := first))
      rw [encoded, List.cons_append] at begins
      obtain ⟨rfl, later⟩ := List.cons.inj begins
      have member : UInt8.ofNat c.toNat ∈ String.utf8EncodeChar first := by
        rw [encoded]
        exact List.mem_cons_self
      have same := toNat_of_mem_utf8EncodeChar member (by omega)
      rw [value, Char.toNat_inj] at same
      subst same
      rw [utf8EncodeChar_of_lt ascii] at encoded
      obtain ⟨_, rfl⟩ := List.cons.inj encoded
      exact ⟨behind, rfl, later⟩
  · rintro ⟨behind, rfl, rfl⟩
    rw [List.flatMap_cons, utf8EncodeChar_of_lt ascii]
    rfl

end Ascii

end AesTrials.Bytes
