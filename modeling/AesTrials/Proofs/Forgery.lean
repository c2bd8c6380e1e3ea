import AesTrials.Proofs.Verdict

/-!
# Forged tags

Where the tag of a message belongs to what is in front of it, and not to itself, no other tag
belongs there. So a message that decrypts is refused over its tag as soon as that is changed, in
whatever bytes and whatever they are changed to.
-/

namespace AesTrials

namespace Family

/-- Unless the vector is synthetic, the tag that belongs to the other parts of a message does not
hang on the one that is given. -/
theorem tagOf_of_other_tag {family : Family} (plain : family ≠ .gcmSiv) (keyed : Keyed)
    (frame : Frame) (tag : Bytes) :
    family.tagOf keyed { frame with tag } = family.tagOf keyed frame := by
  cases family with
  | cbc | cbcHmac | cbcRaw | gcm | gcmWide => rfl
  | gcmSiv => contradiction

end Family

namespace Variant

/-- A message that decrypts is refused over its tag once that is another one. -/
theorem decrypt_of_other_tag {variant : Variant}
    (direct : variant.family = .cbcHmac ∨ variant.family = .gcm ∨ variant.family = .gcmWide)
    {message other plaintext : Bytes} {ivLength aadLength : Nat}
    (opened : variant.decrypt message ivLength aadLength = .ok plaintext)
    (length : other.length = message.length)
    (front : other.take (message.length - variant.family.tagLength) =
      message.take (message.length - variant.family.tagLength))
    (differs : other.drop (message.length - variant.family.tagLength) ≠
      message.drop (message.length - variant.family.tagLength))
    {told : Nat} (accepted : variant.family.AcceptsVectorLength told) :
    variant.decrypt other told aadLength = .error .authenticationFailure ∧
      (variant.family = .cbcHmac →
        variant.layers.decrypt other told aadLength = .error .authenticationFailure) := by
  obtain ⟨keyed, frame, has, parts, recovered⟩ := decrypt_eq_ok opened
  have tagged := (Frame.lengths_of_split parts).2.2
  have otherParts := Frame.split_of_take_eq length front parts
  have verified := Family.verifies_of_decrypt tagged recovered
  have plain : variant.family ≠ .gcmSiv := by
    intro siv
    rcases direct with family | family | family <;> rw [siv] at family <;> contradiction
  have forged : ¬ variant.family.Verifies keyed
      { frame with tag := other.drop (message.length - variant.family.tagLength) } := by
    rintro ⟨belongs, _⟩
    rw [Family.tagOf_of_other_tag plain, ← verified.1, ← Frame.drop_untagged parts] at belongs
    exact differs belongs
  have refused : variant.decrypt other told aadLength = .error .authenticationFailure := by
    rw [decrypt_of_keyed has accepted, otherParts]
    exact Family.decrypt_of_not_verifies (Frame.lengths_of_split otherParts).2.2 forged
  exact ⟨refused, fun hmac => (decrypt_layers hmac other told aadLength).trans refused⟩

/-- The message of three bytes, and the same with one more in every byte of its tag. -/
theorem decrypt_of_other_tag_raised :
    let cipher := Aes.Cipher.ofKey .w128 (List.replicate 16 0)
    let variant : Variant := ⟨.cbcHmac, none, some ⟨cipher, [1]⟩⟩
    let iv : Bytes := List.replicate 16 0
    let covered := [4, 5] ++ iv ++ Cbc.encrypt cipher iv [1, 2, 3]
    let tag := Hmac.tag [1] covered
    variant.decrypt (covered ++ tag) 0 2 = .ok [1, 2, 3] ∧
      variant.decrypt (covered ++ tag.map (· + 1)) 16 2 = .error .authenticationFailure := by
  intro cipher variant iv covered tag
  let frame : Frame := ⟨[4, 5], iv, Cbc.encrypt cipher iv [1, 2, 3], tag⟩
  have tagLength : tag.length = Hmac.tagLength := Hmac.length_tag _ _
  have opened : variant.decrypt (covered ++ tag) 0 2 = .ok [1, 2, 3] := by
    have parts : variant.decrypt frame.join 0 frame.aad.length = variant.family.decrypt _ frame :=
      decrypt_join rfl (.inr ⟨rfl, rfl⟩) rfl tagLength (by decide)
    exact parts.trans (Family.decrypt_of_encrypt rfl)
  have front : (covered ++ tag).length - Hmac.tagLength = covered.length := by
    rw [List.length_append, tagLength, Nat.add_sub_cancel]
  have length : (covered ++ tag.map (· + 1)).length = (covered ++ tag).length := by
    simp only [List.length_append, List.length_map]
  have differs : tag.map (· + 1) ≠ tag := by
    obtain ⟨first, rest, parts⟩ := List.exists_cons_of_length_pos
      (show 0 < tag.length by rw [tagLength]; decide)
    rw [parts]
    simp
  refine ⟨opened, (decrypt_of_other_tag (.inl rfl) opened length ?_ ?_ (.inl rfl)).1⟩
  · change List.take ((covered ++ tag).length - Hmac.tagLength) _ =
      List.take ((covered ++ tag).length - Hmac.tagLength) _
    rw [front, List.take_left, List.take_left]
  · change List.drop ((covered ++ tag).length - Hmac.tagLength) _ ≠
      List.drop ((covered ++ tag).length - Hmac.tagLength) _
    rwa [front, List.drop_left, List.drop_left]

end Variant

end AesTrials
