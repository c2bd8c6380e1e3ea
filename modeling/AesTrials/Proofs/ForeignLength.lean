import AesTrials.Proofs.Sealing

/-!
# Messages cut at a foreign length

A message carries no lengths, and the message code covers its parts as one byte string. A message
that is decrypted with another length of additional data than its own therefore always has the right
code. Whether it is refused is up to the cut alone: a cut in front of a block, other than the last,
is not noticed, and what is decrypted then is too short or too long.
-/

namespace AesTrials

/-- Of two cuts of one byte string the later one leaves some bytes to the earlier. -/
theorem Bytes.exists_middle {front back front' back' : Bytes}
    (same : front ++ back = front' ++ back') (earlier : front.length ≤ front'.length) :
    ∃ middle, front' = front ++ middle ∧ back = middle ++ back' := by
  rcases List.append_eq_append_iff.mp same with ⟨middle, rfl, rfl⟩ | ⟨middle, rfl, rfl⟩
  · exact ⟨middle, rfl, rfl⟩
  · have none : middle = [] := by
      apply List.eq_nil_of_length_eq_zero
      rw [List.length_append] at earlier
      omega
    exact ⟨[], by rw [none]; simp, by rw [none]; rfl⟩

namespace Cbc

open Aes

/-- Whether a message, told that its additional data has the given length instead of its own, is cut
in front of a block that is not the last: the lengths differ by whole blocks, and the one told does
not reach beyond the plaintext. -/
def CutAtBlock (aadLength plainLength told : Nat) : Prop :=
  told % blockLength = aadLength % blockLength ∧ told ≤ aadLength + plainLength

section Cut

variable {cipher : Cipher} {head vector plaintext head' vector' body' : Bytes}

/-- A cut inside the additional data puts the rest of it, and the vector, in front of the
plaintext. -/
theorem openStrict_cut_before (one : vector.length = blockLength)
    (one' : vector'.length = blockLength)
    (same : head' ++ vector' ++ body' = head ++ vector ++ encrypt cipher vector plaintext)
    (aligned : head'.length % blockLength = head.length % blockLength)
    (before : head'.length < head.length) :
    ∃ opened : Bytes, opened.length + head'.length = head.length ∧
      openStrict cipher vector' body' = .ok (opened ++ plaintext) := by
  have reach : (head' ++ vector').length ≤ head.length := by
    rw [List.length_append, one']
    unfold blockLength at aligned ⊢
    omega
  rw [List.append_assoc head] at same
  obtain ⟨front, rfl, rfl⟩ := Bytes.exists_middle same reach
  rw [List.length_append, List.length_append, one'] at aligned before ⊢
  have whole : blockLength ∣ front.length := by
    unfold blockLength at aligned ⊢
    omega
  obtain ⟨opened, length, accepted⟩ := openStrict_behind cipher vector' whole one plaintext
  rw [List.append_assoc] at accepted
  exact ⟨opened, by omega, accepted⟩

/-- A cut at the own length decrypts to the plaintext. -/
theorem openStrict_cut_same (one : vector.length = blockLength)
    (one' : vector'.length = blockLength)
    (same : head' ++ vector' ++ body' = head ++ vector ++ encrypt cipher vector plaintext)
    (length : head'.length = head.length) :
    openStrict cipher vector' body' = .ok plaintext := by
  obtain ⟨front, rfl⟩ := List.append_inj same
    (by rw [List.length_append, List.length_append, length, one, one'])
  obtain ⟨_, rfl⟩ := List.append_inj front length
  exact openStrict_encrypt cipher vector' plaintext

/-- A cut behind the vector takes the blocks in front of it off the plaintext. -/
theorem openStrict_cut_after (one : vector.length = blockLength)
    (one' : vector'.length = blockLength)
    (same : head' ++ vector' ++ body' = head ++ vector ++ encrypt cipher vector plaintext)
    (aligned : head'.length % blockLength = head.length % blockLength)
    (after : head.length < head'.length) :
    openStrict cipher vector' body' =
      if head'.length ≤ head.length + plaintext.length then
        .ok (plaintext.drop (head'.length - head.length))
      else .error (.corruptFraming .notPaddedBlocks) := by
  have reach : (head ++ vector).length ≤ head'.length := by
    rw [List.length_append, one]
    unfold blockLength at aligned ⊢
    omega
  rw [List.append_assoc head'] at same
  obtain ⟨front, rfl, parts⟩ := Bytes.exists_middle same.symm reach
  rw [List.length_append, List.length_append, one] at aligned ⊢
  have whole : blockLength ∣ front.length := by
    unfold blockLength at aligned ⊢
    omega
  have skipped : head.length + blockLength + front.length - head.length =
      front.length + blockLength := by omega
  rw [← List.append_assoc] at parts
  rw [skipped]
  split
  · exact openStrict_rest_of_le whole one' parts (by omega)
  · exact openStrict_rest_of_lt whole one' parts (by omega)

/-- A cut inside a block leaves no whole blocks. -/
theorem openStrict_cut_uneven (one : vector.length = blockLength)
    (one' : vector'.length = blockLength)
    (same : head' ++ vector' ++ body' = head ++ vector ++ encrypt cipher vector plaintext)
    (uneven : head'.length % blockLength ≠ head.length % blockLength) :
    openStrict cipher vector' body' = .error (.corruptFraming .notPaddedBlocks) := by
  have lengths := congrArg List.length same
  simp only [List.length_append, one, one', length_encrypt] at lengths
  obtain ⟨count, padded⟩ := Padding.dvd_length_append (by decide : 0 < blockLength) plaintext
  rw [padded] at lengths
  have rest : ¬ blockLength ∣ body'.length := by
    unfold blockLength at lengths uneven ⊢
    omega
  simp only [openStrict, openBlocks_eq_error rest]

/-- A cut in front of a block, other than the last, decrypts to the plaintext with other bytes in
front of it or without some of its own; every other cut is refused. -/
theorem openStrict_cut (one : vector.length = blockLength) (one' : vector'.length = blockLength)
    (same : head' ++ vector' ++ body' = head ++ vector ++ encrypt cipher vector plaintext) :
    (CutAtBlock head.length plaintext.length head'.length → ∃ recovered : Bytes,
      openStrict cipher vector' body' = .ok recovered ∧
        recovered.length + head'.length = head.length + plaintext.length ∧
        recovered.drop (head.length - head'.length) =
          plaintext.drop (head'.length - head.length)) ∧
    (¬ CutAtBlock head.length plaintext.length head'.length →
      openStrict cipher vector' body' = .error (.corruptFraming .notPaddedBlocks)) := by
  by_cases aligned : head'.length % blockLength = head.length % blockLength
  · rcases Nat.lt_trichotomy head'.length head.length with before | length | after
    · obtain ⟨opened, length, accepted⟩ := openStrict_cut_before one one' same aligned before
      constructor
      · intro _
        refine ⟨_, accepted, by rw [List.length_append]; omega, ?_⟩
        rw [show head.length - head'.length = opened.length by omega, List.drop_left,
          Nat.sub_eq_zero_of_le (Nat.le_of_lt before), List.drop_zero]
      · intro refused
        exact absurd ⟨aligned, by omega⟩ refused
    · have accepted := openStrict_cut_same one one' same length
      constructor
      · intro _
        exact ⟨plaintext, accepted, by omega, by rw [length]⟩
      · intro refused
        exact absurd ⟨aligned, by omega⟩ refused
    · have cut := openStrict_cut_after one one' same aligned after
      constructor
      · intro inside
        rw [if_pos inside.2] at cut
        refine ⟨_, cut, ?_, ?_⟩
        · have reach := inside.2
          rw [List.length_drop]
          omega
        · rw [Nat.sub_eq_zero_of_le (Nat.le_of_lt after), List.drop_zero]
      · intro refused
        rw [cut, if_neg (fun inside => refused ⟨aligned, inside⟩)]
  · constructor
    · intro inside
      exact absurd inside.1 aligned
    · intro _
      exact openStrict_cut_uneven one one' same aligned

end Cut

end Cbc

namespace Variant

/-- A message cut elsewhere still has the right code, so that only its cut decides. -/
theorem decrypt_cut {variant : Variant} {keyed : Keyed} (hmac : variant.family = .cbcHmac)
    (has : variant.keyed = some keyed) {frame : Frame} {plaintext : Bytes}
    (sealed : variant.family.encrypt keyed frame.iv frame.aad plaintext =
      .ok (frame.body, frame.tag))
    (one : frame.iv.length = variant.family.nonceLength) (stated : frame.join.length < sizeLimit)
    (told : Nat) :
    (Cbc.CutAtBlock frame.aad.length plaintext.length told → ∃ recovered,
      variant.decrypt frame.join 0 told = .ok recovered ∧
        recovered.length + told = frame.aad.length + plaintext.length ∧
        recovered.drop (frame.aad.length - told) = plaintext.drop (told - frame.aad.length)) ∧
    (¬ Cbc.CutAtBlock frame.aad.length plaintext.length told →
      ∃ fault, variant.decrypt frame.join 0 told = .error (.corruptFraming fault)) := by
  have accepted : variant.family.AcceptsVectorLength 0 := by
    rw [hmac]
    exact .inr ⟨rfl, rfl⟩
  have decrypted := decrypt_of_keyed has accepted frame.join told
  rw [hmac] at sealed one decrypted
  obtain ⟨bodyIs, tagIs⟩ := Prod.mk.inj (Except.ok.inj sealed)
  have bodyLength := Cbc.length_encrypt keyed.cipher frame.iv plaintext
  rw [bodyIs, Padding.length_append] at bodyLength
  have fill := Padding.fillLength_bounds (by decide : 0 < Aes.blockLength) plaintext.length
  have tagLength : frame.tag.length = Hmac.tagLength := by rw [← tagIs, Hmac.length_tag]
  have total := Frame.length_join frame
  change _ = (Frame.split frame.join told Aes.blockLength Hmac.tagLength).bind _ at decrypted
  change frame.iv.length = Aes.blockLength at one
  by_cases short : frame.join.length < told + Aes.blockLength + Hmac.tagLength
  · obtain ⟨fault, refused⟩ := Frame.split_eq_error_of_short short
    rw [refused] at decrypted
    constructor
    · intro inside
      have reach := inside.2
      omega
    · intro _
      exact ⟨fault, decrypted⟩
  · obtain ⟨other, parts⟩ := Frame.exists_split (by omega) (Nat.le_of_not_lt short)
    rw [parts] at decrypted
    obtain ⟨_, joined, otherAad, otherIv, otherTag⟩ := Frame.split_eq_ok_iff.mp parts
    obtain ⟨covered, tags⟩ := List.append_inj' joined (by rw [otherTag, tagLength])
    have verified : Hmac.tag keyed.macKey (other.aad ++ other.iv ++ other.body) = other.tag := by
      rw [covered, tags, ← bodyIs, ← tagIs]
    have opened : variant.decrypt frame.join 0 told =
        Cbc.openStrict keyed.cipher other.iv other.body := by
      rw [decrypted]
      simp only [Except.bind, Family.decrypt, verified, beq_self_eq_true, if_true]
    rw [← bodyIs] at covered
    obtain ⟨inside, outside⟩ := Cbc.openStrict_cut one otherIv covered
    rw [otherAad] at inside outside
    rw [opened]
    exact ⟨inside, fun refused => ⟨_, outside refused⟩⟩

/-- A message is shorter than its parts with a whole block of padding. -/
theorem length_join_lt {variant : Variant} {keyed : Keyed} (hmac : variant.family = .cbcHmac)
    {frame : Frame} {plaintext : Bytes}
    (sealed : variant.family.encrypt keyed frame.iv frame.aad plaintext =
      .ok (frame.body, frame.tag))
    (one : frame.iv.length = variant.family.nonceLength)
    (stated : frame.aad.length + plaintext.length + 2 * Aes.blockLength + Hmac.tagLength <
      sizeLimit) : frame.join.length < sizeLimit := by
  rw [hmac] at sealed one
  obtain ⟨bodyIs, tagIs⟩ := Prod.mk.inj (Except.ok.inj sealed)
  have fill := Padding.fillLength_bounds (by decide : 0 < Aes.blockLength) plaintext.length
  change frame.iv.length = Aes.blockLength at one
  rw [Frame.length_join, one, ← bodyIs, ← tagIs, Cbc.length_encrypt, Padding.length_append,
    Hmac.length_tag]
  omega

/-- What becomes of a message that is decrypted with any length of additional data: in front of a
block, other than the last, the plaintext with other bytes in front of it or without some of its
own, and a framing error everywhere else. The message code refuses none of them. -/
theorem decrypt_foreign_aadLength {key : Bytes} {width : KeyWidth}
    (keyLength : key.length = width.byteLength) (plaintext : Bytes) (aad : Option Bytes)
    (stated : (aad.getD []).length + plaintext.length + 2 * Aes.blockLength + Hmac.tagLength <
      sizeLimit) (entropy : Entropy) :
    ∃ bound message, (Variant.new .cbcHmac).bind key = (.ok (), bound) ∧
      (bound.encrypt entropy plaintext none aad).1 = .ok message ∧
      ∀ told,
        (Cbc.CutAtBlock (aad.getD []).length plaintext.length told → ∃ recovered,
          bound.decrypt message 0 told = .ok recovered ∧
            recovered.length + told = (aad.getD []).length + plaintext.length ∧
            recovered.drop ((aad.getD []).length - told) =
              plaintext.drop (told - (aad.getD []).length)) ∧
        (¬ Cbc.CutAtBlock (aad.getD []).length plaintext.length told →
          ∃ fault, bound.decrypt message 0 told = .error (.corruptFraming fault)) := by
  obtain ⟨bound, keyed, frame, ran, has, family, made, aadParts, ivParts, sealed⟩ :=
    bind_encrypt_eq_join (.drawing .cbcHmac) keyLength rfl plaintext aad nofun entropy
  refine ⟨bound, frame.join, ran, made, ?_⟩
  intro told
  rw [← aadParts] at stated ⊢
  exact decrypt_cut family has sealed ivParts (length_join_lt family sealed ivParts stated) told

/-- Twenty bytes without additional data, told that sixteen bytes in front are such, and told that
one is. -/
theorem decrypt_foreign_aadLength_none :
    ∃ bound message,
      (Variant.new .cbcHmac).bind (List.replicate 16 0) = (.ok (), bound) ∧
      (bound.encrypt (.cycle []) (List.replicate 20 7) none none).1 = .ok message ∧
      (∃ recovered, bound.decrypt message 0 16 = .ok recovered ∧ recovered.length = 4) ∧
      ∃ fault, bound.decrypt message 0 1 = .error (.corruptFraming fault) := by
  have keyLength : (List.replicate 16 (0 : UInt8)).length = KeyWidth.w128.byteLength := rfl
  obtain ⟨bound, message, ran, made, cut⟩ :=
    decrypt_foreign_aadLength keyLength (List.replicate 20 7) none (by decide) (.cycle [])
  obtain ⟨recovered, opened, length, _⟩ := (cut 16).1 ⟨by decide, by decide⟩
  refine ⟨bound, message, ran, made, ⟨recovered, opened, Nat.add_right_cancel length⟩, ?_⟩
  exact (cut 1).2 (fun inside => absurd inside.1 (by decide))

/-- The message code does not catch every foreign length: told that the vector is additional data,
decrypting gives the last four bytes. -/
theorem decrypt_ne_error_of_foreign_aadLength :
    ∃ bound message,
      (Variant.new .cbcHmac).bind (List.replicate 16 0) = (.ok (), bound) ∧
      (bound.encrypt (.cycle []) (List.replicate 20 7) none none).1 = .ok message ∧
      bound.decrypt message 0 16 = .ok [7, 7, 7, 7] := by
  have keyLength : (List.replicate 16 (0 : UInt8)).length = KeyWidth.w128.byteLength := rfl
  obtain ⟨bound, keyed, frame, ran, has, family, made, aadParts, ivParts, sealed⟩ :=
    bind_encrypt_eq_join (.drawing .cbcHmac) keyLength rfl (List.replicate 20 7) none nofun
      (.cycle [])
  have stated : frame.join.length < sizeLimit := by
    apply length_join_lt family sealed ivParts
    rw [aadParts]
    decide
  obtain ⟨inside, _⟩ := decrypt_cut family has sealed ivParts stated 16
  rw [aadParts] at inside
  obtain ⟨recovered, opened, _, rest⟩ := inside ⟨by decide, by decide⟩
  have four : recovered = [7, 7, 7, 7] := rest
  exact ⟨bound, frame.join, ran, made, by rw [opened, four]⟩

end Variant

end AesTrials
