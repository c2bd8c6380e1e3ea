import AesTrials.Proofs.Sealing

/-!
# Round trips

Whatever a variant encrypts it decrypts to the same plaintext, and a variant that draws its vectors
decrypts nothing but what it would itself have encrypted. The first direction holds for every
family, the second for all but the one whose padding is read leniently.
-/

namespace AesTrials.Variant

/-- With a key of a valid length bound, every plaintext is encrypted, and every message decrypts to
its plaintext. The lengths of the outer parts of a message have to add up to a size that can be
stated, as those of all byte strings in memory do. -/
theorem decrypt_encrypt {variant : Variant} (constructed : variant.Constructed) {key : Bytes}
    {width : KeyWidth} (keyLength : key.length = width.byteLength) {plaintext : Bytes}
    {iv aad : Option Bytes} (accepted : variant.family.AcceptsVector iv)
    (admitted : variant.family.AdmitsLengths plaintext.length (aad.getD []).length)
    (stated : (aad.getD []).length + variant.family.nonceLength + variant.family.tagLength <
      sizeLimit) (entropy : Entropy) :
    ∃ bound, variant.bind key = (.ok (), bound) ∧
      ∃ message, (bound.encrypt entropy plaintext iv aad).1 = .ok message ∧
        ∀ ivLength, variant.family.AcceptsVectorLength ivLength →
          bound.decrypt message ivLength (aad.getD []).length = .ok plaintext := by
  obtain ⟨bound, keyed, frame, ran, has, family, made, aadParts, ivParts, sealed⟩ :=
    bind_encrypt_eq_join constructed keyLength accepted plaintext aad admitted entropy
  refine ⟨bound, ran, frame.join, made, ?_⟩
  intro ivLength told
  rw [← family] at told stated
  rw [← aadParts] at stated ⊢
  rw [decrypt_join has told ivParts (Family.length_tag_of_encrypt sealed) stated]
  exact Family.decrypt_of_encrypt sealed

/-- A nonce of sixteen bytes that is fixed, a key of twenty-four and additional data. -/
theorem decrypt_encrypt_fixed :
    ∃ bound, (Variant.mk .gcmWide (some (List.replicate 16 7)) none).bind (List.replicate 24 1) =
        (.ok (), bound) ∧
      ∃ message, (bound.encrypt (.cycle []) [1, 2, 3] none (some [4, 5])).1 = .ok message ∧
        ∀ ivLength, Family.gcmWide.AcceptsVectorLength ivLength →
          bound.decrypt message ivLength 2 = .ok [1, 2, 3] := by
  have accepted : withNonce .gcmWide (List.replicate 16 7) =
      .ok ⟨.gcmWide, some (List.replicate 16 7), none⟩ := rfl
  have keyLength : (List.replicate 24 (1 : UInt8)).length = KeyWidth.w192.byteLength := rfl
  exact decrypt_encrypt (.fixed rfl accepted) keyLength rfl (fun _ => by decide) (by decide)
    (.cycle [])

/-- A message that decrypts is what encrypting its plaintext gives, with the additional data in
front of the message and the vector behind it. -/
theorem encrypt_decrypt {variant : Variant} (internal : variant.family.nonceSource = .internal)
    {message plaintext : Bytes} {ivLength aadLength : Nat}
    (opened : variant.decrypt message ivLength aadLength = .ok plaintext)
    (bounded : variant.family.isAead = true → message.length -
      (aadLength + variant.family.nonceLength + variant.family.tagLength) ≤ Gcm.sizeBound)
    {entropy : Entropy} (vector : (variant.nextVector none entropy).1 =
      (message.drop aadLength).take variant.family.nonceLength) :
    (variant.encrypt entropy plaintext none (some (message.take aadLength))).1 = .ok message := by
  obtain ⟨keyed, frame, bound, parts, recovered⟩ := decrypt_eq_ok opened
  obtain ⟨_, joined, aadParts, ivParts, tagParts⟩ := Frame.split_eq_ok_iff.mp parts
  have accepted : variant.family.AcceptsVector none := by
    simp only [Family.AcceptsVector, internal]
  have aad : message.take aadLength = frame.aad := by
    rw [← joined, ← aadParts]
    simp [Frame.join]
  have iv : (message.drop aadLength).take variant.family.nonceLength = frame.iv := by
    rw [← joined, ← aadParts, ← ivParts]
    simp [Frame.join]
  have bodyLength : variant.family.isAead = true → frame.body.length ≤ Gcm.sizeBound := by
    intro aead
    have total := Frame.length_join frame
    rw [joined] at total
    have limit := bounded aead
    omega
  have sealed := Family.encrypt_of_decrypt internal tagParts bodyLength recovered
  rw [encrypt_of_keyed bound accepted, vector, iv, Option.getD_some, aad, sealed]
  exact congrArg Except.ok joined

/-- The message of three bytes under a vector of zeros, drawn again. -/
theorem encrypt_decrypt_cbc :
    let cipher := Aes.Cipher.ofKey .w128 (List.replicate 16 0)
    let variant : Variant := ⟨.cbc, none, some ⟨cipher, []⟩⟩
    let message := List.replicate 16 0 ++ Cbc.encrypt cipher (List.replicate 16 0) [1, 2, 3]
    variant.decrypt message 0 0 = .ok [1, 2, 3] ∧
      (variant.encrypt (.cycle []) [1, 2, 3] none (some [])).1 = .ok message := by
  intro cipher variant message
  let frame : Frame :=
    ⟨[], List.replicate 16 0, Cbc.encrypt cipher (List.replicate 16 0) [1, 2, 3], []⟩
  have joined : frame.join = message := by simp [frame, message, Frame.join]
  have opened : variant.decrypt message 0 0 = .ok [1, 2, 3] := by
    have parts : variant.decrypt frame.join 0 frame.aad.length = variant.family.decrypt _ frame :=
      decrypt_join rfl (.inr ⟨rfl, rfl⟩) rfl rfl (by decide)
    rw [joined] at parts
    exact parts.trans (Cbc.openStrict_encrypt cipher (List.replicate 16 0) [1, 2, 3])
  refine ⟨opened, ?_⟩
  exact encrypt_decrypt rfl opened (fun aead => absurd aead Bool.false_ne_true) rfl

end AesTrials.Variant
