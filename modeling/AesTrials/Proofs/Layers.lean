import AesTrials.Proofs.Sealing
import AesTrials.Variant.EncryptThenMac

/-!
# The layers of a variant with a message code

A variant with a message code and its layers answer every call alike, so what is proved of one holds
of the other. A message is refused over its code before anything is decrypted; once the code has
verified, the inner variant decrypts what is in front of it. The three cuts on the way agree: the
one with the tag, the length without it, and the one of the inner variant.
-/

namespace AesTrials.Variant

/-- The layers in which the key of a variant is bound. -/
def layers (variant : Variant) : EncryptThenMac :=
  { inner := ⟨.cbc, none, variant.keyed.map fun keyed => { cipher := keyed.cipher, macKey := [] }⟩
    macKey := variant.keyed.map Keyed.macKey
    width := variant.keyed.map fun keyed => keyed.cipher.width }

section Refinement

variable {variant : Variant} {keyed : Keyed}

/-- The layers have the name of the variant. -/
theorem name_layers (hmac : variant.family = .cbcHmac) : variant.layers.name = variant.name := by
  rw [EncryptThenMac.name, name, hmac]
  rfl

/-- The layers take the keys that the variant takes, and are those of the variant afterwards. -/
theorem bind_layers (hmac : variant.family = .cbcHmac) (key : Bytes) :
    variant.layers.bind key = ((variant.bind key).1, (variant.bind key).2.layers) := by
  unfold EncryptThenMac.bind bind
  simp only [hmac, new, Family.derive]
  cases KeyWidth.ofByteLength key.length with
  | error error => rfl
  | ok width => rfl

/-- The layers make the messages of the variant, if it draws its vectors. -/
theorem encrypt_layers (hmac : variant.family = .cbcHmac) (drawing : variant.fixedNonce = none)
    (entropy : Entropy) (plaintext : Bytes) (iv aad : Option Bytes) :
    variant.layers.encrypt entropy plaintext iv aad = variant.encrypt entropy plaintext iv aad := by
  unfold EncryptThenMac.encrypt
  cases iv with
  | some iv => simp only [encrypt, hmac, Family.vectorFault?]
  | none =>
    cases has : variant.keyed with
    | none => simp only [encrypt, hmac, has, layers, Option.map_none, Family.vectorFault?]
    | some keyed =>
      simp [layers, has, encrypt, drawing, hmac, nextVector, Family.vectorFault?, Family.encrypt,
        Family.nonceLength, Frame.join]

/-- What stands in front of the tag of a message is a message of the inner variant, with the same
vector and body. -/
theorem decrypt_inner (has : variant.keyed = some keyed) {message : Bytes} {aadLength : Nat}
    {frame : Frame}
    (parts : Frame.split message aadLength Aes.blockLength Hmac.tagLength = .ok frame) :
    variant.layers.inner.decrypt (message.take (message.length - Hmac.tagLength)) 0 aadLength =
      Cbc.openStrict keyed.cipher frame.iv frame.body := by
  have bound : variant.layers.inner.keyed = some { cipher := keyed.cipher, macKey := [] } := by
    simp only [layers, has, Option.map_some]
  rw [decrypt_of_keyed bound (.inr ⟨rfl, rfl⟩)]
  change (Frame.split _ aadLength Aes.blockLength 0).bind _ = _
  rw [Frame.split_untagged parts]
  rfl

/-- A message that splits is decrypted by the inner variant if its code verifies, and refused over
its code otherwise. -/
theorem decrypt_of_split (hmac : variant.family = .cbcHmac) (has : variant.keyed = some keyed)
    {ivLength : Nat} (told : variant.family.AcceptsVectorLength ivLength) {message : Bytes}
    {aadLength : Nat} {frame : Frame}
    (parts : Frame.split message aadLength Aes.blockLength Hmac.tagLength = .ok frame) :
    variant.decrypt message ivLength aadLength =
      if Hmac.tag keyed.macKey (message.take (message.length - Hmac.tagLength)) = frame.tag then
        variant.layers.inner.decrypt (message.take (message.length - Hmac.tagLength)) 0 aadLength
      else .error .authenticationFailure := by
  rw [decrypt_inner has parts, Frame.take_untagged parts, decrypt_of_keyed has told, hmac]
  change (Frame.split _ aadLength Aes.blockLength Hmac.tagLength).bind _ = _
  rw [parts]
  simp only [Except.bind, Family.decrypt, beq_iff_eq]

/-- The layers read every message as the variant does. -/
theorem decrypt_layers (hmac : variant.family = .cbcHmac) (message : Bytes)
    (ivLength aadLength : Nat) :
    variant.layers.decrypt message ivLength aadLength =
      variant.decrypt message ivLength aadLength := by
  unfold EncryptThenMac.decrypt
  cases fault : Family.cbcHmac.vectorLengthFault? ivLength with
  | some fault => simp only [decrypt, hmac, fault]
  | none =>
    cases has : variant.keyed with
    | none => simp only [decrypt, hmac, fault, has, layers, Option.map_none]
    | some keyed =>
      have told : variant.family.AcceptsVectorLength ivLength := by
        rw [hmac]
        exact (Family.vectorLengthFault?_eq_none_iff _ _).mp fault
      have macKey : variant.layers.macKey = some keyed.macKey := by
        simp only [layers, has, Option.map_some]
      simp only [macKey]
      cases parts : Frame.split message aadLength Aes.blockLength Hmac.tagLength with
      | error error =>
        rw [decrypt_of_keyed has told, hmac]
        exact (congrArg (Except.bind · _) parts).symm
      | ok frame =>
        rw [decrypt_of_split hmac has told parts]
        simp only [Frame.untaggedLength?_of_split parts, beq_iff_eq]

end Refinement

/-- A message that is too short for its parts is refused over its framing, and never for want of a
tag; every other one over its code, whatever else it holds, unless that verifies, and then the inner
variant decrypts what the code covers. All three cuts of a message give the same parts. -/
theorem decrypt_verified_first {variant : Variant} {keyed : Keyed}
    (hmac : variant.family = .cbcHmac) (has : variant.keyed = some keyed) {message : Bytes}
    (stated : message.length < sizeLimit) {ivLength : Nat}
    (told : ivLength = 0 ∨ ivLength = Aes.blockLength) (aadLength : Nat) :
    let outer := aadLength + Aes.blockLength + Hmac.tagLength
    let covered := message.take (message.length - Hmac.tagLength)
    let given := message.drop (message.length - Hmac.tagLength)
    variant.layers.decrypt message ivLength aadLength =
        variant.decrypt message ivLength aadLength ∧
      (message.length < outer → ∃ fault, fault ≠ .shorterThanTag ∧
        variant.decrypt message ivLength aadLength = .error (.corruptFraming fault)) ∧
      (outer ≤ message.length →
        (given ≠ Hmac.tag keyed.macKey covered →
          variant.decrypt message ivLength aadLength = .error .authenticationFailure) ∧
        (given = Hmac.tag keyed.macKey covered →
          variant.decrypt message ivLength aadLength =
            variant.layers.inner.decrypt covered 0 aadLength) ∧
        ∃ frame, Frame.split message aadLength Aes.blockLength Hmac.tagLength = .ok frame ∧
          Frame.untaggedLength? message Hmac.tagLength = some covered.length ∧
          covered = frame.aad ++ frame.iv ++ frame.body ∧ given = frame.tag ∧
          Frame.split covered aadLength Aes.blockLength 0 = .ok { frame with tag := [] }) := by
  intro outer covered given
  have accepted : variant.family.AcceptsVectorLength ivLength := by
    rw [hmac]
    exact told.elim (fun zero => .inr ⟨rfl, zero⟩) .inl
  refine ⟨decrypt_layers hmac message ivLength aadLength, ?_, ?_⟩
  · intro short
    -- The first cut already asks for room for the tag.
    have refused := Frame.split_of_short short
    refine ⟨if sizeLimit ≤ outer then .lengthsOverflow else .tooShort, by split <;> nofun, ?_⟩
    rw [decrypt_of_keyed has accepted, hmac]
    exact congrArg (Except.bind · _) refused
  · intro long
    obtain ⟨frame, parts⟩ := Frame.exists_split (Nat.lt_of_le_of_lt long stated) long
    have tag : given = frame.tag := Frame.drop_untagged parts
    have length : covered.length = message.length - Hmac.tagLength := by
      rw [List.length_take]
      omega
    have decrypted := decrypt_of_split hmac has accepted parts
    rw [← tag] at decrypted
    refine ⟨?_, ?_, frame, parts, ?_, Frame.take_untagged parts, tag, Frame.split_untagged parts⟩
    · intro forged
      rw [decrypted, if_neg (Ne.symm forged)]
    · intro verified
      rw [decrypted, if_pos verified.symm]
    · rw [Frame.untaggedLength?_of_split parts, length]

/-- Forty-seven bytes are too short for a message, and the code of thirty-two bytes behind them
makes one that the inner variant reads. -/
theorem decrypt_verified_first_zeros :
    let cipher := Aes.Cipher.ofKey .w128 (List.replicate 16 0)
    let variant : Variant := ⟨.cbcHmac, none, some ⟨cipher, [1]⟩⟩
    let covered : Bytes := List.replicate 32 0
    (∃ fault, fault ≠ .shorterThanTag ∧
      variant.decrypt (List.replicate 47 0) 0 0 = .error (.corruptFraming fault)) ∧
    variant.decrypt (covered ++ Hmac.tag [1] covered) 16 0 =
      variant.layers.inner.decrypt covered 0 0 := by
  intro cipher variant covered
  let short : Bytes := List.replicate 47 0
  let message := covered ++ Hmac.tag [1] covered
  have hmac : variant.family = .cbcHmac := rfl
  have has : variant.keyed = some ⟨cipher, [1]⟩ := rfl
  have length : message.length = 64 := by
    rw [List.length_append, Hmac.length_tag]
    rfl
  have front : message.take (message.length - Hmac.tagLength) = covered := by
    rw [length]
    exact List.take_left' rfl
  have back : message.drop (message.length - Hmac.tagLength) = Hmac.tag [1] covered := by
    rw [length]
    exact List.drop_left' rfl
  have shortStated : short.length < sizeLimit := by decide
  have stated : message.length < sizeLimit := by
    rw [length]
    decide
  obtain ⟨_, refused, _⟩ := decrypt_verified_first hmac has shortStated (.inl rfl) 0
  obtain ⟨_, _, read⟩ := decrypt_verified_first hmac has stated (.inr rfl) 0
  rw [front, back, length] at read
  exact ⟨refused (by decide), (read (by decide)).2.1 rfl⟩

end AesTrials.Variant
