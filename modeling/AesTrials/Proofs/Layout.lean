import AesTrials.Proofs.Forecast

/-!
# The layout of messages

Every family writes its messages in one layout, additional data, vector, body and tag one after the
other, and the lengths of the parts follow from those of the inputs. Whether there is a message is
settled before a vector is drawn, first by the vector that is passed and then by the key. In the
layers of a variant with a message code that code stands behind the message of the inner variant,
and covers all of it.
-/

namespace AesTrials

/-- Layers that make a message put the code of the inner variant's message behind it. -/
theorem EncryptThenMac.encrypt_eq_ok {layers : EncryptThenMac} {entropy left : Entropy}
    {plaintext message : Bytes} {iv aad : Option Bytes}
    (made : layers.encrypt entropy plaintext iv aad = (.ok message, left)) :
    ∃ macKey inner, layers.macKey = some macKey ∧
      layers.inner.encrypt entropy plaintext none aad = (.ok inner, left) ∧
      message = inner ++ Hmac.tag macKey inner := by
  unfold encrypt at made
  split at made
  · cases made
  · cases made
  · rename_i macKey _ bound
    split at made
    · cases made
    · rename_i inner _ within
      cases made
      exact ⟨macKey, inner, bound, within, rfl⟩

namespace Variant

/-- A variant as any requests leave one that was constructed. -/
def Reachable (variant : Variant) : Prop :=
  ∃ (start : Variant) (entropy : Entropy) (requests : List Request),
    start.Constructed ∧ (subject.afterAll (start, entropy) requests).1 = variant

/-- How the parts of a variant's next message are laid out. -/
structure LaidOut (variant : Variant) (entropy : Entropy) (plaintext : Bytes)
    (iv aad : Option Bytes) (frame : Frame) : Prop where
  /-- The additional data is the one that is given; none is empty. -/
  aad : frame.aad = aad.getD []
  /-- The vector is the one that is given, -/
  given : ∀ vector, iv = some vector → frame.iv = vector
  /-- or else the nonce that is fixed, -/
  fixed : iv = none → ∀ nonce, variant.fixedNonce = some nonce → frame.iv = nonce
  /-- or else it is drawn. -/
  drawn : iv = none → variant.fixedNonce = none →
    frame.iv = (entropy.draw variant.family.nonceLength).1
  /-- It has the length of the family. -/
  ivLength : frame.iv.length = variant.family.nonceLength
  /-- The body is as long as the family makes that of such a plaintext. -/
  bodyLength : frame.body.length = variant.family.bodyLength plaintext.length
  /-- The tag has the length of the family. -/
  tagLength : frame.tag.length = variant.family.tagLength

section Parts

variable {variant : Variant} {entropy : Entropy} {plaintext : Bytes} {iv aad : Option Bytes}
  {frame : Frame}

/-- The vector is the next one. -/
theorem LaidOut.iv_eq (laid : variant.LaidOut entropy plaintext iv aad frame) :
    frame.iv = (variant.nextVector iv entropy).1 := by
  cases iv with
  | some vector => exact laid.given vector rfl
  | none =>
    cases fixed : variant.fixedNonce with
    | some nonce => simp only [nextVector, fixed, laid.fixed rfl nonce fixed]
    | none => simp only [nextVector, fixed, laid.drawn rfl fixed]

/-- A message is as long as the family makes those of such inputs. -/
theorem LaidOut.length_join (laid : variant.LaidOut entropy plaintext iv aad frame) :
    frame.join.length =
      variant.family.messageLength plaintext.length (aad.getD []).length := by
  rw [Frame.length_join, laid.aad, laid.ivLength, laid.bodyLength, laid.tagLength]
  rfl

/-- A message is cut into its parts again by the lengths that its reader is told. -/
theorem LaidOut.split_join (laid : variant.LaidOut entropy plaintext iv aad frame)
    (stated : (aad.getD []).length + variant.family.nonceLength + variant.family.tagLength <
      sizeLimit) :
    Frame.split frame.join (aad.getD []).length variant.family.nonceLength
      variant.family.tagLength = .ok frame :=
  Frame.split_eq_ok_iff.mpr
    ⟨stated, rfl, congrArg List.length laid.aad, laid.ivLength, laid.tagLength⟩

/-- What the family seals under the next vector is laid out. -/
theorem laidOut_of_encrypt (fits : variant.NonceFits) (accepted : variant.family.AcceptsVector iv)
    {keyed : Keyed} {body tag : Bytes}
    (sealed : variant.family.encrypt keyed (variant.nextVector iv entropy).1 (aad.getD [])
      plaintext = .ok (body, tag)) :
    variant.LaidOut entropy plaintext iv aad
      ⟨aad.getD [], (variant.nextVector iv entropy).1, body, tag⟩ where
  aad := rfl
  given := by
    rintro vector rfl
    rfl
  fixed := by
    rintro rfl nonce fixed
    simp only [nextVector, fixed]
  drawn := by
    rintro rfl drawing
    simp only [nextVector, drawing]
  ivLength := length_nextVector fits accepted entropy
  bodyLength := Family.length_body_of_encrypt sealed
  tagLength := Family.length_tag_of_encrypt sealed

/-- How an encryption ends: with its answer, and the entropy left. -/
inductive Encrypted (variant : Variant) (entropy : Entropy) (plaintext : Bytes)
    (iv aad : Option Bytes) : Except CipherError Bytes × Entropy → Prop where
  /-- The vector that is passed is refused, and nothing is drawn. -/
  | vector (foreign : ¬ variant.family.AcceptsVector iv) (fault : ArgumentFault) :
    Encrypted variant entropy plaintext iv aad (.error (.invalidArgument fault), entropy)
  /-- The key is missing, and nothing is drawn. -/
  | key (accepted : variant.family.AcceptsVector iv) (unkeyed : variant.keyed = none) :
    Encrypted variant entropy plaintext iv aad (.error .notInitialised, entropy)
  /-- The parts of a message are laid out. -/
  | message (accepted : variant.family.AcceptsVector iv) (keyed : variant.keyed ≠ none)
      {frame : Frame} (laid : variant.LaidOut entropy plaintext iv aad frame) :
    Encrypted variant entropy plaintext iv aad
      (.ok frame.join, (variant.nextVector iv entropy).2)

/-- Every encryption of lengths that the family takes ends in one of these ways. -/
theorem encrypted_encrypt (fits : variant.NonceFits)
    (admitted : variant.family.AdmitsLengths plaintext.length (aad.getD []).length)
    (iv : Option Bytes) (entropy : Entropy) :
    variant.Encrypted entropy plaintext iv aad (variant.encrypt entropy plaintext iv aad) := by
  cases checked : variant.family.vectorFault? iv with
  | some fault =>
    have foreign : ¬ variant.family.AcceptsVector iv := by
      intro accepted
      rw [(Family.vectorFault?_eq_none_iff _ _).mpr accepted] at checked
      contradiction
    simp only [encrypt, checked]
    exact .vector foreign fault
  | none =>
    have accepted := (Family.vectorFault?_eq_none_iff _ _).mp checked
    cases has : variant.keyed with
    | none =>
      simp only [encrypt, checked, has]
      exact .key accepted has
    | some keyed =>
      have bound : variant.keyed ≠ none := by
        rw [has]
        exact Option.some_ne_none keyed
      obtain ⟨body, tag, sealed⟩ :=
        Family.encrypt_eq_ok admitted keyed (variant.nextVector iv entropy).1
      simp only [encrypt, checked, has, sealed]
      exact .message accepted bound (laidOut_of_encrypt fits accepted sealed)

namespace Encrypted

variable {answer : Except CipherError Bytes × Entropy}

/-- The argument is at fault exactly if the family does not take the vector. -/
theorem invalidArgument_iff (ends : variant.Encrypted entropy plaintext iv aad answer) :
    (∃ fault, answer.1 = .error (.invalidArgument fault)) ↔
      ¬ variant.family.AcceptsVector iv := by
  cases ends with
  | vector foreign fault => exact iff_of_true ⟨fault, rfl⟩ foreign
  | key accepted unkeyed => simp [accepted]
  | message accepted keyed laid => simp [accepted]

/-- The key is asked for exactly if the family takes the vector and there is none. -/
theorem notInitialised_iff (ends : variant.Encrypted entropy plaintext iv aad answer) :
    answer.1 = .error .notInitialised ↔
      variant.family.AcceptsVector iv ∧ variant.keyed = none := by
  cases ends with
  | vector foreign fault => simp [foreign]
  | key accepted unkeyed => exact iff_of_true rfl ⟨accepted, unkeyed⟩
  | message accepted keyed laid => simp [keyed]

/-- A failure draws nothing. -/
theorem entropy_of_error (ends : variant.Encrypted entropy plaintext iv aad answer)
    {error : CipherError} (failed : answer.1 = .error error) : answer.2 = entropy := by
  cases ends with
  | vector foreign fault => rfl
  | key accepted unkeyed => rfl
  | message accepted keyed laid => contradiction

/-- With a vector that the family takes and a key there is a message. -/
theorem exists_laidOut (ends : variant.Encrypted entropy plaintext iv aad answer)
    (accepted : variant.family.AcceptsVector iv) (keyed : variant.keyed ≠ none) :
    ∃ frame, answer = (.ok frame.join, (variant.nextVector iv entropy).2) ∧
      variant.LaidOut entropy plaintext iv aad frame := by
  cases ends with
  | vector foreign fault => exact absurd accepted foreign
  | key _ unkeyed => exact absurd unkeyed keyed
  | message _ _ laid => exact ⟨_, rfl, laid⟩

end Encrypted

end Parts

section States

variable {variant : Variant}

/-- Of any requests only the last key counts. -/
theorem Reachable.eq_rekeyed (reachable : variant.Reachable) :
    ∃ (start : Variant) (key : Option Bytes), start.Constructed ∧ variant = start.rekeyed key := by
  obtain ⟨start, entropy, requests, constructed, rfl⟩ := reachable
  exact ⟨start, _, constructed, afterAll_eq_rekeyed start entropy requests⟩

/-- In every state the fixed nonce, if there is one, has the length of the family. -/
theorem Reachable.nonceFits (reachable : variant.Reachable) : variant.NonceFits := by
  obtain ⟨start, key, constructed, rfl⟩ := reachable.eq_rekeyed
  obtain ⟨family, nonce⟩ := start.rekeyed_labels key
  exact constructed.nonceFits.of_eq family nonce

/-- In every state only a family that encrypts and authenticates in one has a fixed nonce. -/
theorem Reachable.drawing_of_not_aead (reachable : variant.Reachable)
    (other : variant.family.isAead = false) : variant.fixedNonce = none := by
  obtain ⟨start, key, constructed, rfl⟩ := reachable.eq_rekeyed
  obtain ⟨family, nonce⟩ := start.rekeyed_labels key
  rw [family] at other
  rw [nonce]
  exact constructed.drawing_of_not_aead other

/-- In every state all layers come from one key, or they are all absent. -/
theorem Reachable.coherent_layers (reachable : variant.Reachable)
    (hmac : variant.family = .cbcHmac) : ∃ key, EncryptThenMac.Coherent key variant.layers := by
  obtain ⟨start, key, constructed, rfl⟩ := reachable.eq_rekeyed
  rw [(start.rekeyed_labels key).1] at hmac
  exact ⟨key, coherent_layers_rekeyed hmac constructed.unkeyed key⟩

/-- The message of a variant with a message code is that of its inner variant, and behind it the
code of all of that. -/
theorem encrypt_hmac (reachable : variant.Reachable) (hmac : variant.family = .cbcHmac)
    {entropy left : Entropy} {plaintext message : Bytes} {iv aad : Option Bytes}
    (made : variant.encrypt entropy plaintext iv aad = (.ok message, left)) :
    ∃ macKey inner, variant.layers.macKey = some macKey ∧
      variant.layers.inner.encrypt entropy plaintext none aad = (.ok inner, left) ∧
      message.take (message.length - Hmac.tagLength) = inner ∧
      message.drop (message.length - Hmac.tagLength) = Hmac.tag macKey inner := by
  have drawing := reachable.drawing_of_not_aead (by rw [hmac]; rfl)
  rw [← encrypt_layers hmac drawing] at made
  obtain ⟨macKey, inner, bound, within, rfl⟩ := EncryptThenMac.encrypt_eq_ok made
  have front : (inner ++ Hmac.tag macKey inner).length - Hmac.tagLength = inner.length := by
    rw [List.length_append, Hmac.length_tag, Nat.add_sub_cancel]
  rw [front]
  exact ⟨macKey, inner, bound, within, List.take_left, List.drop_left⟩

/-- How encrypting ends, whatever the state of the variant and whatever vector and additional data
are passed. A vector that the family does not take is refused, with a key or without; then a missing
key; neither draws anything. Everything else gives a message and draws no more than its vector. Its
parts are laid out, and its reader cuts it into them if their lengths add up to a size that can be
stated. No additional data and empty data give the same message. Where there is a message code it
covers the message of the inner variant, which is all that is in front of it. -/
theorem encrypt_layout (reachable : variant.Reachable) {plaintext : Bytes} {aad : Option Bytes}
    (admitted : variant.family.AdmitsLengths plaintext.length (aad.getD []).length)
    (iv : Option Bytes) (entropy : Entropy) :
    let family := variant.family
    let answer := variant.encrypt entropy plaintext iv aad
    ((∃ fault, answer.1 = .error (.invalidArgument fault)) ↔ ¬ family.AcceptsVector iv) ∧
      (answer.1 = .error .notInitialised ↔
        family.AcceptsVector iv ∧ variant.keyed = none) ∧
      (∀ error, answer.1 = .error error → answer.2 = entropy) ∧
      (family.AcceptsVector iv → variant.keyed ≠ none → ∃ message frame,
        answer = (.ok message, (variant.nextVector iv entropy).2) ∧ frame.join = message ∧
        variant.LaidOut entropy plaintext iv aad frame ∧
        message.length = family.messageLength plaintext.length (aad.getD []).length ∧
        ((aad.getD []).length + family.nonceLength + family.tagLength < sizeLimit →
          Frame.split message (aad.getD []).length family.nonceLength family.tagLength =
            .ok frame)) ∧
      (∀ other, (variant.nextVector iv entropy).1 = (variant.nextVector iv other).1 →
        (variant.encrypt entropy plaintext iv none).1 =
          (variant.encrypt other plaintext iv (some [])).1) ∧
      (family = .cbcHmac →
        (∃ key, EncryptThenMac.Coherent key variant.layers) ∧
        variant.layers.encrypt entropy plaintext iv aad = answer ∧
        ∀ message, answer.1 = .ok message → ∃ macKey inner,
          variant.layers.macKey = some macKey ∧
          variant.layers.inner.encrypt entropy plaintext none aad = (.ok inner, answer.2) ∧
          message.take (message.length - Hmac.tagLength) = inner ∧
          message.drop (message.length - Hmac.tagLength) = Hmac.tag macKey inner) := by
  intro family answer
  have ends : variant.Encrypted entropy plaintext iv aad answer :=
    encrypted_encrypt reachable.nonceFits admitted iv entropy
  refine ⟨ends.invalidArgument_iff, ends.notInitialised_iff, fun _ => ends.entropy_of_error,
    ?_, ?_, ?_⟩
  · intro accepted keyed
    obtain ⟨frame, same, laid⟩ := ends.exists_laidOut accepted keyed
    exact ⟨frame.join, frame, same, rfl, laid, laid.length_join, laid.split_join⟩
  · intro other vectors
    exact variant.encrypt_eq_of_nextVector_eq vectors plaintext (some [])
  · intro hmac
    have drawing := reachable.drawing_of_not_aead (show family.isAead = false by rw [hmac]; rfl)
    refine ⟨reachable.coherent_layers hmac, encrypt_layers hmac drawing _ _ _ _, ?_⟩
    intro message made
    exact encrypt_hmac reachable hmac (Prod.ext made rfl)

/-- Three bytes with two of additional data under a fixed nonce and a bound key, and the same with a
vector that is empty. -/
theorem encrypt_layout_fixed :
    let nonce : Bytes := List.replicate 12 7
    let variant := ((Variant.mk .gcm (some nonce) none).bind (List.replicate 16 0)).2
    (∃ message, (variant.encrypt (.cycle []) [1, 2, 3] none (some [4, 5])).1 = .ok message ∧
        message.length = 33) ∧
      ∃ fault, (variant.encrypt (.cycle []) [1, 2, 3] (some []) (some [4, 5])).1 =
        .error (.invalidArgument fault) := by
  intro nonce variant
  have accepted : withNonce .gcm nonce = .ok ⟨.gcm, some nonce, none⟩ := rfl
  have reachable : variant.Reachable :=
    ⟨_, .cycle [], [.bind (List.replicate 16 0)], .fixed rfl accepted, rfl⟩
  have admitted : variant.family.AdmitsLengths [(1 : UInt8), 2, 3].length
      ((some [(4 : UInt8), 5]).getD []).length := fun _ => by decide
  refine ⟨?_, ?_⟩
  · obtain ⟨message, frame, same, _, _, length, _⟩ :=
      (encrypt_layout reachable admitted none (.cycle [])).2.2.2.1 rfl (Option.some_ne_none _)
    exact ⟨message, congrArg Prod.fst same, length⟩
  · have foreign : ¬ variant.family.AcceptsVector (some []) := Option.some_ne_none _
    exact (encrypt_layout reachable admitted (some []) (.cycle [])).1.mpr foreign

end States

end Variant

end AesTrials
