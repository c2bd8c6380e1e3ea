import AesTrials.Proofs.Authentication
import AesTrials.Proofs.Chaining
import AesTrials.Proofs.Framing
import AesTrials.Variant.Basic

/-!
# Sealing and opening

Every family opens what it seals, and the families that draw their vectors open nothing else. The
calls of a variant are stated by equations in those two operations of its family: with a key bound
and arguments in order, encrypting seals under the next vector and joins the parts, and decrypting
cuts the message and opens them.
-/

namespace AesTrials

namespace Family

/-- Whether the family takes a plaintext and additional data of these lengths: only the
constructions that encrypt and authenticate in one bound them. -/
def AdmitsLengths (family : Family) (plainLength aadLength : Nat) : Prop :=
  family.isAead = true → plainLength ≤ Gcm.sizeBound ∧ aadLength ≤ Gcm.sizeBound

/-- Whether the family takes this vector from its caller: none if it draws its own, else one of its
length. -/
def AcceptsVector (family : Family) (iv : Option Bytes) : Prop :=
  match family.nonceSource with
  | .internal => iv = none
  | .external => ∃ vector, iv = some vector ∧ vector.length = family.nonceLength

/-- Whether the family takes this vector length with a message: that of its vectors, or zero if it
draws them. -/
def AcceptsVectorLength (family : Family) (ivLength : Nat) : Prop :=
  ivLength = family.nonceLength ∨ family.nonceSource = .internal ∧ ivLength = 0

/-- A vector is at fault exactly when the family does not take it. -/
theorem vectorFault?_eq_none_iff (family : Family) (iv : Option Bytes) :
    family.vectorFault? iv = none ↔ family.AcceptsVector iv := by
  cases family <;> cases iv <;>
    grind [vectorFault?, AcceptsVector, nonceSource, nonceLength, Aes.blockLength]

/-- A vector length is at fault exactly when the family does not take it. -/
theorem vectorLengthFault?_eq_none_iff (family : Family) (ivLength : Nat) :
    family.vectorLengthFault? ivLength = none ↔ family.AcceptsVectorLength ivLength := by
  unfold vectorLengthFault? AcceptsVectorLength
  cases family.nonceSource <;> grind

/-- A key as long as a width says is taken, for a cipher of that width. -/
theorem derive_eq_ok (family : Family) {key : Bytes} {width : KeyWidth}
    (length : key.length = width.byteLength) :
    ∃ keyed, family.derive key = .ok keyed ∧ keyed.cipher.width = width := by
  simp only [derive, length, KeyWidth.ofByteLength_byteLength]
  exact ⟨_, rfl, rfl⟩

/-- The family that pads its plaintexts itself seals the bodies of the one that leaves it to its
encoder. -/
theorem encrypt_cbcRaw (keyed : Keyed) (iv aad plaintext : Bytes) :
    Family.cbcRaw.encrypt keyed iv aad plaintext =
      .ok (Cbc.encrypt keyed.cipher iv plaintext, []) := by
  simp only [encrypt, Cbc.encryptPadded_eq]

/-- Lengths that the family takes are sealed. -/
theorem encrypt_eq_ok {family : Family} {plaintext aad : Bytes}
    (admitted : family.AdmitsLengths plaintext.length aad.length) (keyed : Keyed) (iv : Bytes) :
    ∃ body tag, family.encrypt keyed iv aad plaintext = .ok (body, tag) := by
  cases family with
  | cbc | cbcHmac => exact ⟨_, _, rfl⟩
  | cbcRaw => exact ⟨_, _, encrypt_cbcRaw keyed iv aad plaintext⟩
  | gcm | gcmWide =>
    obtain ⟨plain, beside⟩ := admitted rfl
    exact ⟨_, _, Gcm.encrypt_eq_ok plain beside keyed.cipher iv⟩
  | gcmSiv =>
    obtain ⟨plain, beside⟩ := admitted rfl
    exact ⟨_, _, GcmSiv.encrypt_eq_ok plain beside keyed.cipher iv⟩

/-- What the family seals has a tag of its length. -/
theorem length_tag_of_encrypt {family : Family} {keyed : Keyed}
    {iv aad plaintext body tag : Bytes}
    (sealed : family.encrypt keyed iv aad plaintext = .ok (body, tag)) :
    tag.length = family.tagLength := by
  cases family with
  | cbc =>
    cases sealed
    rfl
  | cbcRaw =>
    rw [encrypt_cbcRaw] at sealed
    cases sealed
    rfl
  | cbcHmac =>
    cases sealed
    exact Hmac.length_tag _ _
  | gcm | gcmWide =>
    simp only [encrypt, Gcm.encrypt] at sealed
    split at sealed
    · contradiction
    · cases sealed
      exact Gcm.length_tag _ _ _ _
  | gcmSiv =>
    simp only [encrypt, GcmSiv.encrypt] at sealed
    split at sealed
    · contradiction
    · cases sealed
      exact GcmSiv.length_tag _ _ _ _

/-- The family opens what it seals. -/
theorem decrypt_of_encrypt {family : Family} {keyed : Keyed} {iv aad plaintext body tag : Bytes}
    (sealed : family.encrypt keyed iv aad plaintext = .ok (body, tag)) :
    family.decrypt keyed { aad, iv, body, tag } = .ok plaintext := by
  cases family with
  | cbc =>
    cases sealed
    exact Cbc.openStrict_encrypt keyed.cipher iv plaintext
  | cbcRaw =>
    rw [encrypt_cbcRaw] at sealed
    cases sealed
    exact Cbc.openLenient_encrypt keyed.cipher iv plaintext
  | cbcHmac =>
    cases sealed
    simp only [decrypt, beq_self_eq_true, if_true]
    exact Cbc.openStrict_encrypt keyed.cipher iv plaintext
  | gcm | gcmWide => exact Gcm.decrypt_of_encrypt sealed
  | gcmSiv => exact GcmSiv.decrypt_of_encrypt sealed

/-- A family that draws its vectors opens only what it seals. -/
theorem encrypt_of_decrypt {family : Family} (internal : family.nonceSource = .internal)
    {keyed : Keyed} {frame : Frame} {plaintext : Bytes}
    (tagged : frame.tag.length = family.tagLength)
    (bounded : family.isAead = true → frame.body.length ≤ Gcm.sizeBound)
    (opened : family.decrypt keyed frame = .ok plaintext) :
    family.encrypt keyed frame.iv frame.aad plaintext = .ok (frame.body, frame.tag) := by
  cases family with
  | cbc =>
    have none : frame.tag = [] := List.eq_nil_of_length_eq_zero tagged
    simp only [encrypt, Cbc.encrypt_of_openStrict opened, none]
  | cbcRaw => contradiction
  | cbcHmac =>
    simp only [decrypt] at opened
    split at opened
    · rename_i verified
      simp only [encrypt, Cbc.encrypt_of_openStrict opened, eq_of_beq verified]
    · contradiction
  | gcm | gcmWide => exact Gcm.encrypt_of_decrypt (bounded rfl) opened
  | gcmSiv => exact GcmSiv.encrypt_of_decrypt (bounded rfl) opened

end Family

namespace Variant

/-- A variant as it is constructed: it draws its vectors, or, if it encrypts and authenticates in
one, uses one fixed nonce of its length. -/
inductive Constructed : Variant → Prop where
  /-- Without a fixed nonce. -/
  | drawing (family : Family) : Constructed (.new family)
  /-- With a fixed nonce that was accepted. -/
  | fixed {family : Family} {nonce : Bytes} {variant : Variant} (aead : family.isAead = true)
      (accepted : withNonce family nonce = .ok variant) : Constructed variant

/-- Whether the fixed nonce, if there is one, has the length of the family. -/
def NonceFits (variant : Variant) : Prop :=
  ∀ nonce, variant.fixedNonce = some nonce → nonce.length = variant.family.nonceLength

/-- A constructed variant has a fixed nonce of its length, if any. -/
theorem Constructed.nonceFits {variant : Variant} (constructed : variant.Constructed) :
    variant.NonceFits := by
  intro nonce given
  cases constructed with
  | drawing family => contradiction
  | fixed aead accepted =>
    unfold withNonce at accepted
    split at accepted
    · rename_i length
      cases accepted
      cases given
      exact length
    · contradiction

/-- The vector of the next message has the length of the family. -/
theorem length_nextVector {variant : Variant} (fits : variant.NonceFits) {iv : Option Bytes}
    (accepted : variant.family.AcceptsVector iv) (entropy : Entropy) :
    (variant.nextVector iv entropy).1.length = variant.family.nonceLength := by
  cases iv with
  | some vector =>
    unfold Family.AcceptsVector at accepted
    split at accepted
    · contradiction
    · obtain ⟨_, same, length⟩ := accepted
      cases same
      exact length
  | none =>
    unfold nextVector
    cases given : variant.fixedNonce with
    | some nonce => exact fits nonce given
    | none => exact Entropy.length_draw _ _

/-- Binding a key as long as a width says changes nothing but the key, which is then derived from
it. -/
theorem bind_eq_ok (variant : Variant) {key : Bytes} {width : KeyWidth}
    (length : key.length = width.byteLength) :
    ∃ bound keyed, variant.bind key = (.ok (), bound) ∧ bound.keyed = some keyed ∧
      bound.family = variant.family ∧ bound.fixedNonce = variant.fixedNonce := by
  obtain ⟨keyed, derived, _⟩ := variant.family.derive_eq_ok length
  exact ⟨{ variant with keyed := some keyed }, keyed, by simp only [bind, derived], rfl, rfl, rfl⟩

/-- A fixed nonce fits whatever key is bound. -/
theorem NonceFits.of_eq {variant other : Variant} (fits : variant.NonceFits)
    (family : other.family = variant.family) (nonce : other.fixedNonce = variant.fixedNonce) :
    other.NonceFits := by
  unfold NonceFits at fits ⊢
  rw [family, nonce]
  exact fits

/-- With a key bound and a vector that is taken, encrypting seals and joins the parts. -/
theorem encrypt_of_keyed {variant : Variant} {keyed : Keyed} (bound : variant.keyed = some keyed)
    {iv : Option Bytes} (accepted : variant.family.AcceptsVector iv) (entropy : Entropy)
    (plaintext : Bytes) (aad : Option Bytes) :
    (variant.encrypt entropy plaintext iv aad).1 =
      (variant.family.encrypt keyed (variant.nextVector iv entropy).1 (aad.getD []) plaintext).map
        fun parts => Frame.join
          ⟨aad.getD [], (variant.nextVector iv entropy).1, parts.1, parts.2⟩ := by
  simp only [encrypt, (Family.vectorFault?_eq_none_iff _ _).mpr accepted, bound]
  cases variant.family.encrypt keyed (variant.nextVector iv entropy).1 (aad.getD []) plaintext <;>
    rfl

/-- With a key bound and a vector length that is taken, decrypting cuts the message and opens the
parts. -/
theorem decrypt_of_keyed {variant : Variant} {keyed : Keyed} (bound : variant.keyed = some keyed)
    {ivLength : Nat} (accepted : variant.family.AcceptsVectorLength ivLength) (message : Bytes)
    (aadLength : Nat) :
    variant.decrypt message ivLength aadLength =
      (Frame.split message aadLength variant.family.nonceLength variant.family.tagLength).bind
        (variant.family.decrypt keyed) := by
  simp only [decrypt, (Family.vectorLengthFault?_eq_none_iff _ _).mpr accepted, bound]
  cases Frame.split message aadLength variant.family.nonceLength variant.family.tagLength <;> rfl

/-- A message is the parts that its family seals under the next vector, joined. -/
theorem encrypt_eq_join {variant : Variant} {keyed : Keyed} (bound : variant.keyed = some keyed)
    (fits : variant.NonceFits) {plaintext : Bytes} {iv aad : Option Bytes}
    (accepted : variant.family.AcceptsVector iv)
    (admitted : variant.family.AdmitsLengths plaintext.length (aad.getD []).length)
    (entropy : Entropy) :
    ∃ frame : Frame, (variant.encrypt entropy plaintext iv aad).1 = .ok frame.join ∧
      frame.aad = aad.getD [] ∧ frame.iv.length = variant.family.nonceLength ∧
      variant.family.encrypt keyed frame.iv frame.aad plaintext =
        .ok (frame.body, frame.tag) := by
  obtain ⟨body, tag, sealed⟩ :=
    Family.encrypt_eq_ok admitted keyed (variant.nextVector iv entropy).1
  refine ⟨⟨aad.getD [], (variant.nextVector iv entropy).1, body, tag⟩, ?_, rfl,
    length_nextVector fits accepted entropy, sealed⟩
  rw [encrypt_of_keyed bound accepted, sealed]
  rfl

/-- A constructed variant to which a key of a valid length is bound makes a message of every
plaintext that its family takes. -/
theorem bind_encrypt_eq_join {variant : Variant} (constructed : variant.Constructed) {key : Bytes}
    {width : KeyWidth} (keyLength : key.length = width.byteLength) {iv : Option Bytes}
    (accepted : variant.family.AcceptsVector iv) (plaintext : Bytes) (aad : Option Bytes)
    (admitted : variant.family.AdmitsLengths plaintext.length (aad.getD []).length)
    (entropy : Entropy) :
    ∃ (bound : Variant) (keyed : Keyed) (frame : Frame),
      variant.bind key = (.ok (), bound) ∧ bound.keyed = some keyed ∧
      bound.family = variant.family ∧
      (bound.encrypt entropy plaintext iv aad).1 = .ok frame.join ∧
      frame.aad = aad.getD [] ∧ frame.iv.length = bound.family.nonceLength ∧
      bound.family.encrypt keyed frame.iv frame.aad plaintext =
        .ok (frame.body, frame.tag) := by
  obtain ⟨bound, keyed, ran, has, family, nonce⟩ := variant.bind_eq_ok keyLength
  have fits : bound.NonceFits := constructed.nonceFits.of_eq family nonce
  rw [← family] at accepted admitted
  obtain ⟨frame, parts⟩ := encrypt_eq_join has fits accepted admitted entropy
  exact ⟨bound, keyed, frame, ran, has, family, parts⟩

/-- The parts of a message, joined, decrypt to what they open to. -/
theorem decrypt_join {variant : Variant} {keyed : Keyed} (bound : variant.keyed = some keyed)
    {ivLength : Nat} (accepted : variant.family.AcceptsVectorLength ivLength) {frame : Frame}
    (iv : frame.iv.length = variant.family.nonceLength)
    (tag : frame.tag.length = variant.family.tagLength)
    (stated : frame.aad.length + variant.family.nonceLength + variant.family.tagLength <
      sizeLimit) :
    variant.decrypt frame.join ivLength frame.aad.length = variant.family.decrypt keyed frame := by
  rw [decrypt_of_keyed bound accepted,
    Frame.split_eq_ok_iff.mpr ⟨stated, rfl, rfl, iv, tag⟩]
  rfl

/-- A decryption that succeeds has a key, and opens the parts of its message. -/
theorem decrypt_eq_ok {variant : Variant} {message plaintext : Bytes} {ivLength aadLength : Nat}
    (opened : variant.decrypt message ivLength aadLength = .ok plaintext) :
    ∃ keyed frame, variant.keyed = some keyed ∧
      Frame.split message aadLength variant.family.nonceLength variant.family.tagLength =
        .ok frame ∧
      variant.family.decrypt keyed frame = .ok plaintext := by
  unfold decrypt at opened
  split at opened
  · contradiction
  · contradiction
  · rename_i keyed _ bound
    split at opened
    · contradiction
    · rename_i frame parts
      exact ⟨keyed, frame, bound, parts, opened⟩

end Variant

end AesTrials
