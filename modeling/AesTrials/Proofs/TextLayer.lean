import AesTrials.Proofs.InputLines
import AesTrials.Proofs.Nonces
import AesTrials.Proofs.Verdict

/-!
# Texts there and back

A variant that draws its vectors gives back every text that it was given, if the additional data is
counted in bytes of UTF-8. And it reads only what it would itself write: a text that decrypts is the
Base64 of the one message that its plaintext, its additional data and its vector make.
-/

namespace AesTrials

namespace Entropy

/-- Bytes that are repeated for ever are drawn first. -/
theorem draw_cycle (bytes : Bytes) : ((cycle bytes).draw bytes.length).1 = bytes := by
  refine List.ext_getElem (length_draw _ _) fun i _ inside => ?_
  simp [draw, cycle, Nat.mod_eq_of_lt inside, inside]

end Entropy

/-- A construction that encrypts and authenticates in one opens a body to as many bytes. -/
theorem Family.length_of_decrypt {family : Family} (aead : family.isAead = true) {keyed : Keyed}
    {frame : Frame} (tagged : frame.tag.length = family.tagLength) {plaintext : Bytes}
    (opened : family.decrypt keyed frame = .ok plaintext) :
    plaintext.length = frame.body.length := by
  rw [decrypt_of_verifies aead (verifies_of_decrypt tagged opened)] at opened
  cases opened
  cases family with
  | cbc | cbcHmac | cbcRaw => contradiction
  | gcm | gcmWide => exact Gcm.length_crypt _ _ _
  | gcmSiv => exact GcmSiv.length_crypt _ _ _ _

namespace Variant

variable {variant : Variant}

/-- What decrypts is made again by a variant of the same family and key, under the vector that the
message carries. -/
theorem encrypt_of_decrypt {again : Variant} (internal : variant.family.nonceSource = .internal)
    (family : again.family = variant.family) (keyed : again.keyed = variant.keyed)
    {message plaintext : Bytes} {ivLength aadLength : Nat}
    (opened : variant.decrypt message ivLength aadLength = .ok plaintext)
    (bounded : variant.family.isAead = true → plaintext.length ≤ Gcm.sizeBound)
    {entropy : Entropy} (carried : (again.nextVector none entropy).1 =
      variant.family.vectorOf aadLength message) :
    (again.encrypt entropy plaintext none (some (message.take aadLength))).1 = .ok message := by
  obtain ⟨expanded, frame, has, parts, recovered⟩ := decrypt_eq_ok opened
  obtain ⟨_, joined, _, _, tagged⟩ := Frame.split_eq_ok_iff.mp parts
  have accepted : again.family.AcceptsVector none := by
    simp only [Family.AcceptsVector, family, internal]
  have small : variant.family.isAead = true → frame.body.length ≤ Gcm.sizeBound := by
    intro aead
    rw [← Family.length_of_decrypt aead tagged recovered]
    exact bounded aead
  have sealed := Family.encrypt_of_decrypt internal tagged small recovered
  rw [encrypt_of_keyed (keyed.trans has) accepted, carried, Option.getD_some,
    Frame.take_of_split parts, Family.vectorOf, Frame.take_drop_of_split parts, family, sealed]
  exact congrArg Except.ok joined

/-- A text is encrypted to the Base64 of a message. -/
theorem encryptText_eq_map (entropy : Entropy) (plaintext : String) (aad : Option String) :
    (variant.encryptText entropy plaintext aad).1 =
      (variant.encrypt entropy (Bytes.ofText plaintext) none (aad.map Bytes.ofText)).1.map
        fun message => String.ofList (Base64.encode message) := by
  unfold encryptText
  split <;> rename_i answered <;> rw [answered] <;> rfl

/-- The texts that decrypt are the Base64 of the messages that decrypt to UTF-8. -/
theorem decryptText_eq_ok_iff {text plaintext : String} {aadLength : Nat} :
    variant.decryptText text aadLength = .ok plaintext ↔
      ∃ message, Base64.decode? text.toList = some message ∧
        variant.decrypt message 0 aadLength = .ok (Bytes.ofText plaintext) := by
  constructor
  · intro read
    unfold decryptText at read
    split at read
    · contradiction
    · rename_i message decoded
      split at read
      · contradiction
      · rename_i bytes opened
        split at read
        · contradiction
        · rename_i found understood
          cases read
          rw [Bytes.ofText_of_toText? understood]
          exact ⟨message, decoded, opened⟩
  · rintro ⟨message, decoded, opened⟩
    simp only [decryptText, decoded, opened, Bytes.toText?_ofText]

/-- In every state with a key a variant that draws its vectors gives back the texts that it
encrypts. -/
theorem decryptText_of_encryptText (reachable : variant.Reachable) (keyed : variant.keyed ≠ none)
    (internal : variant.family.nonceSource = .internal) {plaintext : String}
    {aad : Option String}
    (admitted : variant.family.AdmitsLengths (Bytes.ofText plaintext).length
      ((aad.map Bytes.ofText).getD []).length)
    (stated : ((aad.map Bytes.ofText).getD []).length + variant.family.nonceLength +
      variant.family.tagLength < sizeLimit) (entropy : Entropy) :
    ∃ text, (variant.encryptText entropy plaintext aad).1 = .ok text ∧
      variant.decryptText text ((aad.map Bytes.ofText).getD []).length = .ok plaintext := by
  obtain ⟨expanded, has⟩ := Option.ne_none_iff_exists'.mp keyed
  have accepted : variant.family.AcceptsVector none := by
    simp only [Family.AcceptsVector, internal]
  obtain ⟨frame, made, beside, iv, sealed⟩ :=
    encrypt_eq_join has reachable.nonceFits accepted admitted entropy
  refine ⟨String.ofList (Base64.encode frame.join), ?_, ?_⟩
  · rw [encryptText_eq_map, made]
    rfl
  · rw [← beside] at stated ⊢
    refine decryptText_eq_ok_iff.mpr ⟨frame.join, ?_, ?_⟩
    · rw [String.toList_ofList, Base64.decode?_encode]
    · rw [decrypt_join has (.inr ⟨internal, rfl⟩) iv (Family.length_tag_of_encrypt sealed) stated]
      exact Family.decrypt_of_encrypt sealed

/-- With a key and vectors of its own a variant gives back every text that its family takes,
whatever vector it draws; the lengths of the outer parts of a message have to add up to a size that
can be stated, as those of all texts in memory do. A text that it decrypts is the Base64 of a
message, and is made again, by the same family under the same key, of the plaintext, the additional
data and the vector that this carries, which can be drawn. No other text stands for that
message. -/
theorem texts_canonical (reachable : variant.Reachable) (keyed : variant.keyed ≠ none)
    (internal : variant.family.nonceSource = .internal) :
    (∀ entropy plaintext (aad : Option String),
      variant.family.AdmitsLengths (Bytes.ofText plaintext).length
          ((aad.map Bytes.ofText).getD []).length →
        ((aad.map Bytes.ofText).getD []).length + variant.family.nonceLength +
            variant.family.tagLength < sizeLimit →
          ∃ text, (variant.encryptText entropy plaintext aad).1 = .ok text ∧
            variant.decryptText text ((aad.map Bytes.ofText).getD []).length = .ok plaintext) ∧
      (∀ text aadLength plaintext, variant.decryptText text aadLength = .ok plaintext →
        ∃ message, Base64.decode? text.toList = some message ∧
          (∃ entropy, (nextVector ⟨variant.family, none, variant.keyed⟩ none entropy).1 =
            variant.family.vectorOf aadLength message) ∧
          ((variant.family.isAead = true → (Bytes.ofText plaintext).length ≤ Gcm.sizeBound) →
            ∀ (again : Variant) entropy, again.family = variant.family →
              again.keyed = variant.keyed → (again.nextVector none entropy).1 =
                variant.family.vectorOf aadLength message →
              (again.encrypt entropy (Bytes.ofText plaintext) none
                  (some (message.take aadLength))).1.map
                (fun message => String.ofList (Base64.encode message)) = .ok text)) ∧
      ∀ (text other : String) (message : Bytes), Base64.decode? text.toList = some message →
        Base64.decode? other.toList = some message → text = other := by
  refine ⟨?_, ?_, ?_⟩
  · intro entropy plaintext aad admitted stated
    exact decryptText_of_encryptText reachable keyed internal admitted stated entropy
  · intro text aadLength plaintext read
    obtain ⟨message, decoded, opened⟩ := decryptText_eq_ok_iff.mp read
    obtain ⟨expanded, frame, _, parts, _⟩ := decrypt_eq_ok opened
    refine ⟨message, decoded, ⟨.cycle (variant.family.vectorOf aadLength message), ?_⟩, ?_⟩
    · have length : (variant.family.vectorOf aadLength message).length =
          variant.family.nonceLength := by
        rw [Family.vectorOf, Frame.take_drop_of_split parts]
        exact (Frame.lengths_of_split parts).2.1
      have first := Entropy.draw_cycle (variant.family.vectorOf aadLength message)
      rw [length] at first
      exact first
    · intro bounded again entropy family same carried
      rw [encrypt_of_decrypt internal family same opened bounded carried, Except.map,
        Base64.encode_of_decode? decoded, String.ofList_toList]
  · intro text other message decoded also
    rw [Base64.decode?_eq_some_iff] at decoded also
    exact String.toList_inj.mp (decoded.trans also.symm)

/-- A letter of two bytes with additional data of two, and the one text that stands for its
message. -/
theorem texts_canonical_letter :
    let variant := ((new .gcm).bind (List.replicate 16 0)).2
    ∃ text message, (variant.encryptText (.cycle []) "é" (some "ü")).1 = .ok text ∧
      variant.decryptText text 2 = .ok "é" ∧ Base64.decode? text.toList = some message ∧
      ∀ other : String, Base64.decode? other.toList = some message → other = text := by
  intro variant
  have reachable : variant.Reachable :=
    ⟨.new .gcm, .cycle [], [.bind (List.replicate 16 0)], .drawing .gcm, rfl⟩
  obtain ⟨there, back, one⟩ := texts_canonical reachable (Option.some_ne_none _) rfl
  obtain ⟨text, made, read⟩ := there (.cycle []) "é" (some "ü") (fun _ => by decide) (by decide)
  obtain ⟨message, decoded, _⟩ := back text 2 "é" read
  exact ⟨text, message, made, read, decoded, fun other also => one other text message also decoded⟩

end Variant

end AesTrials
