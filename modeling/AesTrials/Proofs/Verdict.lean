import AesTrials.Proofs.Layers
import AesTrials.Proofs.Leniency

/-!
# What decrypting comes to

Whatever it is given, a decryption ends in one of a few ways, and which one is settled in one order
for all families: by the vector length, the key, the length of the message, its tag, and last by its
padding. Behind a tag that verifies nothing but padding can fail, and where there is no tag the
additional data makes no difference.
-/

namespace AesTrials

namespace Padding

variable {blockSize : Nat} {padded data : Bytes}

/-- Strict unpadding takes off bytes each of which is their number. -/
theorem unpadStrict_eq_ok_iff :
    unpadStrict blockSize padded = .ok data ↔
      ∃ padding, padded = data ++ padding ∧ padding.length ≤ blockSize ∧
        padding ≠ [] ∧ ∀ byte ∈ padding, byte.toNat = padding.length := by
  constructor
  · intro taken
    obtain ⟨last, positive, small, _, parts, _⟩ := unpadStrict_eq_ok taken
    refine ⟨List.replicate last.toNat last, parts, by rwa [List.length_replicate], ?_, ?_⟩
    · rw [← List.length_pos_iff, List.length_replicate]
      exact positive
    · intro byte member
      rw [List.eq_of_mem_replicate member, List.length_replicate]
  · rintro ⟨padding, rfl, small, filled, counted⟩
    obtain ⟨last, ends⟩ := Option.ne_none_iff_exists'.mp (mt List.getLast?_eq_none_iff.mp filled)
    have count := counted last (List.mem_of_getLast? ends)
    have positive := List.length_pos_iff.mpr filled
    have endsBoth : (data ++ padding).getLast? = some last := by
      rw [List.getLast?_append, ends, Option.some_or]
    have kept : (data ++ padding).length - last.toNat = data.length := by
      rw [List.length_append, count, Nat.add_sub_cancel]
    have copies : padding.all (fun byte => byte == last) = true := by
      rw [List.all_eq_true]
      intro byte member
      rw [beq_iff_eq, ← UInt8.toNat_inj, counted byte member, count]
    rw [unpadStrict_of_fits endsBoth (by omega) (by omega) (by rw [List.length_append]; omega),
      kept, List.drop_left, List.take_left, if_pos copies]

/-- Lenient unpadding takes off bytes the last of which is their number. -/
theorem unpad_eq_ok_iff_exists :
    unpad blockSize padded = .ok data ↔
      ∃ padding, padded = data ++ padding ∧ padding.length ≤ blockSize ∧
        ∃ last, padding.getLast? = some last ∧ last.toNat = padding.length := by
  rw [unpad_eq_ok_iff]
  constructor
  · rintro ⟨last, ends, positive, small, fits, rfl⟩
    have count : (padded.drop (padded.length - last.toNat)).length = last.toNat := by
      rw [List.length_drop]
      omega
    refine ⟨_, (List.take_append_drop _ _).symm, by rwa [count], last, ?_, count.symm⟩
    rw [List.getLast?_drop, if_neg (by omega), ends]
  · rintro ⟨padding, rfl, small, last, ends, count⟩
    have positive : 0 < padding.length := List.length_pos_of_mem (List.mem_of_getLast? ends)
    refine ⟨last, ?_, by omega, by omega, ?_, ?_⟩
    · rw [List.getLast?_append, ends, Option.some_or]
    · rw [List.length_append]
      omega
    · rw [List.length_append, count, Nat.add_sub_cancel, List.take_left]

end Padding

namespace Cbc

open Aes

variable {cipher : Cipher} {iv body plaintext : Bytes} {error : CipherError}

/-- The whole blocks of a body deciphered, with any padding still behind them. -/
def decipher (cipher : Cipher) (iv body : Bytes) : Bytes :=
  Block.join (unchain cipher (Block.ofBytes iv) (Block.split body).1)

/-- Whole blocks open to what they decipher to. -/
theorem openBlocks_of_dvd (whole : blockLength ∣ body.length) :
    openBlocks cipher iv body = .ok (decipher cipher iv body) := by
  obtain ⟨blocks, rfl⟩ := Block.exists_join whole
  rw [openBlocks_join, decipher, Block.split_join]

/-- The strict reader opens whole blocks that end in strict padding. -/
theorem openStrict_eq_ok_iff :
    openStrict cipher iv body = .ok plaintext ↔
      blockLength ∣ body.length ∧
        Padding.unpadStrict blockLength (decipher cipher iv body) = .ok plaintext := by
  by_cases whole : blockLength ∣ body.length
  · simp only [openStrict, openBlocks_of_dvd whole, whole, true_and]
  · simp only [openStrict, openBlocks_eq_error whole, whole, false_and, reduceCtorEq]

/-- The lenient reader opens whole blocks that end in lenient padding. -/
theorem openLenient_eq_ok_iff :
    openLenient cipher iv body = .ok plaintext ↔
      blockLength ∣ body.length ∧
        Padding.unpad blockLength (decipher cipher iv body) = .ok plaintext := by
  by_cases whole : blockLength ∣ body.length
  · simp only [openLenient, openBlocks_of_dvd whole, whole, true_and]
  · simp only [openLenient, openBlocks_eq_error whole, whole, false_and, reduceCtorEq]

/-- Both readers refuse a body over its framing only. -/
theorem open_eq_error
    (refused : openStrict cipher iv body = .error error ∨
      openLenient cipher iv body = .error error) : ∃ fault, error = .corruptFraming fault := by
  obtain ⟨_, strict, lenient⟩ | ⟨_, _, strict, lenient, _⟩ | ⟨_, strict, lenient⟩ :=
    open_trichotomy cipher iv body <;>
  rw [strict, lenient] at refused <;>
  rcases refused with same | same <;> cases same <;> exact ⟨_, rfl⟩

end Cbc

namespace Family

/-- Whether the messages of the family carry a tag. -/
def authenticates (family : Family) : Bool :=
  match family with
  | .cbc | .cbcRaw => false
  | .cbcHmac | .gcm | .gcmWide | .gcmSiv => true

/-- The body of a message deciphered, with any padding still behind it. -/
def deciphered (family : Family) (keyed : Keyed) (frame : Frame) : Bytes :=
  match family with
  | .cbc | .cbcHmac | .cbcRaw => Cbc.decipher keyed.cipher frame.iv frame.body
  | .gcm | .gcmWide => Gcm.crypt keyed.cipher frame.iv frame.body
  | .gcmSiv => GcmSiv.crypt keyed.cipher frame.iv frame.tag frame.body

/-- The tag that belongs to the other parts of a message. With a synthetic vector it is the tag of
what the body is deciphered to, which hangs on the tag that is given. -/
def tagOf (family : Family) (keyed : Keyed) (frame : Frame) : Bytes :=
  match family with
  | .cbc | .cbcRaw => []
  | .cbcHmac => Hmac.tag keyed.macKey (frame.aad ++ frame.iv ++ frame.body)
  | .gcm | .gcmWide => Gcm.tag keyed.cipher frame.iv frame.aad frame.body
  | .gcmSiv =>
    GcmSiv.tag keyed.cipher frame.iv frame.aad (deciphered .gcmSiv keyed frame)

/-- Whether the tag of a message verifies: it belongs to the other parts, and a construction that
encrypts and authenticates in one takes no longer ones. -/
def Verifies (family : Family) (keyed : Keyed) (frame : Frame) : Prop :=
  frame.tag = family.tagOf keyed frame ∧
    (family.isAead = true →
      frame.body.length ≤ Gcm.sizeBound + Gcm.tagLength ∧ frame.aad.length ≤ Gcm.sizeBound)

/-- Whether the family takes bytes off as padding: at least one and at most a block of them, of
which the last one is their number, or every one where padding is read strictly. -/
def TakesPadding (family : Family) (padding : Bytes) : Prop :=
  padding.length ≤ Aes.blockLength ∧
    match family with
    | .cbcRaw => ∃ last, padding.getLast? = some last ∧ last.toNat = padding.length
    | _ => padding ≠ [] ∧ ∀ byte ∈ padding, byte.toNat = padding.length

/-- Whether deciphered bytes are a plaintext and padding that the family takes off. -/
def Unpads (family : Family) (deciphered plaintext : Bytes) : Prop :=
  ∃ padding, deciphered = plaintext ++ padding ∧ family.TakesPadding padding

/-- How opening the parts of a message ends. -/
structure Outcome (family : Family) (keyed : Keyed) (frame : Frame)
    (answer : Except CipherError Bytes) : Prop where
  /-- It is refused over its tag exactly if that does not verify. -/
  tag : answer = .error .authenticationFailure ↔ ¬ family.Verifies keyed frame
  /-- Where encryption and tag are one construction, a tag that verifies is all it takes. -/
  aead : family.Verifies keyed frame → family.isAead = true →
    answer = .ok (family.deciphered keyed frame)
  /-- Where blocks are chained, a body behind a tag that verifies can be empty, end inside a block
  or lack its padding, and is then refused over its framing. -/
  malformed : family.Verifies keyed frame → family.isAead = false →
    ((∃ fault, answer = .error (.corruptFraming fault)) ↔
      frame.body = [] ∨ ¬ Aes.blockLength ∣ frame.body.length ∨
        ∀ plaintext, ¬ family.Unpads (family.deciphered keyed frame) plaintext)
  /-- Every other body there gives what is in front of its padding. -/
  padded : family.Verifies keyed frame → family.isAead = false → ∀ plaintext,
    answer = .ok plaintext ↔ frame.body ≠ [] ∧ Aes.blockLength ∣ frame.body.length ∧
      family.Unpads (family.deciphered keyed frame) plaintext

section Opening

variable {family : Family} {keyed : Keyed} {frame : Frame}

/-- Where there are no tags none fails to verify. -/
theorem verifies_of_plain (plain : family.authenticates = false)
    (tagged : frame.tag.length = family.tagLength) : family.Verifies keyed frame := by
  cases family with
  | cbc | cbcRaw =>
    have untagged : frame.tag = [] := List.eq_nil_of_length_eq_zero tagged
    exact ⟨untagged, fun aead => absurd aead Bool.false_ne_true⟩
  | cbcHmac | gcm | gcmWide | gcmSiv => contradiction

/-- A message whose tag does not verify is refused over it, whatever its body. -/
theorem decrypt_of_not_verifies (tagged : frame.tag.length = family.tagLength)
    (forged : ¬ family.Verifies keyed frame) :
    family.decrypt keyed frame = .error .authenticationFailure := by
  cases family with
  | cbc | cbcRaw => exact absurd (verifies_of_plain rfl tagged) forged
  | cbcHmac =>
    rw [decrypt, if_neg]
    intro same
    exact forged ⟨(eq_of_beq same).symm, fun aead => absurd aead Bool.false_ne_true⟩
  | gcm | gcmWide =>
    rw [decrypt, Gcm.decrypt]
    split
    · rfl
    · rw [if_neg]
      intro same
      exact forged ⟨(eq_of_beq same).symm, fun _ => by omega⟩
  | gcmSiv =>
    simp only [decrypt, GcmSiv.decrypt]
    split
    · rfl
    · rw [if_neg]
      intro same
      exact forged ⟨(eq_of_beq same).symm, fun _ => by omega⟩

/-- What is opened has a tag that verifies. -/
theorem verifies_of_decrypt (tagged : frame.tag.length = family.tagLength) {plaintext : Bytes}
    (opened : family.decrypt keyed frame = .ok plaintext) : family.Verifies keyed frame := by
  apply Classical.byContradiction
  intro forged
  rw [decrypt_of_not_verifies tagged forged] at opened
  contradiction

/-- A construction that encrypts and authenticates in one opens every message whose tag
verifies. -/
theorem decrypt_of_verifies (aead : family.isAead = true)
    (verified : family.Verifies keyed frame) :
    family.decrypt keyed frame = .ok (family.deciphered keyed frame) := by
  obtain ⟨same, bounds⟩ := verified
  have inside := bounds aead
  cases family with
  | cbc | cbcRaw | cbcHmac => contradiction
  | gcm | gcmWide =>
    have belongs : Gcm.tag keyed.cipher frame.iv frame.aad frame.body = frame.tag := same.symm
    rw [decrypt, Gcm.decrypt, if_neg (by omega), if_pos (beq_iff_eq.mpr belongs)]
    rfl
  | gcmSiv =>
    have belongs : GcmSiv.tag keyed.cipher frame.iv frame.aad
        (GcmSiv.crypt keyed.cipher frame.iv frame.tag frame.body) = frame.tag := same.symm
    simp only [decrypt, GcmSiv.decrypt]
    rw [if_neg (by omega), if_pos (beq_iff_eq.mpr belongs)]
    rfl

/-- A family that chains blocks reads a message whose tag verifies with one of the two readers. -/
theorem decrypt_of_chaining (chaining : family.isAead = false)
    (verified : family.Verifies keyed frame) :
    family.decrypt keyed frame =
      if family = .cbcRaw then Cbc.openLenient keyed.cipher frame.iv frame.body
      else Cbc.openStrict keyed.cipher frame.iv frame.body := by
  cases family with
  | cbc | cbcRaw => rfl
  | cbcHmac =>
    have belongs : Hmac.tag keyed.macKey (frame.aad ++ frame.iv ++ frame.body) = frame.tag :=
      verified.1.symm
    rw [decrypt, if_pos (beq_iff_eq.mpr belongs)]
    rfl
  | gcm | gcmWide | gcmSiv => contradiction

/-- A family that chains blocks opens whole blocks that decipher to a plaintext and its padding. -/
theorem decrypt_eq_ok_iff (chaining : family.isAead = false)
    (verified : family.Verifies keyed frame) (plaintext : Bytes) :
    family.decrypt keyed frame = .ok plaintext ↔
      Aes.blockLength ∣ frame.body.length ∧
        family.Unpads (family.deciphered keyed frame) plaintext := by
  rw [decrypt_of_chaining chaining verified]
  cases family with
  | cbc | cbcHmac =>
    exact Cbc.openStrict_eq_ok_iff.trans (and_congr_right fun _ => Padding.unpadStrict_eq_ok_iff)
  | cbcRaw =>
    exact Cbc.openLenient_eq_ok_iff.trans
      (and_congr_right fun _ => Padding.unpad_eq_ok_iff_exists)
  | gcm | gcmWide | gcmSiv => contradiction

/-- A family that chains blocks refuses a message whose tag verifies over its framing only. -/
theorem decrypt_eq_error (chaining : family.isAead = false)
    (verified : family.Verifies keyed frame) {error : CipherError}
    (refused : family.decrypt keyed frame = .error error) :
    ∃ fault, error = .corruptFraming fault := by
  rw [decrypt_of_chaining chaining verified] at refused
  split at refused
  · exact Cbc.open_eq_error (.inr refused)
  · exact Cbc.open_eq_error (.inl refused)

/-- Padding is never empty. -/
theorem TakesPadding.ne_nil {padding : Bytes} (taken : family.TakesPadding padding) :
    padding ≠ [] := by
  rintro rfl
  cases family with
  | cbcRaw =>
    obtain ⟨last, ends, _⟩ := taken.2
    contradiction
  | cbc | cbcHmac | gcm | gcmWide | gcmSiv => exact taken.2.1 rfl

/-- An empty body lacks its padding. -/
theorem not_unpads_of_empty (chaining : family.isAead = false) (empty : frame.body = [])
    (plaintext : Bytes) : ¬ family.Unpads (family.deciphered keyed frame) plaintext := by
  rintro ⟨padding, parts, taken⟩
  have nothing : family.deciphered keyed frame = [] := by
    cases family with
    | cbc | cbcHmac | cbcRaw =>
      simp only [deciphered, empty]
      rfl
    | gcm | gcmWide | gcmSiv => contradiction
  rw [nothing] at parts
  exact taken.ne_nil (List.append_eq_nil_iff.mp parts.symm).2

/-- Opening the parts of a message ends as its tag and its body say. -/
theorem outcome_decrypt (tagged : frame.tag.length = family.tagLength) :
    family.Outcome keyed frame (family.decrypt keyed frame) where
  tag := by
    refine ⟨?_, decrypt_of_not_verifies tagged⟩
    intro refused verified
    cases aead : family.isAead with
    | true =>
      rw [decrypt_of_verifies aead verified] at refused
      contradiction
    | false =>
      obtain ⟨fault, same⟩ := decrypt_eq_error aead verified refused
      contradiction
  aead verified aead := decrypt_of_verifies aead verified
  malformed verified chaining := by
    have opens := decrypt_eq_ok_iff chaining verified
    cases answered : family.decrypt keyed frame with
    | error error =>
      obtain ⟨fault, rfl⟩ := decrypt_eq_error chaining verified answered
      refine ⟨fun _ => .inr ?_, fun _ => ⟨fault, rfl⟩⟩
      by_cases whole : Aes.blockLength ∣ frame.body.length
      · refine .inr fun plaintext unpads => ?_
        have opened := (opens plaintext).mpr ⟨whole, unpads⟩
        rw [answered] at opened
        contradiction
      · exact .inl whole
    | ok plaintext =>
      obtain ⟨whole, unpads⟩ := (opens plaintext).mp answered
      constructor
      · rintro ⟨fault, refused⟩
        contradiction
      · rintro (empty | uneven | unpadded)
        · exact absurd unpads (not_unpads_of_empty chaining empty plaintext)
        · exact absurd whole uneven
        · exact absurd unpads (unpadded plaintext)
  padded verified chaining plaintext := by
    rw [decrypt_eq_ok_iff chaining verified]
    refine ⟨fun opened => ⟨fun empty => ?_, opened⟩, fun opened => opened.2⟩
    exact not_unpads_of_empty chaining empty plaintext opened.2

end Opening

end Family

namespace Variant

variable {variant : Variant} {keyed : Keyed} {message : Bytes} {ivLength aadLength : Nat}

/-- A vector length that the family does not take is refused whatever else is given. -/
theorem decrypt_of_foreign_vectorLength
    (foreign : ¬ variant.family.AcceptsVectorLength ivLength) (message : Bytes) (aadLength : Nat) :
    ∃ fault, variant.decrypt message ivLength aadLength = .error (.invalidArgument fault) := by
  obtain ⟨fault, given⟩ := Option.ne_none_iff_exists'.mp
    (mt (Family.vectorLengthFault?_eq_none_iff _ _).mp foreign)
  exact ⟨fault, by simp only [decrypt, given]⟩

/-- Without a key nothing is decrypted. -/
theorem decrypt_of_unkeyed (told : variant.family.AcceptsVectorLength ivLength)
    (unkeyed : variant.keyed = none) (message : Bytes) (aadLength : Nat) :
    variant.decrypt message ivLength aadLength = .error .notInitialised := by
  simp only [decrypt, (Family.vectorLengthFault?_eq_none_iff _ _).mpr told, unkeyed]

/-- A message too short for its parts is refused over its framing, whatever the lengths of these add
up to. -/
theorem decrypt_of_short (has : variant.keyed = some keyed)
    (told : variant.family.AcceptsVectorLength ivLength)
    (short : message.length < aadLength + variant.family.nonceLength + variant.family.tagLength) :
    variant.decrypt message ivLength aadLength = .error (.corruptFraming
      (if sizeLimit ≤ aadLength + variant.family.nonceLength + variant.family.tagLength
        then .lengthsOverflow else .tooShort)) := by
  rw [decrypt_of_keyed has told, Frame.split_of_short short]
  rfl

/-- A message long enough for its parts is cut at their lengths, and its parts are opened. -/
theorem decrypt_of_long (has : variant.keyed = some keyed)
    (told : variant.family.AcceptsVectorLength ivLength) (stated : message.length < sizeLimit)
    (long : aadLength + variant.family.nonceLength + variant.family.tagLength ≤ message.length) :
    ∃ frame : Frame, frame.join = message ∧ frame.aad.length = aadLength ∧
      frame.iv.length = variant.family.nonceLength ∧
      frame.tag.length = variant.family.tagLength ∧
      variant.decrypt message ivLength aadLength = variant.family.decrypt keyed frame := by
  obtain ⟨frame, parts⟩ := Frame.exists_split (Nat.lt_of_le_of_lt long stated) long
  obtain ⟨_, joined, aad, iv, tag⟩ := Frame.split_eq_ok_iff.mp parts
  refine ⟨frame, joined, aad, iv, tag, ?_⟩
  rw [decrypt_of_keyed has told, parts]
  rfl

/-- What a decryption can be refused over, and when. -/
inductive Refusal (variant : Variant) (ivLength : Nat) : CipherError → Prop where
  /-- The vector length is none that the family takes. -/
  | vectorLength (foreign : ¬ variant.family.AcceptsVectorLength ivLength) (fault : ArgumentFault) :
    Refusal variant ivLength (.invalidArgument fault)
  /-- The vector length is, but there is no key. -/
  | key (told : variant.family.AcceptsVectorLength ivLength) (unkeyed : variant.keyed = none) :
    Refusal variant ivLength .notInitialised
  /-- The message does not have its parts. -/
  | framing (fault : FramingFault) : Refusal variant ivLength (.corruptFraming fault)
  /-- It has a tag, which is not its own. -/
  | tag (tagged : variant.family.authenticates = true) :
    Refusal variant ivLength .authenticationFailure

/-- A variant with a key refuses a message over its framing or its tag. -/
theorem refusal_of_keyed (has : variant.keyed = some keyed)
    (told : variant.family.AcceptsVectorLength ivLength) {error : CipherError}
    (refused : variant.decrypt message ivLength aadLength = .error error) :
    variant.Refusal ivLength error := by
  rw [decrypt_of_keyed has told] at refused
  cases parts : Frame.split message aadLength variant.family.nonceLength
      variant.family.tagLength with
  | error fault =>
    rw [parts] at refused
    cases refused
    obtain ⟨fault, rfl⟩ := Frame.error_of_split parts
    exact .framing fault
  | ok frame =>
    rw [parts] at refused
    change variant.family.decrypt keyed frame = .error error at refused
    have tagged := (Frame.lengths_of_split parts).2.2
    by_cases verified : variant.family.Verifies keyed frame
    · cases aead : variant.family.isAead with
      | true =>
        rw [Family.decrypt_of_verifies aead verified] at refused
        contradiction
      | false =>
        obtain ⟨fault, rfl⟩ := Family.decrypt_eq_error aead verified refused
        exact .framing fault
    · rw [Family.decrypt_of_not_verifies tagged verified] at refused
      cases refused
      have authentic : variant.family.authenticates = true := by
        apply Bool.of_not_eq_false
        exact fun plain => verified (Family.verifies_of_plain plain tagged)
      exact .tag authentic

/-- Every error of a decryption tells what it is for: the vector length, the key, or the message. -/
theorem refusal_of_decrypt {error : CipherError}
    (refused : variant.decrypt message ivLength aadLength = .error error) :
    variant.Refusal ivLength error := by
  by_cases told : variant.family.AcceptsVectorLength ivLength
  · cases has : variant.keyed with
    | none =>
      rw [decrypt_of_unkeyed told has] at refused
      cases refused
      exact .key told has
    | some keyed => exact refusal_of_keyed has told refused
  · obtain ⟨fault, given⟩ := decrypt_of_foreign_vectorLength told message aadLength
    rw [given] at refused
    cases refused
    exact .vectorLength told fault

/-- Lengths that the family takes for its vectors are one as good as the other. -/
theorem decrypt_of_vectorLengths {other : Nat}
    (told : variant.family.AcceptsVectorLength ivLength)
    (also : variant.family.AcceptsVectorLength other) (message : Bytes) (aadLength : Nat) :
    variant.decrypt message ivLength aadLength = variant.decrypt message other aadLength := by
  simp only [decrypt, (Family.vectorLengthFault?_eq_none_iff _ _).mpr told,
    (Family.vectorLengthFault?_eq_none_iff _ _).mpr also]

/-- Where there is no tag, a message with as many other bytes in front decrypts in the same way. -/
theorem decrypt_of_drop_eq (plain : variant.family.authenticates = false) {other : Bytes}
    (length : other.length = message.length)
    (behind : other.drop aadLength = message.drop aadLength) (ivLength : Nat) :
    variant.decrypt other ivLength aadLength = variant.decrypt message ivLength aadLength := by
  have blind (keyed : Keyed) (frame : Frame) (aad : Bytes) :
      variant.family.decrypt keyed { frame with aad } = variant.family.decrypt keyed frame := by
    cases family : variant.family with
    | cbc | cbcRaw => rfl
    | cbcHmac | gcm | gcmWide | gcmSiv =>
      rw [family] at plain
      contradiction
  simp only [decrypt, Frame.split_of_drop_eq length behind]
  cases Frame.split message aadLength variant.family.nonceLength variant.family.tagLength with
  | error error => rfl
  | ok frame => simp only [Except.map, blind]

/-- How decrypting ends, whatever the state of the variant and whatever it is given. A vector length
that the family does not take is refused, with a key or without; then a missing key; then a message
too short for its parts. Every other message is cut at the lengths of its parts, and its tag and its
body decide. No key length is ever at fault, without tags no tag is and the additional data makes no
difference, and a family that draws its vectors takes zero for their length. -/
theorem decrypt_verdict (variant : Variant) {message : Bytes} (stated : message.length < sizeLimit)
    (ivLength aadLength : Nat) :
    let family := variant.family
    let outer := aadLength + family.nonceLength + family.tagLength
    let answer := variant.decrypt message ivLength aadLength
    ((∃ fault, answer = .error (.invalidArgument fault)) ↔
        ¬ family.AcceptsVectorLength ivLength) ∧
      (answer = .error .notInitialised ↔
        family.AcceptsVectorLength ivLength ∧ variant.keyed = none) ∧
      (∀ keyed, variant.keyed = some keyed → family.AcceptsVectorLength ivLength →
        (message.length < outer → ∃ fault, answer = .error (.corruptFraming fault)) ∧
        (outer ≤ message.length → ∃ frame : Frame, frame.join = message ∧
          frame.aad.length = aadLength ∧ frame.iv.length = family.nonceLength ∧
          frame.tag.length = family.tagLength ∧ family.Outcome keyed frame answer)) ∧
      (∀ length, answer ≠ .error (.invalidKeyLength length)) ∧
      (family.authenticates = false → answer ≠ .error .authenticationFailure ∧
        ∀ other : Bytes, other.length = message.length →
          other.drop aadLength = message.drop aadLength →
            variant.decrypt other ivLength aadLength = answer) ∧
      (family.nonceSource = .internal →
        variant.decrypt message 0 aadLength =
          variant.decrypt message family.nonceLength aadLength) ∧
      (family = .cbcHmac → variant.layers.decrypt message ivLength aadLength = answer) := by
  intro family outer answer
  refine ⟨⟨?_, ?_⟩, ⟨?_, ?_⟩, ?_, ?_, ?_, ?_, ?_⟩
  · rintro ⟨fault, refused⟩
    cases refusal_of_decrypt refused with
    | vectorLength foreign => exact foreign
  · exact fun foreign => decrypt_of_foreign_vectorLength foreign message aadLength
  · intro refused
    cases refusal_of_decrypt refused with
    | key told unkeyed => exact ⟨told, unkeyed⟩
  · rintro ⟨told, unkeyed⟩
    exact decrypt_of_unkeyed told unkeyed message aadLength
  · intro keyed has told
    constructor
    · exact fun short => ⟨_, decrypt_of_short has told short⟩
    · intro long
      obtain ⟨frame, joined, aad, iv, tag, opened⟩ := decrypt_of_long has told stated long
      have ends : family.Outcome keyed frame (variant.family.decrypt keyed frame) :=
        Family.outcome_decrypt tag
      rw [← opened] at ends
      exact ⟨frame, joined, aad, iv, tag, ends⟩
  · intro length refused
    cases refusal_of_decrypt refused
  · intro plain
    refine ⟨?_, fun other length behind => decrypt_of_drop_eq plain length behind ivLength⟩
    intro refused
    cases refusal_of_decrypt refused with
    | tag tagged => exact Bool.false_ne_true (plain.symm.trans tagged)
  · exact fun internal => decrypt_of_vectorLengths (.inr ⟨internal, rfl⟩) (.inl rfl) _ _
  · exact fun hmac => decrypt_layers hmac message ivLength aadLength

/-- A body of one byte behind a vector, the same bytes with more additional data declared than there
are bytes, and a vector length of zero where vectors are supplied. -/
theorem decrypt_verdict_raw :
    let keyed : Keyed := ⟨Aes.Cipher.ofKey .w128 (List.replicate 16 0), []⟩
    let variant : Variant := ⟨.cbcRaw, none, some keyed⟩
    let message : Bytes := List.replicate 17 0
    message.length < sizeLimit ∧
      (∃ fault, variant.decrypt message 16 0 = .error (.corruptFraming fault)) ∧
      (∃ fault, variant.decrypt message 16 (sizeLimit - 1) = .error (.corruptFraming fault)) ∧
      ∃ fault, variant.decrypt message 0 0 = .error (.invalidArgument fault) := by
  intro keyed variant message
  have stated : message.length < sizeLimit := by decide
  have verdict (ivLength aadLength : Nat) := decrypt_verdict variant stated ivLength aadLength
  refine ⟨stated, ?_, ?_, ?_⟩
  · obtain ⟨frame, joined, aad, iv, tag, ends⟩ :=
      ((verdict 16 0).2.2.1 keyed rfl (.inl rfl)).2 (by decide)
    have size : frame.join.length = 17 := by rw [joined]; rfl
    have sixteen : frame.iv.length = 16 := iv
    have untagged : frame.tag.length = 0 := tag
    have one : frame.body.length = 1 := by
      rw [Frame.length_join] at size
      omega
    refine (ends.malformed (Family.verifies_of_plain rfl tag) rfl).mpr (.inr (.inl ?_))
    rw [one]
    decide
  · exact ((verdict 16 (sizeLimit - 1)).2.2.1 keyed rfl (.inl rfl)).1 (by decide)
  · refine (verdict 0 0).1.mpr ?_
    rintro (same | ⟨same, _⟩) <;> contradiction

end Variant

end AesTrials
