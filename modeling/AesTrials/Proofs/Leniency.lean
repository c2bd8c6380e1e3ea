import AesTrials.Proofs.Sealing

/-!
# Strict and lenient readers

Two families chain blocks in the same way and differ in who supplies the vector and in how they take
padding off. Under one key and one vector they make the same messages. What the strict reader opens
the lenient one opens to the same plaintext; the lenient one opens more only where padding counts
itself rightly but is ragged, and whatever neither opens both refuse over its framing.
-/

namespace AesTrials

namespace Padding

variable {blockSize : Nat} {padded data : Bytes}

/-- Whether data ends in a byte that counts a padding of at most a block, but not all bytes of that
padding are copies of it. -/
def Ragged (blockSize : Nat) (padded : Bytes) : Prop :=
  ∃ last : UInt8, padded.getLast? = some last ∧ 1 ≤ last.toNat ∧ last.toNat ≤ blockSize ∧
    last.toNat ≤ padded.length ∧ ∃ byte ∈ padded.drop (padded.length - last.toNat), byte ≠ last

/-- What lenient unpadding checks: the last byte counts bytes that fit the block and the data. -/
theorem unpad_eq_ok_iff :
    unpad blockSize padded = .ok data ↔
      ∃ last : UInt8, padded.getLast? = some last ∧ 1 ≤ last.toNat ∧ last.toNat ≤ blockSize ∧
        last.toNat ≤ padded.length ∧ data = padded.take (padded.length - last.toNat) := by
  unfold unpad
  cases padded.getLast? with
  | none => simp
  | some last =>
    simp only [Option.some.injEq, exists_eq_left']
    split
    · simp only [reduceCtorEq, false_iff]
      omega
    · split
      · simp only [reduceCtorEq, false_iff]
        omega
      · split
        · simp only [reduceCtorEq, false_iff]
          omega
        · rw [Except.ok.injEq, eq_comm]
          constructor
          · intro taken
            exact ⟨by omega, by omega, by omega, taken⟩
          · intro checked
            exact checked.2.2.2

/-- Lenient unpadding refuses data over its framing only. -/
theorem unpad_eq_error {error : CipherError} (h : unpad blockSize padded = .error error) :
    ∃ fault, error = .corruptFraming fault := by
  unfold unpad at h
  split at h
  · cases h
    exact ⟨_, rfl⟩
  · simp only at h
    split at h
    · cases h
      exact ⟨_, rfl⟩
    · split at h
      · cases h
        exact ⟨_, rfl⟩
      · split at h
        · cases h
          exact ⟨_, rfl⟩
        · contradiction

/-- Data whose last byte counts fitting bytes is unpadded strictly exactly if all of them are copies
of that byte. -/
theorem unpadStrict_of_fits {last : UInt8} (ends : padded.getLast? = some last)
    (positive : 1 ≤ last.toNat) (small : last.toNat ≤ blockSize)
    (fits : last.toNat ≤ padded.length) :
    unpadStrict blockSize padded =
      if (padded.drop (padded.length - last.toNat)).all (fun byte => byte == last) then
        .ok (padded.take (padded.length - last.toNat))
      else .error (.corruptFraming .notPaddedBlocks) := by
  simp only [unpadStrict, ends]
  rw [if_neg (by omega)]

/-- Whatever strict unpadding refuses it refuses alike. -/
theorem unpadStrict_eq_error {error : CipherError}
    (h : unpadStrict blockSize padded = .error error) :
    error = .corruptFraming .notPaddedBlocks := by
  unfold unpadStrict at h
  split at h
  · cases h
    rfl
  · simp only at h
    split at h
    · cases h
      rfl
    · split at h
      · contradiction
      · cases h
        rfl

/-- Both readers of padding take the same data off, or only the lenient one takes data off and the
padding is ragged, or both refuse. -/
theorem unpad_trichotomy (blockSize : Nat) (padded : Bytes) :
    (∃ data, unpadStrict blockSize padded = .ok data ∧ unpad blockSize padded = .ok data) ∨
      (∃ data, unpadStrict blockSize padded = .error (.corruptFraming .notPaddedBlocks) ∧
        unpad blockSize padded = .ok data ∧ Ragged blockSize padded) ∨
      (∃ fault, unpadStrict blockSize padded = .error (.corruptFraming .notPaddedBlocks) ∧
        unpad blockSize padded = .error (.corruptFraming fault)) := by
  cases lenient : unpad blockSize padded with
  | ok data =>
    obtain ⟨last, ends, positive, small, fits, rfl⟩ := unpad_eq_ok_iff.mp lenient
    have strict := unpadStrict_of_fits ends positive small fits
    split at strict
    · exact .inl ⟨_, strict, rfl⟩
    · rename_i ragged
      obtain ⟨byte, inside, other⟩ : ∃ byte ∈ padded.drop (padded.length - last.toNat),
          byte ≠ last := by
        simpa using ragged
      exact .inr (.inl ⟨_, strict, rfl, last, ends, positive, small, fits, byte, inside, other⟩)
  | error error =>
    obtain ⟨fault, rfl⟩ := unpad_eq_error lenient
    cases strict : unpadStrict blockSize padded with
    | error refused => exact .inr (.inr ⟨fault, by rw [unpadStrict_eq_error strict], rfl⟩)
    | ok data =>
      -- What the strict reader takes off passes every check of the lenient one.
      obtain ⟨last, positive, small, fits, rfl, length⟩ := unpadStrict_eq_ok strict
      have ends : (data ++ List.replicate last.toNat last).getLast? = some last := by
        rw [List.getLast?_append, List.getLast?_replicate, if_neg (by omega), Option.some_or]
      rw [unpad_eq_ok_iff.mpr ⟨last, ends, positive, small, fits, rfl⟩] at lenient
      contradiction

end Padding

namespace Cbc

open Aes

/-- Both readers of a body open it to the same plaintext, or only the lenient one opens it and its
padding is ragged, or both refuse it. -/
theorem open_trichotomy (cipher : Cipher) (iv body : Bytes) :
    (∃ plaintext, openStrict cipher iv body = .ok plaintext ∧
        openLenient cipher iv body = .ok plaintext) ∨
      (∃ plaintext padded, openStrict cipher iv body = .error (.corruptFraming .notPaddedBlocks) ∧
        openLenient cipher iv body = .ok plaintext ∧ openBlocks cipher iv body = .ok padded ∧
        Padding.Ragged blockLength padded) ∨
      (∃ fault, openStrict cipher iv body = .error (.corruptFraming .notPaddedBlocks) ∧
        openLenient cipher iv body = .error (.corruptFraming fault)) := by
  by_cases whole : blockLength ∣ body.length
  · obtain ⟨blocks, rfl⟩ := Block.exists_join whole
    simp only [openStrict, openLenient, openBlocks_join]
    obtain both | ⟨data, strict, lenient, ragged⟩ | neither :=
      Padding.unpad_trichotomy blockLength (Block.join (unchain cipher (Block.ofBytes iv) blocks))
    · exact .inl both
    · exact .inr (.inl ⟨data, _, strict, lenient, rfl, ragged⟩)
    · exact .inr (.inr neither)
  · have refused : openBlocks cipher iv body = _ := openBlocks_eq_error whole
    refine .inr (.inr ⟨.notPaddedBlocks, ?_, ?_⟩)
    · simp only [openStrict, refused]
    · simp only [openLenient, refused]

end Cbc

namespace Variant

/-- The variant that draws its vectors and unpads strictly, with a key. -/
def strictChaining (keyed : Keyed) : Variant := ⟨.cbc, none, some keyed⟩

/-- The variant that is supplied with its vectors and unpads leniently, with a key. -/
def lenientChaining (keyed : Keyed) : Variant := ⟨.cbcRaw, none, some keyed⟩

/-- Both families that chain blocks without a tag derive the same from a key. -/
theorem exists_bind_chaining {key : Bytes} {width : KeyWidth}
    (length : key.length = width.byteLength) :
    ∃ keyed, (Variant.new .cbc).bind key = (.ok (), strictChaining keyed) ∧
      (Variant.new .cbcRaw).bind key = (.ok (), lenientChaining keyed) := by
  obtain ⟨keyed, derived, _⟩ := Family.cbc.derive_eq_ok length
  have same : Family.cbcRaw.derive key = .ok keyed := derived
  refine ⟨keyed, ?_, ?_⟩
  · simp only [bind, new, derived, strictChaining]
  · simp only [bind, new, same, lenientChaining]

variable (keyed : Keyed)

/-- A message that draws its vector is the message that is supplied with it. -/
theorem encrypt_chaining {entropy : Entropy} {iv : Bytes} (one : iv.length = Aes.blockLength)
    (drawn : (entropy.draw Aes.blockLength).1 = iv) (other : Entropy) (plaintext : Bytes)
    (aad : Option Bytes) :
    ∃ message, ((strictChaining keyed).encrypt entropy plaintext none aad).1 = .ok message ∧
      ((lenientChaining keyed).encrypt other plaintext (some iv) aad).1 = .ok message := by
  have internal : (strictChaining keyed).family.AcceptsVector none := rfl
  have external : (lenientChaining keyed).family.AcceptsVector (some iv) := ⟨iv, rfl, one⟩
  have vector : ((strictChaining keyed).nextVector none entropy).1 = iv := drawn
  rw [encrypt_of_keyed rfl internal, encrypt_of_keyed rfl external, vector]
  -- One family leaves the padding to its encoder, the other one pads before it chains.
  have padded := Family.encrypt_cbcRaw keyed iv (aad.getD []) plaintext
  simp only [lenientChaining, nextVector, padded]
  exact ⟨_, rfl, rfl⟩

/-- Both variants decrypt a message to the same plaintext, or only the lenient one decrypts it and
its body is raggedly padded, or both refuse it over its framing. -/
theorem decrypt_chaining (message : Bytes) (aadLength : Nat) :
    (∃ plaintext, (strictChaining keyed).decrypt message 0 aadLength = .ok plaintext ∧
        (lenientChaining keyed).decrypt message Aes.blockLength aadLength = .ok plaintext) ∨
      (∃ plaintext fault frame padded,
        (strictChaining keyed).decrypt message 0 aadLength = .error (.corruptFraming fault) ∧
        (lenientChaining keyed).decrypt message Aes.blockLength aadLength = .ok plaintext ∧
        Frame.split message aadLength Aes.blockLength 0 = .ok frame ∧
        Cbc.openBlocks keyed.cipher frame.iv frame.body = .ok padded ∧
        Padding.Ragged Aes.blockLength padded) ∨
      (∃ first second,
        (strictChaining keyed).decrypt message 0 aadLength = .error (.corruptFraming first) ∧
        (lenientChaining keyed).decrypt message Aes.blockLength aadLength =
          .error (.corruptFraming second)) := by
  have strict : (strictChaining keyed).decrypt message 0 aadLength =
      (Frame.split message aadLength Aes.blockLength 0).bind fun frame =>
        Cbc.openStrict keyed.cipher frame.iv frame.body :=
    decrypt_of_keyed rfl (.inr ⟨rfl, rfl⟩) message aadLength
  have lenient : (lenientChaining keyed).decrypt message Aes.blockLength aadLength =
      (Frame.split message aadLength Aes.blockLength 0).bind fun frame =>
        Cbc.openLenient keyed.cipher frame.iv frame.body :=
    decrypt_of_keyed rfl (.inl rfl) message aadLength
  rw [strict, lenient]
  cases parts : Frame.split message aadLength Aes.blockLength 0 with
  | error error =>
    obtain ⟨fault, rfl⟩ := Frame.error_of_split parts
    exact .inr (.inr ⟨fault, fault, rfl, rfl⟩)
  | ok frame =>
    obtain both | ⟨plaintext, padded, refused, opened, deciphered, ragged⟩ | ⟨fault, neither⟩ :=
      Cbc.open_trichotomy keyed.cipher frame.iv frame.body
    · exact .inl both
    · exact .inr (.inl ⟨plaintext, _, frame, padded, refused, opened, rfl, deciphered, ragged⟩)
    · exact .inr (.inr ⟨_, fault, neither⟩)

/-- Under one key the two families that chain blocks without a tag make the same message of a
plaintext whenever the vector that one of them draws is the one that is supplied to the other. Of
messages, however they are cut, what the first family decrypts the other one decrypts to the same
plaintext. If only the other one decrypts a message, the first refuses it over its framing, and the
body, deciphered, is raggedly padded. All other messages both refuse over their framing. -/
theorem chaining_agrees {key : Bytes} {width : KeyWidth} (length : key.length = width.byteLength) :
    ∃ keyed, (Variant.new .cbc).bind key = (.ok (), strictChaining keyed) ∧
      (Variant.new .cbcRaw).bind key = (.ok (), lenientChaining keyed) ∧
      (∀ (iv plaintext : Bytes) (aad : Option Bytes) (entropy other : Entropy),
        iv.length = Aes.blockLength → (entropy.draw Aes.blockLength).1 = iv →
        ∃ message,
          ((strictChaining keyed).encrypt entropy plaintext none aad).1 = .ok message ∧
          ((lenientChaining keyed).encrypt other plaintext (some iv) aad).1 = .ok message) ∧
      ∀ (message : Bytes) (aadLength : Nat),
        let strict := (strictChaining keyed).decrypt message 0 aadLength
        let lenient := (lenientChaining keyed).decrypt message Aes.blockLength aadLength
        (∀ plaintext, strict = .ok plaintext → lenient = .ok plaintext) ∧
          (∀ plaintext, lenient = .ok plaintext → (∀ other, strict ≠ .ok other) →
            (∃ fault, strict = .error (.corruptFraming fault)) ∧
              ∃ frame padded, Frame.split message aadLength Aes.blockLength 0 = .ok frame ∧
                Cbc.openBlocks keyed.cipher frame.iv frame.body = .ok padded ∧
                Padding.Ragged Aes.blockLength padded) ∧
          ((∀ plaintext, lenient ≠ .ok plaintext) →
            (∃ fault, strict = .error (.corruptFraming fault)) ∧
              ∃ fault, lenient = .error (.corruptFraming fault)) := by
  obtain ⟨keyed, first, second⟩ := exists_bind_chaining length
  refine ⟨keyed, first, second, ?_, ?_⟩
  · intro iv plaintext aad entropy other one drawn
    exact encrypt_chaining keyed one drawn other plaintext aad
  · intro message aadLength strict lenient
    obtain ⟨plaintext, opened, also⟩ | ⟨plaintext, fault, frame, padded, refused, opened, ragged⟩ |
        ⟨fault, other, refused, also⟩ := decrypt_chaining keyed message aadLength
    · refine ⟨?_, ?_, ?_⟩
      · intro given same
        exact also.trans (opened.symm.trans same)
      · intro given _ unopened
        exact absurd opened (unopened plaintext)
      · intro unopened
        exact absurd also (unopened plaintext)
    · refine ⟨?_, ?_, ?_⟩
      · intro given same
        have clash := refused.symm.trans same
        contradiction
      · intro given _ _
        exact ⟨⟨fault, refused⟩, frame, padded, ragged⟩
      · intro unopened
        exact absurd opened (unopened plaintext)
    · refine ⟨?_, ?_, ?_⟩
      · intro given same
        have clash := refused.symm.trans same
        contradiction
      · intro given same _
        have clash := also.symm.trans same
        contradiction
      · intro _
        exact ⟨⟨fault, refused⟩, other, also⟩

/-- A block of zeros that ends in the byte two, read under a key of zeros. -/
theorem chaining_agrees_ragged :
    (List.replicate 16 (0 : UInt8)).length = KeyWidth.w128.byteLength ∧
      ∃ keyed message, (Variant.new .cbc).bind (List.replicate 16 0) =
          (.ok (), strictChaining keyed) ∧
        (lenientChaining keyed).decrypt message Aes.blockLength 0 = .ok (List.replicate 14 0) ∧
        ∃ fault, (strictChaining keyed).decrypt message 0 0 = .error (.corruptFraming fault) := by
  have length : (List.replicate 16 (0 : UInt8)).length = KeyWidth.w128.byteLength := rfl
  obtain ⟨keyed, bound, _, _, readers⟩ := chaining_agrees length
  let iv : Bytes := List.replicate 16 0
  let padded := Aes.Block.ofBytes (List.replicate 15 0 ++ [2])
  let body := Aes.Block.join (Cbc.chain keyed.cipher (Aes.Block.ofBytes iv) [padded])
  let frame : Frame := ⟨[], iv, body, []⟩
  have deciphered : Cbc.openBlocks keyed.cipher iv body = .ok padded.toBytes := by
    rw [Cbc.openBlocks_join, Cbc.unchain_chain]
    rfl
  have stated : 0 + 16 + 0 < sizeLimit := by decide
  have lenient : (lenientChaining keyed).decrypt frame.join Aes.blockLength 0 =
      .ok (List.replicate 14 0) := by
    have opened : (lenientChaining keyed).decrypt frame.join Aes.blockLength 0 =
        Cbc.openLenient keyed.cipher iv body :=
      decrypt_join rfl (.inl rfl) rfl rfl stated
    rw [opened, Cbc.openLenient, deciphered]
    rfl
  have strict : (strictChaining keyed).decrypt frame.join 0 0 =
      .error (.corruptFraming .notPaddedBlocks) := by
    have opened : (strictChaining keyed).decrypt frame.join 0 0 =
        Cbc.openStrict keyed.cipher iv body :=
      decrypt_join rfl (.inr ⟨rfl, rfl⟩) rfl rfl stated
    rw [opened, Cbc.openStrict, deciphered]
    rfl
  have unopened (other : Bytes) : (strictChaining keyed).decrypt frame.join 0 0 ≠ .ok other := by
    rw [strict]
    intro opened
    contradiction
  exact ⟨length, keyed, frame.join, bound, lenient,
    ((readers frame.join 0).2.1 _ lenient unopened).1⟩

end Variant

end AesTrials
