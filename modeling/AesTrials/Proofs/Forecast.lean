import AesTrials.Proofs.Accounting
import AesTrials.Proofs.Rekeying

/-!
# What runs without faults come to

The result of a run of a variant follows from its family and its inputs. Neither the number of
cycles nor when the key is bound nor the entropy makes a difference: every cycle starts from the
same bound variant, makes a message of the same length and decrypts it to the plaintext.
-/

namespace AesTrials

/-- The result with its time left out. -/
def Result.untimed (result : Result) : Result := { result with averageDuration := .zero }

/-- The result, its time left out, of a run on the inputs that passes with messages of a size. -/
def Inputs.passing (inputs : Inputs) (name : String) (size : Nat) : Result :=
  { name
    plainSize := inputs.plaintext.length
    aadSize := inputs.aadLength
    encryptedSize := size
    overheadRatio := overheadRatio inputs.plaintext.length inputs.aadLength size
    averageDuration := .zero
    passed := true
    failure := none }

/-- The result, its time left out, of a run on the inputs that an error stops before there is a
message. -/
def Inputs.failing (inputs : Inputs) (name : String) (error : CipherError) : Result :=
  { name
    plainSize := inputs.plaintext.length
    aadSize := inputs.aadLength
    encryptedSize := 0
    overheadRatio := none
    averageDuration := .zero
    passed := false
    failure := some (.ofError error) }

/-- What an encryption comes to once its message is decrypted again: its error, or the length of
the message and the answer. -/
abbrev Exchanged := Except CipherError (Nat × Except CipherError Bytes)

/-- The tally after a cycle whose key was bound, and whether the run goes on. -/
def Tally.exchange (tally : Tally) (plaintext : Bytes) : Exchanged → Tally × Bool
  | .error error => (tally.fail (.ofError error), false)
  | .ok (size, answer) =>
    let checked := { tally with encryptedSize := some size }.check plaintext answer
    ({ checked with completed := checked.completed + 1 }, true)

/-- A length that no width says is refused. -/
theorem KeyWidth.ofByteLength_eq_error {length : Nat}
    (strange : ∀ width : KeyWidth, length ≠ width.byteLength) :
    ofByteLength length = .error (.invalidKeyLength length) := by
  unfold ofByteLength
  split
  · exact absurd rfl (strange .w128)
  · exact absurd rfl (strange .w192)
  · exact absurd rfl (strange .w256)
  · rfl

namespace Family

/-- Bytes of the body of a plaintext of the given length: as many, or whole blocks with padding. -/
def bodyLength (family : Family) (plainLength : Nat) : Nat :=
  if family.isAead then plainLength
  else Aes.blockLength * (plainLength / Aes.blockLength + 1)

/-- Bytes of a message. -/
def messageLength (family : Family) (plainLength aadLength : Nat) : Nat :=
  aadLength + family.nonceLength + family.bodyLength plainLength + family.tagLength

/-- What the family seals has a body of its length. -/
theorem length_body_of_encrypt {family : Family} {keyed : Keyed}
    {iv aad plaintext body tag : Bytes}
    (sealed : family.encrypt keyed iv aad plaintext = .ok (body, tag)) :
    body.length = family.bodyLength plaintext.length := by
  cases family with
  | cbc | cbcHmac =>
    cases sealed
    rw [Cbc.length_encrypt]
    exact Padding.length_append_eq_mul (by decide) plaintext
  | cbcRaw =>
    rw [encrypt_cbcRaw] at sealed
    cases sealed
    rw [Cbc.length_encrypt]
    exact Padding.length_append_eq_mul (by decide) plaintext
  | gcm | gcmWide =>
    simp only [encrypt, Gcm.encrypt] at sealed
    split at sealed
    · contradiction
    · cases sealed
      exact Gcm.length_crypt _ _ _
  | gcmSiv =>
    simp only [encrypt, GcmSiv.encrypt] at sealed
    split at sealed
    · contradiction
    · cases sealed
      exact GcmSiv.length_crypt _ _ _ _

/-- A vector that the family takes has a length that it takes. -/
theorem AcceptsVector.acceptsVectorLength {family : Family} {inputs : Inputs}
    (accepted : family.AcceptsVector inputs.iv) :
    family.AcceptsVectorLength inputs.ivLength := by
  unfold AcceptsVector at accepted
  split at accepted
  · rename_i internal
    refine .inr ⟨internal, ?_⟩
    rw [Inputs.ivLength, accepted]
    rfl
  · obtain ⟨vector, given, length⟩ := accepted
    refine .inl ?_
    rw [Inputs.ivLength, given]
    exact length

end Family

/-- Lengths that add up to more than can be stated cut no message. -/
theorem Frame.split_eq_error_of_overflow {aadLength ivLength tagLength : Nat}
    (overflow : sizeLimit ≤ aadLength + ivLength + tagLength) (message : Bytes) :
    split message aadLength ivLength tagLength = .error (.corruptFraming .lengthsOverflow) := by
  simp only [split, if_pos overflow]

namespace Variant

/-- A key that is as long as a width says is bound, and changes nothing else. -/
theorem exists_bind (variant : Variant) {key : Bytes} {width : KeyWidth}
    (length : key.length = width.byteLength) :
    ∃ keyed, keyed.cipher.width = width ∧
      variant.bind key = (.ok (), { variant with keyed := some keyed }) := by
  obtain ⟨keyed, derived, named⟩ := variant.family.derive_eq_ok length
  exact ⟨keyed, named, by simp only [bind, derived]⟩

/-- A key that is as long as no width says is refused over its length. -/
theorem bind_eq_error (variant : Variant) {key : Bytes}
    (strange : ∀ width : KeyWidth, key.length ≠ width.byteLength) :
    variant.bind key =
      (.error (.invalidKeyLength key.length), { variant with keyed := none }) := by
  simp only [bind, Family.derive, KeyWidth.ofByteLength_eq_error strange]

/-- What encrypting inputs and decrypting the message comes to. -/
def exchange (variant : Variant) (inputs : Inputs) (entropy : Entropy) : Exchanged :=
  (variant.encrypt entropy inputs.plaintext inputs.iv inputs.aad).1.map fun message =>
    (message.length, variant.decrypt message inputs.ivLength inputs.aadLength)

section Exchange

variable {variant : Variant} {keyed : Keyed} {inputs : Inputs}

/-- Of lengths that the family takes a message of its length is made, and decrypted if the lengths
of its outer parts can be stated. -/
theorem exchange_of_admitted (bound : variant.keyed = some keyed) (fits : variant.NonceFits)
    (accepted : variant.family.AcceptsVector inputs.iv)
    (admitted : variant.family.AdmitsLengths inputs.plaintext.length inputs.aadLength)
    (entropy : Entropy) :
    variant.exchange inputs entropy =
      .ok (variant.family.messageLength inputs.plaintext.length inputs.aadLength,
        if inputs.aadLength + variant.family.nonceLength + variant.family.tagLength < sizeLimit
        then .ok inputs.plaintext else .error (.corruptFraming .lengthsOverflow)) := by
  obtain ⟨frame, made, aad, iv, sealed⟩ := encrypt_eq_join bound fits accepted admitted entropy
  have tag := Family.length_tag_of_encrypt sealed
  have aadLength : frame.aad.length = inputs.aadLength := congrArg List.length aad
  have size : frame.join.length =
      variant.family.messageLength inputs.plaintext.length inputs.aadLength := by
    rw [Frame.length_join, aadLength, iv, Family.length_body_of_encrypt sealed, tag]
    rfl
  have told := accepted.acceptsVectorLength
  rw [exchange, made, Except.map, size]
  split
  · rename_i stated
    rw [← aadLength] at stated ⊢
    rw [decrypt_join bound told iv tag stated, Family.decrypt_of_encrypt sealed]
  · rename_i overflow
    rw [decrypt_of_keyed bound told, Frame.split_eq_error_of_overflow (Nat.le_of_not_lt overflow)]
    rfl

/-- A variant serves inputs with messages of a size if, whatever it draws, it makes a message of
that size and decrypts it to the plaintext. -/
def Serves (variant : Variant) (inputs : Inputs) (size : Nat) : Prop :=
  ∀ entropy, ∃ message,
    (variant.encrypt entropy inputs.plaintext inputs.iv inputs.aad).1 = .ok message ∧
      message.length = size ∧
      variant.decrypt message inputs.ivLength inputs.aadLength = .ok inputs.plaintext

/-- To serve inputs is to have every exchange come to the size and the plaintext. -/
theorem serves_iff {size : Nat} :
    variant.Serves inputs size ↔
      ∀ entropy, variant.exchange inputs entropy = .ok (size, .ok inputs.plaintext) := by
  refine forall_congr' fun entropy => ?_
  rw [exchange]
  cases (variant.encrypt entropy inputs.plaintext inputs.iv inputs.aad).1 with
  | error error => simp [Except.map]
  | ok message => simp [Except.map]

/-- A variant with a key serves the inputs that its family takes. -/
theorem serves_of_keyed (bound : variant.keyed = some keyed) (fits : variant.NonceFits)
    (accepted : variant.family.AcceptsVector inputs.iv)
    (admitted : variant.family.AdmitsLengths inputs.plaintext.length inputs.aadLength)
    (stated : inputs.aadLength + variant.family.nonceLength + variant.family.tagLength <
      sizeLimit) :
    variant.Serves inputs
      (variant.family.messageLength inputs.plaintext.length inputs.aadLength) := by
  refine serves_iff.mpr fun entropy => ?_
  rw [exchange_of_admitted bound fits accepted admitted, if_pos stated]

end Exchange

end Variant

namespace Trial

section Cycles

variable {variant bound : Variant} {inputs : Inputs} {setup : KeySetup} {size : Nat}

/-- A cycle whose key is bound does to the tally what its exchange says, and leaves the bound
variant. -/
theorem cycle_eq_exchange {entropy : Entropy}
    (starts : rebind Variant.subject inputs setup (variant, entropy) = (.ok (), bound, entropy))
    (tally : Tally) :
    ∃ left, cycle Variant.subject inputs setup tally (variant, entropy) =
      ((tally.exchange inputs.plaintext (bound.exchange inputs entropy)).1, (bound, left),
        (tally.exchange inputs.plaintext (bound.exchange inputs entropy)).2) := by
  let left := (bound.encrypt entropy inputs.plaintext inputs.iv inputs.aad).2
  refine ⟨left, ?_⟩
  cases made : (bound.encrypt entropy inputs.plaintext inputs.iv inputs.aad).1 with
  | error error =>
    have sealed : Variant.subject.encrypt (bound, entropy) inputs.plaintext inputs.iv inputs.aad =
        (.error error, bound, left) := by
      rw [← made]
      rfl
    rw [(Cycled.unsealed starts sealed).eq_cycle, Variant.exchange, made]
    rfl
  | ok message =>
    have sealed : Variant.subject.encrypt (bound, entropy) inputs.plaintext inputs.iv inputs.aad =
        (.ok message, bound, left) := by
      rw [← made]
      rfl
    rw [(Cycled.ended starts sealed rfl rfl rfl).eq_cycle, Variant.exchange, made]
    rfl

/-- A cycle that starts from a variant that serves the inputs passes, and leaves that variant. -/
theorem cycle_of_serves (serves : bound.Serves inputs size) {entropy : Entropy}
    (starts : rebind Variant.subject inputs setup (variant, entropy) = (.ok (), bound, entropy))
    (tally : Tally) :
    ∃ left, cycle Variant.subject inputs setup tally (variant, entropy) =
      ({ tally with encryptedSize := some size, completed := tally.completed + 1 },
        (bound, left), true) := by
  obtain ⟨left, cycled⟩ := cycle_eq_exchange starts tally
  refine ⟨left, cycled.trans ?_⟩
  rw [Variant.serves_iff.mp serves]
  simp only [Tally.exchange, Tally.check, beq_self_eq_true, if_true]

/-- Any number of cycles pass that start from a variant that serves the inputs, once the first one
did. -/
theorem cycles_of_serves (serves : bound.Serves inputs size)
    (again : ∀ entropy,
      rebind Variant.subject inputs setup (bound, entropy) = (.ok (), bound, entropy))
    (count : Nat) {entropy : Entropy}
    (starts : rebind Variant.subject inputs setup (variant, entropy) = (.ok (), bound, entropy))
    (tally : Tally) :
    ∃ left, cycles Variant.subject inputs setup (count + 1) tally (variant, entropy) =
      ({ tally with encryptedSize := some size, completed := tally.completed + (count + 1) },
        (bound, left)) := by
  -- Only the first cycle can start from a variant other than the one it leaves, so the state before
  -- it stays free while the one between cycles is fixed.
  induction count generalizing variant entropy tally with
  | zero =>
    obtain ⟨left, first⟩ := cycle_of_serves serves starts tally
    exact ⟨left, by simp only [cycles, first]⟩
  | succ count ih =>
    obtain ⟨between, first⟩ := cycle_of_serves serves starts tally
    obtain ⟨left, later⟩ := ih (again between)
      { tally with encryptedSize := some size, completed := tally.completed + 1 }
    refine ⟨left, ?_⟩
    rw [cycles, first]
    simp only [later, Nat.add_assoc, Nat.add_comm 1]

/-- A cycle that stops the run is the last of any number of them. -/
theorem cycles_of_stops {σ : Type} {subject : Subject σ} {tally counted : Tally} {state left : σ}
    (stops : cycle subject inputs setup tally state = (counted, left, false)) (count : Nat) :
    cycles subject inputs setup (count + 1) tally state = (counted, left) := by
  rw [cycles, stops]

/-- A run makes at least one cycle. -/
theorem exists_cycleCount_eq (iterations : Nat) : ∃ count, cycleCount iterations = count + 1 :=
  ⟨cycleCount iterations - 1, by unfold cycleCount; omega⟩

end Cycles

section Runs

variable {variant bound : Variant} {inputs : Inputs}

/-- Whenever the key is bound, every cycle starts from the same bound variant, whatever there is of
entropy. -/
theorem exists_prepare (accepted : variant.bind inputs.key = (.ok (), bound)) (setup : KeySetup) :
    ∃ first : Variant, ∀ entropy,
      prepare Variant.subject inputs setup (variant, entropy) = (.ok (), first, entropy) ∧
        rebind Variant.subject inputs setup (first, entropy) = (.ok (), bound, entropy) ∧
        rebind Variant.subject inputs setup (bound, entropy) = (.ok (), bound, entropy) := by
  have binds (entropy : Entropy) :
      Variant.subject.bind (variant, entropy) inputs.key = (.ok (), bound, entropy) := by
    simp only [Variant.subject, accepted]
  cases setup with
  | once => exact ⟨bound, fun entropy => ⟨binds entropy, rfl, rfl⟩⟩
  | perIteration =>
    -- The second cycle binds the key over itself.
    have again := variant.bind_bind inputs.key inputs.key
    rw [accepted] at again
    refine ⟨variant, fun entropy => ⟨rfl, binds entropy, ?_⟩⟩
    simp only [rebind, Variant.subject, again]

/-- A run of a variant that serves the inputs passes. -/
theorem result_of_serves (accepted : variant.bind inputs.key = (.ok (), bound)) {size : Nat}
    (serves : bound.Serves inputs size) (iterations : Nat) (setup : KeySetup) (entropy : Entropy)
    (elapsed : Elapsed) :
    ((run Variant.subject inputs iterations setup (variant, entropy)).1.result elapsed).untimed =
      inputs.passing bound.name size := by
  obtain ⟨first, ready⟩ := exists_prepare accepted setup
  obtain ⟨prepared, starts, _⟩ := ready entropy
  obtain ⟨count, least⟩ := exists_cycleCount_eq iterations
  obtain ⟨left, cycled⟩ :=
    cycles_of_serves serves (fun entropy => (ready entropy).2.2) count starts .empty
  simp only [run, prepared, least, cycled]
  rfl

/-- A run whose key is refused says so. -/
theorem result_of_refused {error : CipherError}
    (refused : variant.bind inputs.key = (.error error, bound)) (iterations : Nat)
    (setup : KeySetup) (entropy : Entropy) (elapsed : Elapsed) :
    ((run Variant.subject inputs iterations setup (variant, entropy)).1.result elapsed).untimed =
      inputs.failing bound.name error := by
  have binds : Variant.subject.bind (variant, entropy) inputs.key =
      (.error error, bound, entropy) := by
    simp only [Variant.subject, refused]
  cases setup with
  | once =>
    simp only [run, prepare, binds]
    rfl
  | perIteration =>
    obtain ⟨count, least⟩ := exists_cycleCount_eq iterations
    have starts : rebind Variant.subject inputs .perIteration (variant, entropy) =
        (.error error, bound, entropy) := binds
    have stops : cycle Variant.subject inputs .perIteration .empty (variant, entropy) = _ :=
      (Cycled.unbound starts).eq_cycle
    simp only [run, prepare, least, cycles_of_stops stops]
    rfl

/-- A run whose plaintext is refused says so. -/
theorem result_of_unsealed (accepted : variant.bind inputs.key = (.ok (), bound))
    {error : CipherError} (unsealed : ∀ entropy,
      bound.encrypt entropy inputs.plaintext inputs.iv inputs.aad = (.error error, entropy))
    (iterations : Nat) (setup : KeySetup) (entropy : Entropy) (elapsed : Elapsed) :
    ((run Variant.subject inputs iterations setup (variant, entropy)).1.result elapsed).untimed =
      inputs.failing bound.name error := by
  obtain ⟨first, ready⟩ := exists_prepare accepted setup
  obtain ⟨prepared, starts, _⟩ := ready entropy
  obtain ⟨count, least⟩ := exists_cycleCount_eq iterations
  have sealed : Variant.subject.encrypt (bound, entropy) inputs.plaintext inputs.iv inputs.aad =
      (.error error, bound, entropy) := by
    simp only [Variant.subject, unsealed]
  have stops : cycle Variant.subject inputs setup .empty (first, entropy) = _ :=
    (Cycled.unsealed starts sealed).eq_cycle
  simp only [run, prepared, least, cycles_of_stops stops]
  rfl

/-- What a run of a variant comes to. A key of a strange length stops it before the variant has a
width in its name, and a vector that the family does not take before there is a message. Every other
run passes, with messages as long as their additional data, vector, body and tag. How often, when
the key is bound and what is drawn do not show. -/
theorem result_run_variant (constructed : variant.Constructed) (inputs : Inputs)
    (iterations : Nat) (setup : KeySetup) (entropy : Entropy) (elapsed : Elapsed) :
    let family := variant.family
    let result :=
      ((run Variant.subject inputs iterations setup (variant, entropy)).1.result elapsed).untimed
    ((∀ width : KeyWidth, inputs.key.length ≠ width.byteLength) →
        result = inputs.failing (family.displayName none)
          (.invalidKeyLength inputs.key.length)) ∧
      ∀ width : KeyWidth, inputs.key.length = width.byteLength →
        (¬ family.AcceptsVector inputs.iv →
          ∃ fault, family.vectorFault? inputs.iv = some fault ∧
            result = inputs.failing (family.displayName (some width)) (.invalidArgument fault)) ∧
        (family.AcceptsVector inputs.iv →
          family.AdmitsLengths inputs.plaintext.length inputs.aadLength →
          inputs.aadLength + family.nonceLength + family.tagLength < sizeLimit →
            result = inputs.passing (family.displayName (some width))
              (family.messageLength inputs.plaintext.length inputs.aadLength)) := by
  intro family result
  constructor
  · intro strange
    exact result_of_refused (variant.bind_eq_error strange) iterations setup entropy elapsed
  · intro width length
    obtain ⟨keyed, named, accepted⟩ := variant.exists_bind length
    have name : ({ variant with keyed := some keyed } : Variant).name =
        family.displayName (some width) := by
      rw [← named]
      rfl
    rw [← name]
    constructor
    · intro foreign
      have faulty : variant.family.vectorFault? inputs.iv ≠ none :=
        fun none => foreign ((Family.vectorFault?_eq_none_iff _ _).mp none)
      obtain ⟨fault, given⟩ := Option.ne_none_iff_exists'.mp faulty
      refine ⟨fault, given, result_of_unsealed accepted ?_ iterations setup entropy elapsed⟩
      intro entropy
      simp only [Variant.encrypt, given]
    · intro taken admitted stated
      have fits : ({ variant with keyed := some keyed } : Variant).NonceFits :=
        constructed.nonceFits.of_eq rfl rfl
      exact result_of_serves accepted (Variant.serves_of_keyed rfl fits taken admitted stated)
        iterations setup entropy elapsed

/-- Three cycles with a key of twenty-four bytes, bound in each of them, and the result of one with
a key of twenty. -/
theorem result_run_variant_wide :
    let inputs (length : Nat) : Inputs := ⟨List.replicate length 1, none, [1, 2, 3], some [4, 5]⟩
    let result (length iterations : Nat) (setup : KeySetup) : Result :=
      ((run Variant.subject (inputs length) iterations setup (.new .gcmWide, .cycle [6])).1.result
        (.ofNanoseconds 7)).untimed
    result 24 3 .perIteration = (inputs 24).passing "AES192-GCM-N128" 37 ∧
      result 20 1 .once = (inputs 20).failing "AES-GCM-N128" (.invalidKeyLength 20) := by
  intro inputs result
  have outcome (length iterations : Nat) (setup : KeySetup) :=
    result_run_variant (.drawing .gcmWide) (inputs length) iterations setup (.cycle [6])
      (.ofNanoseconds 7)
  refine ⟨?_, (outcome 20 1 .once).1 ?_⟩
  · exact ((outcome 24 3 .perIteration).2 .w192 rfl).2 rfl (fun _ => by decide) (by decide)
  · intro width
    cases width <;> decide

end Runs

end Trial

end AesTrials
