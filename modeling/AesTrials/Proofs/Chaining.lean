import AesTrials.Mode.Cbc
import AesTrials.Proofs.Padding

/-!
# Bodies in cipher block chaining

Whole blocks of bytes are blocks joined together, and only they can be opened. Both readers of a
body undo its writer, and the strict reader accepts nothing but what the writer makes. A chain
resumes at each of its blocks: whatever stands before a block, the bodies behind it open in the same
way as under that block as the vector.
-/

namespace AesTrials.Aes.Block

/-- Joined blocks are sixteen bytes each. -/
theorem length_join (blocks : List Block) : (join blocks).length = blockLength * blocks.length := by
  induction blocks with
  | nil => rfl
  | cons block blocks ih =>
    simp only [join, List.flatMap_cons, List.length_append, length_toBytes,
      List.length_cons] at ih ⊢
    rw [ih, Nat.mul_add, Nat.mul_one, Nat.add_comm]

/-- Blocks after blocks are joined to bytes after bytes. -/
theorem join_append (front back : List Block) : join (front ++ back) = join front ++ join back :=
  List.flatMap_append

/-- Sixteen bytes are the bytes of their block. -/
theorem toBytes_ofBytes {bytes : Bytes} (one : bytes.length = blockLength) :
    (ofBytes bytes).toBytes = bytes := by
  match bytes, one with
  | [_, _, _, _, _, _, _, _, _, _, _, _, _, _, _, _], _ => rfl

/-- Whole blocks of bytes are blocks joined. -/
theorem exists_join {bytes : Bytes} (whole : blockLength ∣ bytes.length) :
    ∃ blocks, bytes = join blocks := by
  obtain ⟨count, length⟩ := whole
  induction count generalizing bytes with
  | zero => exact ⟨[], List.eq_nil_of_length_eq_zero length⟩
  | succ count ih =>
    have first : (bytes.take blockLength).length = blockLength := by
      rw [List.length_take, length, Nat.mul_add]
      omega
    have later : (bytes.drop blockLength).length = blockLength * count := by
      rw [List.length_drop, length, Nat.mul_add]
      omega
    obtain ⟨blocks, rest⟩ := ih later
    refine ⟨ofBytes (bytes.take blockLength) :: blocks, ?_⟩
    have joined : join (ofBytes (bytes.take blockLength) :: blocks) =
        (ofBytes (bytes.take blockLength)).toBytes ++ join blocks := List.flatMap_cons
    rw [joined, toBytes_ofBytes first, ← rest, List.take_append_drop]

/-- Bytes that are not whole blocks leave a rest when they are split. -/
theorem split_rest_ne_nil {bytes : Bytes} (uneven : ¬ blockLength ∣ bytes.length) :
    (split bytes).2 ≠ [] := by
  intro none
  have parts := join_split bytes
  rw [none, List.append_nil] at parts
  exact uneven ⟨_, by rw [← parts, length_join]⟩

/-- What is left behind the blocks of a byte string is shorter than a block. -/
theorem length_split_lt (bytes : Bytes) : (split bytes).2.length < blockLength := by
  suffices general : ∀ read, (splitOnto read bytes).2.length < blockLength from general []
  intro read
  fun_induction splitOnto read bytes with
  | case1 read b₀ b₁ b₂ b₃ b₄ b₅ b₆ b₇ b₈ b₉ b₁₀ b₁₁ b₁₂ b₁₃ b₁₄ b₁₅ rest ih => exact ih
  | case2 read rest short =>
    refine Nat.lt_of_not_le fun long => ?_
    have first : (rest.take blockLength).length = blockLength :=
      List.length_take_of_le long
    have cut := List.take_append_drop blockLength rest
    rw [← toBytes_ofBytes first] at cut
    exact short _ _ _ _ _ _ _ _ _ _ _ _ _ _ _ _ _ cut.symm

/-- Padding a byte string closes what is left behind its blocks. -/
theorem split_append_padding (bytes : Bytes) :
    split (Padding.append blockLength bytes) =
      ((split bytes).1 ++ [Cbc.closingBlock (split bytes).2], []) := by
  have short := length_split_lt bytes
  have parts := join_split bytes
  generalize (split bytes).1 = whole at *
  generalize (split bytes).2 = rest at *
  have missing : Padding.fillLength blockLength bytes.length = blockLength - rest.length := by
    rw [Padding.fillLength, ← parts, List.length_append, length_join, Nat.mul_add_mod,
      Nat.mod_eq_of_lt short]
  have closed : (Cbc.closingBlock rest).toBytes =
      rest ++ List.replicate (blockLength - rest.length)
        (UInt8.ofNat (blockLength - rest.length)) := by
    refine toBytes_ofBytes ?_
    rw [List.length_append, List.length_replicate]
    omega
  have joined : Padding.append blockLength bytes = join (whole ++ [Cbc.closingBlock rest]) := by
    have single : join [Cbc.closingBlock rest] = (Cbc.closingBlock rest).toBytes := by
      simp only [join, List.flatMap_cons, List.flatMap_nil, List.append_nil]
    rw [join_append, single, closed, ← List.append_assoc, parts]
    simp only [Padding.append, missing]
  rw [joined, split_join]

end AesTrials.Aes.Block

namespace AesTrials.Cbc

open Aes

/-- A chain has as many blocks as its plaintext. -/
theorem length_chain (cipher : Cipher) (iv : Block) (plain : List Block) :
    (chain cipher iv plain).length = plain.length := by
  induction plain generalizing iv with
  | nil => rfl
  | cons block plain ih => rw [chain_cons, List.length_cons, List.length_cons, ih]

/-- An undone chain has as many blocks as the chain. -/
theorem length_unchain (cipher : Cipher) (iv : Block) (enciphered : List Block) :
    (unchain cipher iv enciphered).length = enciphered.length := by
  simp only [unchain, List.length_zipWith, List.length_cons]
  omega

/-- A chain resumes at each of its blocks. -/
theorem unchain_append_cons (cipher : Cipher) (iv : Block) (front : List Block) (vector : Block)
    (back : List Block) :
    unchain cipher iv (front ++ vector :: back) =
      unchain cipher iv (front ++ [vector]) ++ unchain cipher vector back := by
  induction front generalizing iv with
  | nil => rfl
  | cons block front ih =>
    have rest := ih block
    simp only [unchain, List.cons_append, List.zipWith_cons_cons] at rest ⊢
    rw [rest]

/-- Joined blocks open to the undone chain. -/
theorem openBlocks_join (cipher : Cipher) (iv : Bytes) (blocks : List Block) :
    openBlocks cipher iv (Block.join blocks) =
      .ok (Block.join (unchain cipher (Block.ofBytes iv) blocks)) := by
  simp only [openBlocks, Block.split_join]

/-- A body that ends inside a block does not open. -/
theorem openBlocks_eq_error {cipher : Cipher} {iv body : Bytes}
    (uneven : ¬ blockLength ∣ body.length) :
    openBlocks cipher iv body = .error (.corruptFraming .notPaddedBlocks) := by
  have rest := Block.split_rest_ne_nil uneven
  unfold openBlocks
  split
  · rename_i whole
    rw [whole] at rest
    contradiction
  · rfl

/-- Only whole blocks open, to a text of their length. -/
theorem openBlocks_eq_ok {cipher : Cipher} {iv body padded : Bytes}
    (h : openBlocks cipher iv body = .ok padded) :
    ∃ blocks, body = Block.join blocks ∧
      padded = Block.join (unchain cipher (Block.ofBytes iv) blocks) := by
  by_cases whole : blockLength ∣ body.length
  · obtain ⟨blocks, rfl⟩ := Block.exists_join whole
    rw [openBlocks_join] at h
    cases h
    exact ⟨blocks, rfl, rfl⟩
  · rw [openBlocks_eq_error whole] at h
    contradiction

/-- Whatever whole blocks and vector stand before them, bodies open as under that vector alone. -/
theorem openBlocks_resume (cipher : Cipher) (iv : Bytes) {front vector : Bytes}
    (whole : blockLength ∣ front.length) (one : vector.length = blockLength) :
    ∃ opened : Bytes, opened.length = front.length + blockLength ∧
      ∀ body, openBlocks cipher iv (front ++ vector ++ body) =
        (openBlocks cipher vector body).map (opened ++ ·) := by
  obtain ⟨blocks, rfl⟩ := Block.exists_join whole
  have single : vector = Block.join [Block.ofBytes vector] := by
    simp only [Block.join, List.flatMap_cons, List.flatMap_nil, List.append_nil,
      Block.toBytes_ofBytes one]
  refine ⟨Block.join (unchain cipher (Block.ofBytes iv) (blocks ++ [Block.ofBytes vector])),
    ?_, ?_⟩
  · rw [Block.length_join, length_unchain, Block.length_join, List.length_append, Nat.mul_add]
    rfl
  · intro body
    by_cases aligned : blockLength ∣ body.length
    · obtain ⟨back, rfl⟩ := Block.exists_join aligned
      have joined : Block.join blocks ++ vector ++ Block.join back =
          Block.join (blocks ++ Block.ofBytes vector :: back) := by
        rw [single, ← Block.join_append, ← Block.join_append, ← single, List.append_assoc]
        rfl
      rw [joined, openBlocks_join, openBlocks_join, unchain_append_cons, Block.join_append]
      rfl
    · have misaligned : ¬ blockLength ∣ (Block.join blocks ++ vector ++ body).length := by
        rw [List.length_append, List.length_append, one, Nat.dvd_add_right]
        · exact aligned
        · exact Nat.dvd_add whole (Nat.dvd_refl _)
      rw [openBlocks_eq_error misaligned, openBlocks_eq_error aligned]
      rfl

/-- Closing the last block is padding the plaintext before it is split. -/
theorem encrypt_eq (cipher : Cipher) (iv plaintext : Bytes) :
    encrypt cipher iv plaintext =
      Block.join (chain cipher (Block.ofBytes iv)
        (Block.split (Padding.append blockLength plaintext)).1) := by
  rw [Block.split_append_padding]
  rfl

/-- The writer that pads before it enciphers makes the bodies of the one that closes the last block
while it enciphers. -/
theorem encryptPadded_eq (cipher : Cipher) (iv plaintext : Bytes) :
    encryptPadded cipher iv plaintext = .ok (encrypt cipher iv plaintext) := by
  have padding : Padding.pad blockLength plaintext = .ok (Padding.append blockLength plaintext) :=
    if_pos (by decide)
  unfold encryptPadded
  split
  · rename_i error refused
    rw [padding] at refused
    contradiction
  · rename_i padded done
    cases Except.ok.inj (padding.symm.trans done)
    rw [encrypt_eq, encryptBlocks]

/-- A body is as long as the padded plaintext. -/
theorem length_encrypt (cipher : Cipher) (iv plaintext : Bytes) :
    (encrypt cipher iv plaintext).length = (Padding.append blockLength plaintext).length := by
  obtain ⟨blocks, padded⟩ :=
    Block.exists_join (Padding.dvd_length_append (by decide) plaintext)
  rw [encrypt_eq, padded, Block.split_join, Block.length_join, length_chain, Block.length_join]

/-- A body opens to the padded plaintext. -/
theorem openBlocks_encrypt (cipher : Cipher) (iv plaintext : Bytes) :
    openBlocks cipher iv (encrypt cipher iv plaintext) =
      .ok (Padding.append blockLength plaintext) := by
  obtain ⟨blocks, padded⟩ :=
    Block.exists_join (Padding.dvd_length_append (by decide) plaintext)
  rw [encrypt_eq, openBlocks_join, padded, Block.split_join, unchain_chain]

/-- The strict reader gives the plaintext of a body back. -/
theorem openStrict_encrypt (cipher : Cipher) (iv plaintext : Bytes) :
    openStrict cipher iv (encrypt cipher iv plaintext) = .ok plaintext := by
  simp only [openStrict, openBlocks_encrypt]
  exact Padding.unpadStrict_append (by decide) (by decide) plaintext

/-- The lenient reader gives the plaintext of a body back. -/
theorem openLenient_encrypt (cipher : Cipher) (iv plaintext : Bytes) :
    openLenient cipher iv (encrypt cipher iv plaintext) = .ok plaintext := by
  simp only [openLenient, openBlocks_encrypt]
  exact Padding.unpad_append (by decide) (by decide) plaintext

/-- A body that the strict reader accepts is the body of what it reads. -/
theorem encrypt_of_openStrict {cipher : Cipher} {iv body plaintext : Bytes}
    (h : openStrict cipher iv body = .ok plaintext) : encrypt cipher iv plaintext = body := by
  unfold openStrict at h
  split at h
  · contradiction
  · rename_i opened
    obtain ⟨blocks, rfl, rfl⟩ := openBlocks_eq_ok opened
    have padded := Padding.append_of_unpadStrict ⟨_, Block.length_join _⟩ h
    rw [encrypt_eq, padded, Block.split_join, chain_unchain]

/-- A body behind other whole blocks and its vector opens to its plaintext behind other bytes. -/
theorem openStrict_behind (cipher : Cipher) (iv : Bytes) {front vector : Bytes}
    (whole : blockLength ∣ front.length) (one : vector.length = blockLength) (plaintext : Bytes) :
    ∃ opened : Bytes, opened.length = front.length + blockLength ∧
      openStrict cipher iv (front ++ vector ++ encrypt cipher vector plaintext) =
        .ok (opened ++ plaintext) := by
  obtain ⟨opened, length, resumed⟩ := openBlocks_resume cipher iv whole one
  refine ⟨opened, length, ?_⟩
  have aligned : blockLength ∣ opened.length := by
    rw [length]
    exact Nat.dvd_add whole (Nat.dvd_refl _)
  simp only [openStrict, resumed, openBlocks_encrypt, Except.map,
    ← Padding.append_append_of_dvd aligned]
  exact Padding.unpadStrict_append (by decide) (by decide) (opened ++ plaintext)

/-- What is behind a block of a body opens, under that block as the vector, to what is behind as
many bytes of the padded plaintext. -/
theorem openBlocks_rest {cipher : Cipher} {iv front vector rest plaintext : Bytes}
    (whole : blockLength ∣ front.length) (one : vector.length = blockLength)
    (parts : encrypt cipher iv plaintext = front ++ vector ++ rest) :
    ∃ opened tail : Bytes, opened.length = front.length + blockLength ∧
      openBlocks cipher vector rest = .ok tail ∧
      opened ++ tail = Padding.append blockLength plaintext := by
  obtain ⟨opened, length, resumed⟩ := openBlocks_resume cipher iv whole one
  have padded := openBlocks_encrypt cipher iv plaintext
  rw [parts, resumed] at padded
  cases behind : openBlocks cipher vector rest with
  | error error =>
    rw [behind] at padded
    contradiction
  | ok tail =>
    rw [behind] at padded
    exact ⟨opened, tail, length, rfl, Except.ok.inj padded⟩

/-- A body cut behind one of its blocks opens, under that block as the vector, to the plaintext
behind the blocks before the cut, if the cut is inside the plaintext. -/
theorem openStrict_rest_of_le {cipher : Cipher} {iv front vector rest plaintext : Bytes}
    (whole : blockLength ∣ front.length) (one : vector.length = blockLength)
    (parts : encrypt cipher iv plaintext = front ++ vector ++ rest)
    (inside : front.length + blockLength ≤ plaintext.length) :
    openStrict cipher vector rest = .ok (plaintext.drop (front.length + blockLength)) := by
  obtain ⟨opened, tail, length, behind, padded⟩ := openBlocks_rest whole one parts
  have aligned : blockLength ∣ opened.length := by
    rw [length]
    exact Nat.dvd_add whole (Nat.dvd_refl _)
  rw [← length] at inside ⊢
  rw [Padding.back_of_append_of_le aligned padded inside] at behind
  simp only [openStrict, behind]
  exact Padding.unpadStrict_append (by decide) (by decide) _

/-- A body cut behind its last block leaves nothing that can be unpadded. -/
theorem openStrict_rest_of_lt {cipher : Cipher} {iv front vector rest plaintext : Bytes}
    (whole : blockLength ∣ front.length) (one : vector.length = blockLength)
    (parts : encrypt cipher iv plaintext = front ++ vector ++ rest)
    (beyond : plaintext.length < front.length + blockLength) :
    openStrict cipher vector rest = .error (.corruptFraming .notPaddedBlocks) := by
  obtain ⟨opened, tail, length, behind, padded⟩ := openBlocks_rest whole one parts
  have aligned : blockLength ∣ opened.length := by
    rw [length]
    exact Nat.dvd_add whole (Nat.dvd_refl _)
  rw [← length] at beyond
  rw [Padding.back_of_append_of_lt (by decide) aligned padded beyond] at behind
  simp only [openStrict, behind]
  rfl

end AesTrials.Cbc
