import AesTrials.Aes.Cipher
import AesTrials.Padding

/-!
# Cipher block chaining

Each block is added to the ciphertext before it, starting from the vector, and enciphered; the last
block is closed by PKCS#7 padding. There are two writers. `encrypt` chains the whole blocks of the
plaintext as they are and closes the bytes behind them, `encryptPadded` pads the plaintext first and
chains the result with nothing added. There are two readers. `openStrict` rejects every malformed
body alike, `openLenient` checks only that the padding fits and says what is wrong with it.
-/

namespace AesTrials.Cbc

open Aes

/-- The ciphertext blocks so far in reverse and the block that the next one is chained to. -/
def chainStep (cipher : Cipher) (state : List Block × Block) (plain : Block) :
    List Block × Block :=
  let enciphered := cipher.encipher (plain ^^^ state.2)
  (enciphered :: state.1, enciphered)

/-- The blocks enciphered in a chain that starts at the vector. -/
def chain (cipher : Cipher) (iv : Block) (plain : List Block) : List Block :=
  (plain.foldl (chainStep cipher) ([], iv)).1.reverse

/-- The blocks of a chain that starts at the vector, deciphered. -/
def unchain (cipher : Cipher) (iv : Block) (enciphered : List Block) : List Block :=
  List.zipWith (fun block before => cipher.decipher block ^^^ before) enciphered
    (iv :: enciphered)

/-- A body of whole blocks deciphered; a body that ends inside a block is refused. -/
def openBlocks (cipher : Cipher) (iv body : Bytes) : Except CipherError Bytes :=
  match Block.split body with
  | (blocks, []) => .ok (Block.join (unchain cipher (Block.ofBytes iv) blocks))
  | _ => .error (.corruptFraming .notPaddedBlocks)

/-- The block that ends a padded plaintext: the bytes behind its whole blocks, and behind them as
many bytes as are missing, each of which is that number. -/
def closingBlock (rest : Bytes) : Block :=
  let missing := blockLength - rest.length
  Block.ofBytes (rest ++ List.replicate missing (UInt8.ofNat missing))

/-- The whole blocks of the plaintext enciphered, and behind them the one that padding closes. -/
def encrypt (cipher : Cipher) (iv plaintext : Bytes) : Bytes :=
  let (whole, rest) := Block.split plaintext
  Block.join (chain cipher (Block.ofBytes iv) (whole ++ [closingBlock rest]))

/-- Whole blocks enciphered with nothing added to them. There is no encoding of data that ends
inside a block, so that the caller shows that its data does not. -/
def encryptBlocks (cipher : Cipher) (iv data : Bytes) (_whole : blockLength ∣ data.length) :
    Bytes :=
  Block.join (chain cipher (Block.ofBytes iv) (Block.split data).1)

/-- The plaintext padded first, and then enciphered with nothing added. -/
def encryptPadded (cipher : Cipher) (iv plaintext : Bytes) : Except CipherError Bytes :=
  match padding : Padding.pad blockLength plaintext with
  | .error error => .error error
  | .ok padded =>
    .ok (encryptBlocks cipher iv padded (Padding.dvd_length_of_pad (by decide) padding))

/-- The body deciphered, if it is whole blocks that end in strict padding. -/
def openStrict (cipher : Cipher) (iv body : Bytes) : Except CipherError Bytes :=
  match openBlocks cipher iv body with
  | .error error => .error error
  | .ok padded => Padding.unpadStrict blockLength padded

/-- The body deciphered and as many bytes taken off as the last one says. -/
def openLenient (cipher : Cipher) (iv body : Bytes) : Except CipherError Bytes :=
  match openBlocks cipher iv body with
  | .error error => .error error
  | .ok padded => Padding.unpad blockLength padded

/-- The chain of the blocks, one at a time. -/
theorem chain_cons (cipher : Cipher) (iv block : Block) (plain : List Block) :
    chain cipher iv (block :: plain) =
      cipher.encipher (block ^^^ iv) :: chain cipher (cipher.encipher (block ^^^ iv)) plain := by
  have carried (done : List Block) (before : Block) (blocks : List Block) :
      (blocks.foldl (chainStep cipher) (done, before)).1 =
        (blocks.foldl (chainStep cipher) ([], before)).1 ++ done := by
    induction blocks generalizing done before with
    | nil => simp
    | cons next blocks ih =>
      simp only [List.foldl_cons, chainStep]
      rw [ih (cipher.encipher (next ^^^ before) :: done), ih [cipher.encipher (next ^^^ before)]]
      simp
  simp only [chain, List.foldl_cons, chainStep]
  rw [carried]
  simp

/-- Undoing a chain gives the blocks back. -/
theorem unchain_chain (cipher : Cipher) (iv : Block) (plain : List Block) :
    unchain cipher iv (chain cipher iv plain) = plain := by
  induction plain generalizing iv with
  | nil => rfl
  | cons block plain ih =>
    have rest := ih (cipher.encipher (block ^^^ iv))
    simp only [unchain] at rest ⊢
    rw [chain_cons, List.zipWith_cons_cons, rest, Cipher.decipher_encipher,
      Block.xor_xor_cancel_right]

/-- A chain of the blocks of an undone chain gives that chain back. -/
theorem chain_unchain (cipher : Cipher) (iv : Block) (enciphered : List Block) :
    chain cipher iv (unchain cipher iv enciphered) = enciphered := by
  induction enciphered generalizing iv with
  | nil => rfl
  | cons block enciphered ih =>
    have rest := ih block
    simp only [unchain, List.zipWith_cons_cons] at rest ⊢
    rw [chain_cons, Block.xor_xor_cancel_right, Cipher.encipher_decipher, rest]

end AesTrials.Cbc
