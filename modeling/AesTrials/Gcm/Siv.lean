import AesTrials.Gcm.Gcm

/-!
# Galois counter mode with a synthetic vector

Every nonce has its own hash key and cipher, derived from the bound key. The tag is computed from
the plaintext and then starts the counter, so that equal nonces reveal no more than equal messages.
-/

namespace AesTrials.GcmSiv

open Aes Gcm

/-- The block with its bytes in reverse. -/
def reverseBlock (block : Block) : Block :=
  Block.ofBytes block.toBytes.reverse

/-- The hash with the opposite byte order, expressed by the hash of the counter mode. -/
def hash (key : Block) (blocks : List Block) : Block :=
  let reversedKey := (Element.ofBlock (reverseBlock key)).timesX
  reverseBlock (Gcm.hash reversedKey (blocks.map reverseBlock)).toBlock

/-- The block of a position: the position, least significant byte first, and the nonce. -/
def positionBlock (nonce : Bytes) (position : Nat) : Block :=
  Block.ofBytes (Bytes.ofLittleWord (UInt32.ofNat position) ++ nonce)

/-- Derived bytes: the first half of the encipherment of each position. -/
def derive (cipher : Cipher) (nonce : Bytes) (positions : List Nat) : Bytes :=
  positions.flatMap fun position =>
    (cipher.encipher (positionBlock nonce position)).toBytes.take 8

/-- The key of the hash for a nonce. -/
def hashKey (cipher : Cipher) (nonce : Bytes) : Block :=
  Block.ofBytes (derive cipher nonce [0, 1])

/-- The cipher for a nonce, of the width of the bound key. -/
def messageCipher (cipher : Cipher) (nonce : Bytes) : Cipher :=
  Cipher.ofKey cipher.width
    (derive cipher nonce ((List.range (cipher.width.byteLength / 8)).map fun i => i + 2))

/-- The lengths in bits of two byte strings as one block. -/
def lengthBlock (first second : Nat) : Block :=
  Block.ofBytes (Bytes.ofLittleDouble (UInt64.ofNat (8 * first)) ++
    Bytes.ofLittleDouble (UInt64.ofNat (8 * second)))

/-- The block with the most significant bit of its last byte cleared. -/
def clearTop (block : Block) : Block :=
  { block with c₃ := { block.c₃ with r₃ := block.c₃.r₃ &&& 0x7f } }

/-- The block with the most significant bit of its last byte set. -/
def setTop (block : Block) : Block :=
  { block with c₃ := { block.c₃ with r₃ := block.c₃.r₃ ||| 0x80 } }

/-- The tag of a plaintext and its additional data. -/
def tag (cipher : Cipher) (nonce aad plaintext : Bytes) : Bytes :=
  let digest := hash (hashKey cipher nonce)
    (Block.fill aad ++ Block.fill plaintext ++ [lengthBlock aad.length plaintext.length])
  ((messageCipher cipher nonce).encipher (clearTop (digest ^^^ Block.ofBytes nonce))).toBytes

/-- The text with the keystream of a tag added. -/
def crypt (cipher : Cipher) (nonce tag text : Bytes) : Bytes :=
  Counter.apply (messageCipher cipher nonce) (Counter.littleEndian (setTop (Block.ofBytes tag)))
    text

/-- The body and the tag of a plaintext, unless it or its additional data is too long. -/
def encrypt (cipher : Cipher) (nonce aad plaintext : Bytes) :
    Except CipherError (Bytes × Bytes) :=
  if sizeBound < plaintext.length ∨ sizeBound < aad.length then .error .authenticationFailure
  else
    let tag := tag cipher nonce aad plaintext
    .ok (crypt cipher nonce tag plaintext, tag)

/-- The plaintext of a body, if the tag of that plaintext is the given one and it is not too
long. -/
def decrypt (cipher : Cipher) (nonce aad body given : Bytes) : Except CipherError Bytes :=
  if sizeBound + tagLength < body.length ∨ sizeBound < aad.length then
    .error .authenticationFailure
  else
    let plaintext := crypt cipher nonce given body
    if tag cipher nonce aad plaintext == given then .ok plaintext
    else .error .authenticationFailure

end AesTrials.GcmSiv
