import AesTrials.Gcm.Field
import AesTrials.Mode.Counter

/-!
# Galois counter mode

The body is the plaintext in counter mode. The tag is the hash of the additional data, the body
and their lengths, added to the encipherment of the first counter block. Nonces of 96 bits are the
counter block but for its last word; others are hashed into one.
-/

namespace AesTrials.Gcm

open Aes

/-- Bytes in a tag. -/
def tagLength : Nat := 16

/-- The largest number of bytes that is encrypted, or authenticated beside a plaintext, under one
nonce. -/
def sizeBound : Nat := Nat.pow 2 36

/-- The key of the hash: the encipherment of zero. -/
def hashKey (cipher : Cipher) : Element :=
  .ofBlock (cipher.encipher .zero)

/-- The lengths in bits of two byte strings as one block. -/
def lengthBlock (first second : Nat) : Block :=
  Block.ofBytes (Bytes.ofBigDouble (UInt64.ofNat (8 * first)) ++
    Bytes.ofBigDouble (UInt64.ofNat (8 * second)))

/-- The counter block before the first block of the keystream. -/
def startBlock (cipher : Cipher) (nonce : Bytes) : Block :=
  if nonce.length = 12 then Block.ofBytes (nonce ++ [0, 0, 0, 1])
  else (hash (hashKey cipher) (Block.fill nonce ++ [lengthBlock 0 nonce.length])).toBlock

/-- The tag of a body and its additional data. -/
def tag (cipher : Cipher) (nonce aad body : Bytes) : Bytes :=
  let digest := hash (hashKey cipher)
    (Block.fill aad ++ Block.fill body ++ [lengthBlock aad.length body.length])
  (digest.toBlock ^^^ cipher.encipher (startBlock cipher nonce)).toBytes

/-- The text with the keystream of the nonce added. -/
def crypt (cipher : Cipher) (nonce text : Bytes) : Bytes :=
  let start := startBlock cipher nonce
  Counter.apply cipher (fun step => Counter.bigEndian start (step + 1)) text

/-- The body and the tag of a plaintext, unless it or its additional data is too long. -/
def encrypt (cipher : Cipher) (nonce aad plaintext : Bytes) :
    Except CipherError (Bytes × Bytes) :=
  if sizeBound < plaintext.length ∨ sizeBound < aad.length then .error .authenticationFailure
  else
    let body := crypt cipher nonce plaintext
    .ok (body, tag cipher nonce aad body)

/-- The plaintext of a body, if its tag verifies and it is not too long. -/
def decrypt (cipher : Cipher) (nonce aad body given : Bytes) : Except CipherError Bytes :=
  if sizeBound + tagLength < body.length ∨ sizeBound < aad.length then
    .error .authenticationFailure
  else if tag cipher nonce aad body == given then .ok (crypt cipher nonce body)
  else .error .authenticationFailure

end AesTrials.Gcm
