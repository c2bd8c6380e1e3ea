import AesTrials.Gcm.Siv
import AesTrials.Hash.Hmac

/-!
# Authenticated bodies

Message codes and tags have their lengths. In both constructions that encrypt and authenticate in
one, what is sealed opens, and what opens was sealed: the tag that is checked is the tag that
sealing the opened text gives.
-/

namespace AesTrials

/-- A digest has as many bytes as a code. -/
theorem Sha256.length_digest (message : Bytes) : (digest message).length = Hmac.tagLength := by
  simp only [digest, State.toBytes, List.flatMap_cons, List.flatMap_nil, List.length_append]
  rfl

/-- A code has its length. -/
theorem Hmac.length_tag (key message : Bytes) : (tag key message).length = tagLength :=
  Sha256.length_digest _

namespace Gcm

/-- What is sealed has a tag of its length. -/
theorem length_tag (cipher : Aes.Cipher) (nonce aad body : Bytes) :
    (tag cipher nonce aad body).length = tagLength := rfl

/-- A text keeps its length. -/
theorem length_crypt (cipher : Aes.Cipher) (nonce text : Bytes) :
    (crypt cipher nonce text).length = text.length :=
  Counter.length_apply _ _ _

/-- The keystream added twice gives the text back. -/
theorem crypt_crypt (cipher : Aes.Cipher) (nonce text : Bytes) :
    crypt cipher nonce (crypt cipher nonce text) = text :=
  Counter.apply_apply _ _ _

/-- Lengths within the bound are sealed. -/
theorem encrypt_eq_ok {plaintext aad : Bytes} (plain : plaintext.length ≤ sizeBound)
    (beside : aad.length ≤ sizeBound) (cipher : Aes.Cipher) (nonce : Bytes) :
    encrypt cipher nonce aad plaintext =
      .ok (crypt cipher nonce plaintext,
        tag cipher nonce aad (crypt cipher nonce plaintext)) := by
  rw [encrypt, if_neg (by omega)]

/-- What is sealed opens. -/
theorem decrypt_of_encrypt {cipher : Aes.Cipher} {nonce aad plaintext body given : Bytes}
    (sealed : encrypt cipher nonce aad plaintext = .ok (body, given)) :
    decrypt cipher nonce aad body given = .ok plaintext := by
  unfold encrypt at sealed
  split at sealed
  · contradiction
  · cases sealed
    rw [decrypt, if_neg (by rw [length_crypt]; omega), if_pos (beq_self_eq_true _), crypt_crypt]

/-- What opens was sealed, if its body is within the bound. -/
theorem encrypt_of_decrypt {cipher : Aes.Cipher} {nonce aad plaintext body given : Bytes}
    (bounded : body.length ≤ sizeBound)
    (opened : decrypt cipher nonce aad body given = .ok plaintext) :
    encrypt cipher nonce aad plaintext = .ok (body, given) := by
  unfold decrypt at opened
  split at opened
  · contradiction
  · split at opened
    · rename_i verified
      cases opened
      rw [encrypt_eq_ok (by rw [length_crypt]; exact bounded) (by omega), crypt_crypt,
        eq_of_beq verified]
    · contradiction

end Gcm

namespace GcmSiv

open Gcm (sizeBound tagLength)

/-- What is sealed has a tag of its length. -/
theorem length_tag (cipher : Aes.Cipher) (nonce aad plaintext : Bytes) :
    (tag cipher nonce aad plaintext).length = tagLength := rfl

/-- A text keeps its length. -/
theorem length_crypt (cipher : Aes.Cipher) (nonce tag text : Bytes) :
    (crypt cipher nonce tag text).length = text.length :=
  Counter.length_apply _ _ _

/-- The keystream added twice gives the text back. -/
theorem crypt_crypt (cipher : Aes.Cipher) (nonce tag text : Bytes) :
    crypt cipher nonce tag (crypt cipher nonce tag text) = text :=
  Counter.apply_apply _ _ _

/-- Lengths within the bound are sealed. -/
theorem encrypt_eq_ok {plaintext aad : Bytes} (plain : plaintext.length ≤ sizeBound)
    (beside : aad.length ≤ sizeBound) (cipher : Aes.Cipher) (nonce : Bytes) :
    encrypt cipher nonce aad plaintext =
      .ok (crypt cipher nonce (tag cipher nonce aad plaintext) plaintext,
        tag cipher nonce aad plaintext) := by
  rw [encrypt, if_neg (by omega)]

/-- What is sealed opens. -/
theorem decrypt_of_encrypt {cipher : Aes.Cipher} {nonce aad plaintext body given : Bytes}
    (sealed : encrypt cipher nonce aad plaintext = .ok (body, given)) :
    decrypt cipher nonce aad body given = .ok plaintext := by
  unfold encrypt at sealed
  split at sealed
  · contradiction
  · cases sealed
    simp only [decrypt, crypt_crypt]
    rw [if_neg (by rw [length_crypt]; omega), if_pos (beq_self_eq_true _)]

/-- What opens was sealed, if its body is within the bound. -/
theorem encrypt_of_decrypt {cipher : Aes.Cipher} {nonce aad plaintext body given : Bytes}
    (bounded : body.length ≤ sizeBound)
    (opened : decrypt cipher nonce aad body given = .ok plaintext) :
    encrypt cipher nonce aad plaintext = .ok (body, given) := by
  simp only [decrypt] at opened
  split at opened
  · contradiction
  · split at opened
    · rename_i verified
      cases opened
      rw [encrypt_eq_ok (by rw [length_crypt]; exact bounded) (by omega), eq_of_beq verified,
        crypt_crypt]
    · contradiction

end GcmSiv

end AesTrials
