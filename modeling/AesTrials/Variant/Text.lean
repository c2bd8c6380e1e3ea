import AesTrials.Text.Base64
import AesTrials.Variant.Basic

/-!
# Texts through a variant

Plaintext and additional data go in as UTF-8 and the message comes out as Base64. No vector is
passed, so the variants that need one from the caller refuse.
-/

namespace AesTrials.Variant

/-- The message of a text as Base64, and the entropy left. -/
def encryptText (variant : Variant) (entropy : Entropy) (plaintext : String)
    (aad : Option String) : Except CipherError String × Entropy :=
  match variant.encrypt entropy (Bytes.ofText plaintext) none (aad.map Bytes.ofText) with
  | (.error error, entropy) => (.error error, entropy)
  | (.ok message, entropy) => (.ok (String.ofList (Base64.encode message)), entropy)

/-- The text of a message in Base64. -/
def decryptText (variant : Variant) (message : String) (aadLength : Nat) :
    Except CipherError String :=
  match Base64.decode? message.toList with
  | none => .error (.corruptFraming .notBase64)
  | some bytes =>
    match variant.decrypt bytes 0 aadLength with
    | .error error => .error error
    | .ok plaintext =>
      match Bytes.toText? plaintext with
      | none => .error (.corruptFraming .notUtf8)
      | some text => .ok text

end AesTrials.Variant
