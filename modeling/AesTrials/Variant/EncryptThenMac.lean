import AesTrials.Variant.Basic

/-!
# Encrypt, then authenticate

The variant with a message code, put together from the one without: an inner variant enciphers, and
the code of its whole message stands at the end. The code's key and the width of the bound key are
kept beside the inner variant and set one after the other, so that a key that is refused on the way
must leave none of the three behind. A message is cut twice: once with its tag, to find the code
that is given, and again without it, by the inner variant, once that code has verified.
-/

namespace AesTrials

/-- An inner variant, and what is derived from its key beside it. -/
structure EncryptThenMac where
  /-- The variant that enciphers. -/
  inner : Variant
  /-- The key of the message code, if a key is bound. -/
  macKey : Option Bytes
  /-- The width shown in the name, if a key is bound. -/
  width : Option KeyWidth
deriving DecidableEq, Repr, Inhabited

namespace EncryptThenMac

/-- The layers without a key. -/
def new : EncryptThenMac := ⟨.new .cbc, none, none⟩

/-- The display name. -/
def name (layers : EncryptThenMac) : String := Family.cbcHmac.displayName layers.width

/-- The layers after a key was bound: everything derived from an older key is dropped first, then
the inner variant, the key of the code and the width are set in turn. -/
def bind (layers : EncryptThenMac) (key : Bytes) : Except CipherError Unit × EncryptThenMac :=
  let layers := { layers with inner := .new .cbc }
  let layers := { layers with macKey := none }
  let layers := { layers with width := none }
  match KeyWidth.ofByteLength key.length with
  | .error error => (.error error, layers)
  | .ok width =>
    match layers.inner.bind key with
    | (.error error, inner) => (.error error, { layers with inner })
    | (.ok (), inner) =>
      let layers := { layers with inner }
      let layers := { layers with macKey := some (Hmac.tag key macKeyLabel) }
      (.ok (), { layers with width := some width })

/-- The message of the inner variant followed by its code, and the entropy left. -/
def encrypt (layers : EncryptThenMac) (entropy : Entropy) (plaintext : Bytes)
    (iv aad : Option Bytes) : Except CipherError Bytes × Entropy :=
  match Family.cbcHmac.vectorFault? iv, layers.macKey with
  | some fault, _ => (.error (.invalidArgument fault), entropy)
  | none, none => (.error .notInitialised, entropy)
  | none, some macKey =>
    match layers.inner.encrypt entropy plaintext none aad with
    | (.error error, entropy) => (.error error, entropy)
    | (.ok message, entropy) => (.ok (message ++ Hmac.tag macKey message), entropy)

/-- The plaintext of a message whose code verifies, as the inner variant decrypts what is in front
of the code. -/
def decrypt (layers : EncryptThenMac) (message : Bytes) (ivLength aadLength : Nat) :
    Except CipherError Bytes :=
  match Family.cbcHmac.vectorLengthFault? ivLength, layers.macKey with
  | some fault, _ => .error (.invalidArgument fault)
  | none, none => .error .notInitialised
  | none, some macKey =>
    match Frame.split message aadLength Aes.blockLength Hmac.tagLength with
    | .error error => .error error
    | .ok frame =>
      match Frame.untaggedLength? message Hmac.tagLength with
      | none => .error (.corruptFraming .shorterThanTag)
      | some length =>
        let covered := message.take length
        if Hmac.tag macKey covered == frame.tag then layers.inner.decrypt covered 0 aadLength
        else .error .authenticationFailure

end EncryptThenMac

end AesTrials
