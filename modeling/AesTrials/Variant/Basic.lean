import AesTrials.Entropy
import AesTrials.Family
import AesTrials.Frame
import AesTrials.Gcm.Siv
import AesTrials.Hash.Hmac
import AesTrials.Mode.Cbc
import AesTrials.Selector

/-!
# Variants

A variant is a family, perhaps with a fixed nonce, to which a key is bound. Every variant answers
the same three calls. Arguments are checked before the key, so a call that breaks the contract
fails in the same way with and without a key; a vector is drawn only once both are in order.
-/

namespace AesTrials

/-- What is derived from a bound key. -/
structure Keyed where
  /-- The expanded key. -/
  cipher : Aes.Cipher
  /-- The key of the message code; empty in the families without one. -/
  macKey : Bytes
deriving DecidableEq, Repr, Inhabited

/-- A variant and the key bound to it. -/
structure Variant where
  /-- The construction. -/
  family : Family
  /-- The nonce used for every message, if it is fixed. -/
  fixedNonce : Option Bytes
  /-- The bound key, if there is one. -/
  keyed : Option Keyed
deriving DecidableEq, Repr, Inhabited

/-- The label from which the key of the message code is derived. -/
def macKeyLabel : Bytes := Bytes.ofText "cipher-bench/aes-cbc-hmac/mac-key"

namespace Family

/-- What the family derives from a key. -/
def derive (family : Family) (key : Bytes) : Except CipherError Keyed :=
  match KeyWidth.ofByteLength key.length with
  | .error error => .error error
  | .ok width =>
    .ok { cipher := Aes.Cipher.ofKey width key
          macKey := if family = .cbcHmac then Hmac.tag key macKeyLabel else [] }

/-- The body and the tag of a plaintext under a vector. -/
def encrypt (family : Family) (keyed : Keyed) (iv aad plaintext : Bytes) :
    Except CipherError (Bytes × Bytes) :=
  match family with
  | .cbc => .ok (Cbc.encrypt keyed.cipher iv plaintext, [])
  | .cbcRaw =>
    match Cbc.encryptPadded keyed.cipher iv plaintext with
    | .error error => .error error
    | .ok body => .ok (body, [])
  | .cbcHmac =>
    let body := Cbc.encrypt keyed.cipher iv plaintext
    .ok (body, Hmac.tag keyed.macKey (aad ++ iv ++ body))
  | .gcm | .gcmWide => Gcm.encrypt keyed.cipher iv aad plaintext
  | .gcmSiv => GcmSiv.encrypt keyed.cipher iv aad plaintext

/-- The plaintext of the parts of a message. -/
def decrypt (family : Family) (keyed : Keyed) (frame : Frame) : Except CipherError Bytes :=
  match family with
  | .cbc => Cbc.openStrict keyed.cipher frame.iv frame.body
  | .cbcRaw => Cbc.openLenient keyed.cipher frame.iv frame.body
  | .cbcHmac =>
    if Hmac.tag keyed.macKey (frame.aad ++ frame.iv ++ frame.body) == frame.tag then
      Cbc.openStrict keyed.cipher frame.iv frame.body
    else .error .authenticationFailure
  | .gcm | .gcmWide => Gcm.decrypt keyed.cipher frame.iv frame.aad frame.body frame.tag
  | .gcmSiv => GcmSiv.decrypt keyed.cipher frame.iv frame.aad frame.body frame.tag

/-- What is wrong with the vector passed to an encryption, if anything. -/
def vectorFault? (family : Family) (iv : Option Bytes) : Option ArgumentFault :=
  match family, iv with
  | .cbcRaw, none => some .vectorMissing
  | .cbcRaw, some iv => if iv.length = Aes.blockLength then none else some .vectorNotOneBlock
  | _, none => none
  | .cbc, some _ => some .vectorForCbc
  | .cbcHmac, some _ => some .vectorForCbcHmac
  | .gcm, some _ | .gcmWide, some _ | .gcmSiv, some _ => some .vectorForAead

/-- What is wrong with the vector length passed to a decryption, if anything. -/
def vectorLengthFault? (family : Family) (ivLength : Nat) : Option ArgumentFault :=
  match family.nonceSource with
  | .internal =>
    if ivLength = 0 ∨ ivLength = family.nonceLength then none else some .foreignVectorLength
  | .external => if ivLength = family.nonceLength then none else some .vectorLengthNotOneBlock

end Family

namespace Variant

/-- The variant without a key. -/
def new (family : Family) : Variant := ⟨family, none, none⟩

/-- The variant without a key that uses one nonce for every message. -/
def withNonce (family : Family) (nonce : Bytes) : Except CipherError Variant :=
  if nonce.length = family.nonceLength then .ok ⟨family, some nonce, none⟩
  else .error (.invalidArgument .fixedNonceLength)

/-- The display name. -/
def name (variant : Variant) : String :=
  variant.family.displayName (variant.keyed.map fun keyed => keyed.cipher.width)

/-- The variant after a key was bound, or left without one because the key was refused, and what
was wrong with the key. -/
def bind (variant : Variant) (key : Bytes) : Except CipherError Unit × Variant :=
  match variant.family.derive key with
  | .error error => (.error error, { variant with keyed := none })
  | .ok keyed => (.ok (), { variant with keyed := some keyed })

/-- The vector of the next message: the one passed, the fixed one, or one that is drawn. -/
def nextVector (variant : Variant) (iv : Option Bytes) (entropy : Entropy) : Bytes × Entropy :=
  match iv, variant.fixedNonce with
  | some iv, _ => (iv, entropy)
  | none, some nonce => (nonce, entropy)
  | none, none => entropy.draw variant.family.nonceLength

/-- The message of a plaintext, and the entropy left. -/
def encrypt (variant : Variant) (entropy : Entropy) (plaintext : Bytes) (iv aad : Option Bytes) :
    Except CipherError Bytes × Entropy :=
  match variant.family.vectorFault? iv, variant.keyed with
  | some fault, _ => (.error (.invalidArgument fault), entropy)
  | none, none => (.error .notInitialised, entropy)
  | none, some keyed =>
    let (iv, entropy) := variant.nextVector iv entropy
    let aad := aad.getD []
    match variant.family.encrypt keyed iv aad plaintext with
    | .error error => (.error error, entropy)
    | .ok (body, tag) => (.ok (Frame.join { aad, iv, body, tag }), entropy)

/-- The plaintext of a message cut at the lengths that the caller kept. -/
def decrypt (variant : Variant) (message : Bytes) (ivLength aadLength : Nat) :
    Except CipherError Bytes :=
  match variant.family.vectorLengthFault? ivLength, variant.keyed with
  | some fault, _ => .error (.invalidArgument fault)
  | none, none => .error .notInitialised
  | none, some keyed =>
    match Frame.split message aadLength variant.family.nonceLength variant.family.tagLength with
    | .error error => .error error
    | .ok frame => variant.family.decrypt keyed frame

/-- A description for diagnostics that shows no key and no nonce. -/
def describe (variant : Variant) : String :=
  let fixed := if variant.fixedNonce.isSome then "true" else "false"
  "AeadEncryptor \x7b name: \"" ++ variant.name ++ "\", fixed_nonce: " ++ fixed ++ " \x7d"

end Variant

/-- A fresh variant of the family that a selector names. -/
def Selector.build (selector : Selector) : Variant := .new selector.family

end AesTrials
