import AesTrials.Variant.EncryptThenMac

/-!
# What a trial runs

A trial knows its subject only through four functions on a state. A variant is such a subject, its
state the variant itself and the entropy it draws from, and so are the layers of one.
-/

namespace AesTrials

/-- Anything that can be bound to a key, encrypt and decrypt. -/
structure Subject (σ : Type) where
  /-- The display name in a state. -/
  name : σ → String
  /-- Bind a key. -/
  bind : σ → Bytes → Except CipherError Unit × σ
  /-- Encrypt a plaintext, given an optional vector and optional additional data. -/
  encrypt : σ → Bytes → Option Bytes → Option Bytes → Except CipherError Bytes × σ
  /-- Decrypt a message, given the lengths of its vector and its additional data. -/
  decrypt : σ → Bytes → Nat → Nat → Except CipherError Bytes × σ

/-- A variant as the subject of a trial. -/
def Variant.subject : Subject (Variant × Entropy) where
  name state := state.1.name
  bind state key :=
    let (answer, variant) := state.1.bind key
    (answer, variant, state.2)
  encrypt state plaintext iv aad :=
    let (answer, entropy) := state.1.encrypt state.2 plaintext iv aad
    (answer, state.1, entropy)
  decrypt state message ivLength aadLength :=
    (state.1.decrypt message ivLength aadLength, state)

/-- The layers of a variant with a message code as the subject of a trial. -/
def EncryptThenMac.subject : Subject (EncryptThenMac × Entropy) where
  name state := state.1.name
  bind state key :=
    let (answer, layers) := state.1.bind key
    (answer, layers, state.2)
  encrypt state plaintext iv aad :=
    let (answer, entropy) := state.1.encrypt state.2 plaintext iv aad
    (answer, state.1, entropy)
  decrypt state message ivLength aadLength :=
    (state.1.decrypt message ivLength aadLength, state)

end AesTrials
