import AesTrials.Hash.Sha256

/-!
# Message codes from SHA-256

The code of a message is a digest of the key and a digest of the key and the message, with the key
masked differently in the two.
-/

namespace AesTrials.Hmac

/-- Bytes in a block of the hash. -/
def blockLength : Nat := 64

/-- Bytes in a code. -/
def tagLength : Nat := 32

/-- The key at the length of a block: digested if it is longer, then filled up with zeros. -/
def blockKey (key : Bytes) : Bytes :=
  let short := if blockLength < key.length then Sha256.digest key else key
  short ++ List.replicate (blockLength - short.length) 0

/-- The key with a mask added to every byte. -/
def maskedKey (mask : UInt8) (key : Bytes) : Bytes :=
  (blockKey key).map fun byte => byte ^^^ mask

/-- The code of a message under a key. -/
def tag (key message : Bytes) : Bytes :=
  Sha256.digest (maskedKey 0x5c key ++ Sha256.digest (maskedKey 0x36 key ++ message))

end AesTrials.Hmac
