import AesTrials.CipherError
import AesTrials.Gcm.Gcm
import AesTrials.Hash.Hmac

/-!
# Families of variants

A family is a construction at any key width. It fixes the lengths of vector and tag, who supplies
the vector, and the names under which the variant is chosen and shown.
-/

namespace AesTrials

/-- A construction independent of the key width. -/
inductive Family where
  /-- Cipher block chaining under a drawn vector, without a tag. -/
  | cbc
  /-- Cipher block chaining followed by a message code. -/
  | cbcHmac
  /-- Cipher block chaining under a vector of the caller, padding read leniently. -/
  | cbcRaw
  /-- Galois counter mode with a nonce of 96 bits. -/
  | gcm
  /-- Galois counter mode with a nonce of 128 bits. -/
  | gcmWide
  /-- Galois counter mode with a synthetic vector. -/
  | gcmSiv
deriving DecidableEq, Repr, Inhabited

/-- Where the vector of a message comes from. -/
inductive NonceSource where
  /-- The variant draws it; the caller passes none. -/
  | internal
  /-- The caller passes it with every message. -/
  | external
deriving DecidableEq, Repr, Inhabited

namespace Family

/-- Every family, in suite order. -/
def all : List Family := [.cbc, .cbcHmac, .cbcRaw, .gcm, .gcmWide, .gcmSiv]

/-- The name in selectors. -/
def id : Family → String
  | .cbc => "cbc"
  | .cbcHmac => "cbc-hmac"
  | .cbcRaw => "cbc-raw"
  | .gcm => "gcm"
  | .gcmWide => "gcm-n128"
  | .gcmSiv => "gcm-siv"

/-- The last part of the display name. -/
def label : Family → String
  | .cbc => "CBC"
  | .cbcHmac => "CBC-HMACSHA256"
  | .cbcRaw => "CBC-PKCS7"
  | .gcm => "GCM"
  | .gcmWide => "GCM-N128"
  | .gcmSiv => "GCM-SIV"

/-- Who supplies the vector. -/
def nonceSource : Family → NonceSource
  | .cbcRaw => .external
  | _ => .internal

/-- Bytes of the vector in a message. -/
def nonceLength : Family → Nat
  | .cbc | .cbcHmac | .cbcRaw | .gcmWide => 16
  | .gcm | .gcmSiv => 12

/-- Bytes of the tag in a message. -/
def tagLength : Family → Nat
  | .cbc | .cbcRaw => 0
  | .cbcHmac => Hmac.tagLength
  | .gcm | .gcmWide | .gcmSiv => Gcm.tagLength

/-- Whether the family encrypts and authenticates in one construction, and may be given a fixed
nonce. -/
def isAead : Family → Bool
  | .gcm | .gcmWide | .gcmSiv => true
  | .cbc | .cbcHmac | .cbcRaw => false

/-- The name shown for a variant, with the width of its key if one is bound. -/
def displayName (family : Family) : Option KeyWidth → String
  | some width => "AES" ++ toString width.bits ++ "-" ++ family.label
  | none => "AES-" ++ family.label

end Family

end AesTrials
