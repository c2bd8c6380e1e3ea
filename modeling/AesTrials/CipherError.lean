/-!
# What can go wrong with a variant

An error names its cause; `CipherError.message` is its wording. Reports classify errors by
`FailureKind`, which adds one kind that no variant raises: a decryption that succeeded with the
wrong bytes.
-/

namespace AesTrials

/-- Why a run did not pass. -/
inductive FailureKind where
  /-- The key is not 16, 24 or 32 bytes. -/
  | invalidKeyLength
  /-- A vector was given where the variant draws its own, or is missing where it is required. -/
  | invalidArgument
  /-- The variant was used before a key was bound. -/
  | notInitialised
  /-- The declared lengths or the padding do not fit the message. -/
  | corruptFraming
  /-- The tag did not verify. -/
  | authenticationFailure
  /-- Decryption succeeded with bytes other than the plaintext. -/
  | roundTripMismatch
deriving DecidableEq, Repr, Inhabited

namespace FailureKind

/-- All kinds. -/
def all : List FailureKind :=
  [.invalidKeyLength, .invalidArgument, .notInitialised, .corruptFraming, .authenticationFailure,
    .roundTripMismatch]

/-- The name of the kind in data. -/
def code : FailureKind → String
  | .invalidKeyLength => "invalid_key_length"
  | .invalidArgument => "invalid_argument"
  | .notInitialised => "not_initialised"
  | .corruptFraming => "corrupt_framing"
  | .authenticationFailure => "authentication_failure"
  | .roundTripMismatch => "round_trip_mismatch"

/-- The kind that a code names. -/
def ofCode? (code : String) : Option FailureKind :=
  all.find? (fun kind => kind.code == code)

/-- The kind in words. -/
def text : FailureKind → String
  | .invalidKeyLength => "invalid key length"
  | .invalidArgument => "invalid argument"
  | .notInitialised => "variant not initialised"
  | .corruptFraming => "corrupt framing"
  | .authenticationFailure => "authentication failure"
  | .roundTripMismatch => "round-trip mismatch"

/-- Only a key of the wrong length is worth another try with other input. -/
def retryable : FailureKind → Bool
  | .invalidKeyLength => true
  | _ => false

/-- A code names its kind. -/
theorem ofCode?_code (kind : FailureKind) : ofCode? kind.code = some kind := by
  cases kind <;> decide

end FailureKind

/-- A breach of the contract between a variant and its caller. -/
inductive ArgumentFault where
  /-- A vector was given to the unauthenticated variant that draws its own. -/
  | vectorForCbc
  /-- A vector was given to the variant with a message code. -/
  | vectorForCbcHmac
  /-- A vector was given to a variant that manages its nonce. -/
  | vectorForAead
  /-- The raw variant was given no vector. -/
  | vectorMissing
  /-- The raw variant was given a vector that is not one block. -/
  | vectorNotOneBlock
  /-- The vector length passed to a variant that draws its own vector is not that of the
  variant. -/
  | foreignVectorLength
  /-- The vector length passed to the raw variant is not one block. -/
  | vectorLengthNotOneBlock
  /-- A fixed nonce does not have the length of the family. -/
  | fixedNonceLength
  /-- A padding byte cannot express the block size. -/
  | padBlockSize
  /-- A fault plan refuses the call. -/
  | refused
deriving DecidableEq, Repr, Inhabited

/-- The wording of an argument fault. -/
def ArgumentFault.text : ArgumentFault → String
  | .vectorForCbc => "AES-CBC generates its IV internally; pass no IV"
  | .vectorForCbcHmac => "AES-CBC-HMAC generates its IV internally; pass no IV"
  | .vectorForAead => "AEAD variant manages its nonce; pass no IV"
  | .vectorMissing => "raw AES-CBC requires a caller-supplied IV"
  | .vectorNotOneBlock => "raw AES-CBC IV must be exactly one block"
  | .foreignVectorLength => "variant tracks its own IV length; pass 0 as iv_len"
  | .vectorLengthNotOneBlock => "raw AES-CBC needs the caller's IV length (one block)"
  | .fixedNonceLength => "fixed nonce length does not match the construction"
  | .padBlockSize => "PKCS#7 block size must be 1..=255"
  | .refused => "encrypt refused"

/-- A message that does not have the shape it was declared to have. -/
inductive FramingFault where
  /-- The declared lengths add up to more than a 64-bit size. -/
  | lengthsOverflow
  /-- The message is shorter than its declared parts. -/
  | tooShort
  /-- The message is shorter than the tag at its end. -/
  | shorterThanTag
  /-- The ciphertext is not whole blocks, or does not end in strict padding. -/
  | notPaddedBlocks
  /-- There is no padding byte to read. -/
  | emptyPadding
  /-- The padding byte is zero. -/
  | zeroPadding
  /-- The padding is longer than the data. -/
  | paddingBeyondData
  /-- The padding is longer than a block. -/
  | paddingBeyondBlock
  /-- The text is not a Base64 encoding. -/
  | notBase64
  /-- The plaintext is not a UTF-8 encoding. -/
  | notUtf8
deriving DecidableEq, Repr, Inhabited

/-- The wording of a framing fault. -/
def FramingFault.text : FramingFault → String
  | .lengthsOverflow => "declared lengths overflow"
  | .tooShort => "message shorter than declared AAD, IV and tag lengths"
  | .shorterThanTag => "message shorter than MAC tag"
  | .notPaddedBlocks => "ciphertext is not validly padded whole blocks"
  | .emptyPadding => "padded buffer is empty"
  | .zeroPadding => "zero padding length"
  | .paddingBeyondData => "padding longer than buffer"
  | .paddingBeyondBlock => "padding longer than block"
  | .notBase64 => "message is not valid Base64"
  | .notUtf8 => "plaintext is not valid UTF-8"

/-- An error of a variant. -/
inductive CipherError where
  /-- The key has a length that AES does not take. -/
  | invalidKeyLength (length : Nat)
  /-- The caller broke the contract on vectors. -/
  | invalidArgument (fault : ArgumentFault)
  /-- No key is bound. -/
  | notInitialised
  /-- The message does not have the declared shape. -/
  | corruptFraming (fault : FramingFault)
  /-- The tag did not verify. -/
  | authenticationFailure
deriving DecidableEq, Repr, Inhabited

namespace CipherError

/-- The kind under which a report lists the error. -/
def kind : CipherError → FailureKind
  | .invalidKeyLength _ => .invalidKeyLength
  | .invalidArgument _ => .invalidArgument
  | .notInitialised => .notInitialised
  | .corruptFraming _ => .corruptFraming
  | .authenticationFailure => .authenticationFailure

/-- The wording of the error. -/
def message : CipherError → String
  | .invalidKeyLength length =>
    "invalid key length " ++ toString length ++ ": expected one of [16, 24, 32] bytes"
  | .invalidArgument fault => "invalid argument: " ++ fault.text
  | .notInitialised => "variant used before a key was bound"
  | .corruptFraming fault => "corrupt framing: " ++ fault.text
  | .authenticationFailure => "authentication failed"

end CipherError

end AesTrials
