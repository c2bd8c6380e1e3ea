import AesTrials.CipherError
import AesTrials.Duration

/-!
# Reports

A report holds the parameters of a benchmark and one result for each variant, in the order in
which they ran.
-/

namespace AesTrials

/-- Sizes and repetitions of a benchmark. -/
structure Params where
  /-- Plaintext length in bytes. -/
  payloadSize : Nat
  /-- Additional data length in bytes. -/
  aadSize : Nat
  /-- Encrypt and decrypt cycles for each variant. -/
  iterations : Nat
deriving DecidableEq, Repr, Inhabited

/-- The parameters used unless others are set. -/
def Params.standard : Params := ⟨10, 0, 100⟩

/-- Why a run failed. -/
structure Failure where
  /-- The kind of failure. -/
  kind : FailureKind
  /-- The failure in words. -/
  detail : String
deriving DecidableEq, Repr, Inhabited

/-- The failure that an error of a variant amounts to. -/
def Failure.ofError (error : CipherError) : Failure := ⟨error.kind, error.message⟩

/-- The words for a decryption that succeeded with other bytes than the plaintext. -/
def mismatchDetail : String := "Decrypting encrypted data doesn't return original information!"

/-- The failure of a decryption that succeeded with other bytes than the plaintext. -/
def Failure.mismatch : Failure := ⟨.roundTripMismatch, mismatchDetail⟩

/-- How much longer the message is than its plaintext and additional data, as a share of these;
undefined if both are empty. -/
def overheadRatio (plainSize aadSize encryptedSize : Nat) : Option Float :=
  let input := plainSize + aadSize
  if input = 0 then none
  else some ((encryptedSize.toUInt64.toFloat - input.toUInt64.toFloat) / input.toUInt64.toFloat)

/-- The result of a benchmark of one variant. -/
structure Result where
  /-- Display name of the variant. -/
  name : String
  /-- Plaintext length in bytes. -/
  plainSize : Nat
  /-- Additional data length in bytes. -/
  aadSize : Nat
  /-- Length of the last message in bytes; zero if there was none. -/
  encryptedSize : Nat
  /-- The overhead of the last message, if it is defined. -/
  overheadRatio : Option Float
  /-- Mean time of a cycle. -/
  averageDuration : Duration
  /-- Whether every cycle gave the plaintext back. -/
  passed : Bool
  /-- The first failure. -/
  failure : Option Failure
deriving Inhabited

/-- The parameters and results of a benchmark. -/
structure Report where
  /-- What was run. -/
  params : Params
  /-- What came out, in order. -/
  results : List Result
deriving Inhabited

/-- How many results failed. -/
def Report.failureCount (report : Report) : Nat :=
  (report.results.filter fun result => !result.passed).length

/-- Whether a result failed. -/
def Report.hasFailures (report : Report) : Bool :=
  report.results.any fun result => !result.passed

end AesTrials
