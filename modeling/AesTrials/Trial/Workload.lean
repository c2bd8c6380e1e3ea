import AesTrials.Random.WordStream
import AesTrials.SecretKey
import AesTrials.Trial.Run

/-!
# Workloads

The variants of one suite share a key of each width, a vector, a plaintext and additional data. All
but the plaintext, a fixed pattern, come from a word stream.
-/

namespace AesTrials

/-- Material shared by the runs of a suite. -/
structure Workload where
  /-- The key of sixteen bytes. -/
  key128 : Bytes
  /-- The key of twenty-four bytes. -/
  key192 : Bytes
  /-- The key of thirty-two bytes. -/
  key256 : Bytes
  /-- The vector for variants that take one. -/
  iv : Bytes
  /-- The plaintext. -/
  plaintext : Bytes
  /-- The additional data. -/
  aad : Bytes
deriving DecidableEq, Repr, Inhabited

namespace Workload

/-- The plaintext whose byte at each position is the position modulo 256. -/
def pattern (length : Nat) : Bytes := (List.range length).map UInt8.ofNat

/-- One more than the greatest length of a text. -/
def lengthLimit : Nat := Nat.pow 2 63

/-- Whether there are texts of the sizes of a payload and of additional data. -/
def fits (payloadSize aadSize : Nat) : Bool :=
  decide (payloadSize < lengthLimit) && decide (aadSize < lengthLimit)

/-- Fresh material for a payload and additional data of the given sizes, and the stream left. -/
def draw (stream : WordStream) (payloadSize aadSize : Nat) : Workload × WordStream :=
  let (key128, stream) := stream.take 16
  let (key192, stream) := stream.take 24
  let (key256, stream) := stream.take 32
  let (iv, stream) := stream.take Aes.blockLength
  let (aad, stream) := stream.take aadSize
  ({ key128, key192, key256, iv, aad, plaintext := pattern payloadSize }, stream)

/-- The key of a width. -/
def key (workload : Workload) : KeyWidth → SecretKey
  | .w128 => ⟨workload.key128⟩
  | .w192 => ⟨workload.key192⟩
  | .w256 => ⟨workload.key256⟩

/-- What a run of a variant is given: the key of its width, the vector if it takes one, and the
additional data unless it is empty. -/
def inputs (workload : Workload) (width : KeyWidth) (source : NonceSource) : Inputs :=
  { key := (workload.key width).bytes
    iv := match source with
      | .internal => none
      | .external => some workload.iv
    plaintext := workload.plaintext
    aad := if workload.aad.isEmpty then none else some workload.aad }

end Workload

end AesTrials
