import AesTrials.Entropy
import AesTrials.Random.ChaCha

/-!
# Streams of words

A word stream is a generator key and the number of words taken so far. Bytes are taken in whole
words; what is left of the last word is lost. A number that seeds a stream is stretched to a key by
a small congruential generator.
-/

namespace AesTrials

/-- A generator of which some words have been taken. -/
structure WordStream where
  /-- The key of the generator. -/
  key : ChaCha.Key
  /-- Words taken so far. -/
  position : Nat
deriving DecidableEq, Repr

namespace WordStream

/-- The word at a position of the stream of a key. -/
def wordAt (key : ChaCha.Key) (position : Nat) : UInt32 :=
  (ChaCha.block key (UInt64.ofNat (position / 16))).get
    ⟨position % 16, Nat.mod_lt _ (by decide)⟩

/-- Words taken for the given number of bytes. -/
def wordsFor (count : Nat) : Nat := (count + 3) / 4

/-- The first bytes of the words from a position on, each word least significant byte first. -/
def bytesAt (key : ChaCha.Key) (position count : Nat) : Bytes :=
  ((List.range (wordsFor count)).flatMap
    fun i => Bytes.ofLittleWord (wordAt key (position + i))).take count

/-- The next bytes and the stream after them. -/
def take (stream : WordStream) (count : Nat) : Bytes × WordStream :=
  (bytesAt stream.key stream.position count,
    { stream with position := stream.position + wordsFor count })

/-- The stream keyed by thirty-two bytes. -/
def ofBytes (bytes : Bytes) : WordStream := ⟨ChaCha.keyOfBytes bytes, 0⟩

/-- The next state of the seeding generator. -/
def nextSeed (state : UInt64) : UInt64 :=
  state * 6364136223846793005 + 11634580027462260723

/-- The word that a state of the seeding generator gives. -/
def seedWord (state : UInt64) : UInt32 :=
  let folded := (((state >>> 18) ^^^ state) >>> 27).toUInt32
  let places := (state >>> 59).toUInt32
  folded >>> places ||| folded <<< ((32 - places) &&& 31)

/-- The words that the seeding generator gives after a state. -/
def seedWords : Nat → UInt64 → List UInt32
  | 0, _ => []
  | count + 1, state =>
    let state := nextSeed state
    seedWord state :: seedWords count state

/-- The stream seeded by a number. -/
def ofNumber (seed : Nat) : WordStream :=
  ofBytes ((seedWords 8 (UInt64.ofNat seed)).flatMap Bytes.ofLittleWord)

/-- The bytes of a stream from its start, as a supply of entropy. -/
def entropy (stream : WordStream) : Entropy where
  source i := (Bytes.ofLittleWord (wordAt stream.key (i / 4))).getD (i % 4) 0
  drawn := 0

/-- The words of some bytes cover them. -/
theorem le_wordsFor (count : Nat) : count ≤ 4 * wordsFor count := by
  unfold wordsFor
  omega

/-- As many bytes are taken as are asked for. -/
theorem length_bytesAt (key : ChaCha.Key) (position count : Nat) :
    (bytesAt key position count).length = count := by
  have enough := le_wordsFor count
  have words : ((List.range (wordsFor count)).flatMap
      fun i => Bytes.ofLittleWord (wordAt key (position + i))).length = wordsFor count * 4 := by
    simp only [List.length_flatMap, Bytes.ofLittleWord, List.length_cons, List.length_nil,
      List.map_const', List.sum_replicate_nat, List.length_range]
  rw [bytesAt, List.length_take, words]
  omega

end WordStream

end AesTrials
