import AesTrials.Bytes

/-!
# SHA-256

The message is closed by a one bit, zeros and its length in bits, and folded into eight words by
sixty-four rounds for each block of sixteen words.
-/

namespace AesTrials.Sha256

/-- The chaining state. -/
structure State where
  /-- First word. -/
  a : UInt32
  /-- Second word. -/
  b : UInt32
  /-- Third word. -/
  c : UInt32
  /-- Fourth word. -/
  d : UInt32
  /-- Fifth word. -/
  e : UInt32
  /-- Sixth word. -/
  f : UInt32
  /-- Seventh word. -/
  g : UInt32
  /-- Eighth word. -/
  h : UInt32
deriving DecidableEq, Repr, Inhabited

/-- The state before the first block. -/
def State.initial : State :=
  ⟨0x6a09e667, 0xbb67ae85, 0x3c6ef372, 0xa54ff53a, 0x510e527f, 0x9b05688c, 0x1f83d9ab, 0x5be0cd19⟩

/-- The wordwise sum of two states. -/
def State.add (x y : State) : State :=
  ⟨x.a + y.a, x.b + y.b, x.c + y.c, x.d + y.d, x.e + y.e, x.f + y.f, x.g + y.g, x.h + y.h⟩

/-- The eight words, most significant byte first. -/
def State.toBytes (s : State) : Bytes :=
  [s.a, s.b, s.c, s.d, s.e, s.f, s.g, s.h].flatMap Bytes.ofBigWord

/-- The constants of the sixty-four rounds. -/
def roundConstants : List UInt32 :=
  [
    0x428a2f98, 0x71374491, 0xb5c0fbcf, 0xe9b5dba5, 0x3956c25b, 0x59f111f1, 0x923f82a4, 0xab1c5ed5,
    0xd807aa98, 0x12835b01, 0x243185be, 0x550c7dc3, 0x72be5d74, 0x80deb1fe, 0x9bdc06a7, 0xc19bf174,
    0xe49b69c1, 0xefbe4786, 0x0fc19dc6, 0x240ca1cc, 0x2de92c6f, 0x4a7484aa, 0x5cb0a9dc, 0x76f988da,
    0x983e5152, 0xa831c66d, 0xb00327c8, 0xbf597fc7, 0xc6e00bf3, 0xd5a79147, 0x06ca6351, 0x14292967,
    0x27b70a85, 0x2e1b2138, 0x4d2c6dfc, 0x53380d13, 0x650a7354, 0x766a0abb, 0x81c2c92e, 0x92722c85,
    0xa2bfe8a1, 0xa81a664b, 0xc24b8b70, 0xc76c51a3, 0xd192e819, 0xd6990624, 0xf40e3585, 0x106aa070,
    0x19a4c116, 0x1e376c08, 0x2748774c, 0x34b0bcb5, 0x391c0cb3, 0x4ed8aa4a, 0x5b9cca4f, 0x682e6ff3,
    0x748f82ee, 0x78a5636f, 0x84c87814, 0x8cc70208, 0x90befffa, 0xa4506ceb, 0xbef9a3f7, 0xc67178f2]

/-- The word rotated right. -/
def rotateRight (word places : UInt32) : UInt32 :=
  word >>> places ||| word <<< (32 - places)

/-- The mixing of the word fifteen back in the message schedule. -/
def mixEarly (x : UInt32) : UInt32 :=
  rotateRight x 7 ^^^ rotateRight x 18 ^^^ x >>> 3

/-- The mixing of the word two back in the message schedule. -/
def mixLate (x : UInt32) : UInt32 :=
  rotateRight x 17 ^^^ rotateRight x 19 ^^^ x >>> 10

/-- One more word after the words of a message schedule. -/
def extendSchedule (words : Array UInt32) : Array UInt32 :=
  let index := words.size
  words.push (mixLate (words.getD (index - 2) 0) + words.getD (index - 7) 0 +
    mixEarly (words.getD (index - 15) 0) + words.getD (index - 16) 0)

/-- The message schedule of a block of sixteen words: the words, then forty-eight more. -/
def schedule (block : List UInt32) : List UInt32 :=
  ((List.range 48).foldl (fun words _ => extendSchedule words) block.toArray).toList

/-- One round, given its constant and its word of the schedule. -/
def round (s : State) (input : UInt32 × UInt32) : State :=
  let choice := (s.e &&& s.f) ^^^ (~~~s.e &&& s.g)
  let majority := (s.a &&& s.b) ^^^ (s.a &&& s.c) ^^^ (s.b &&& s.c)
  let upper := rotateRight s.a 2 ^^^ rotateRight s.a 13 ^^^ rotateRight s.a 22
  let lower := rotateRight s.e 6 ^^^ rotateRight s.e 11 ^^^ rotateRight s.e 25
  let first := s.h + lower + choice + input.1 + input.2
  ⟨first + upper + majority, s.a, s.b, s.c, s.d + first, s.e, s.f, s.g⟩

/-- The state after one block. -/
def compress (state : State) (block : List UInt32) : State :=
  ((roundConstants.zip (schedule block)).foldl round state).add state

/-- The state after every whole block of sixteen words. -/
def absorb : State → List UInt32 → State
  | state, w₀ :: w₁ :: w₂ :: w₃ :: w₄ :: w₅ :: w₆ :: w₇ :: w₈ :: w₉ :: w₁₀ :: w₁₁ :: w₁₂ ::
      w₁₃ :: w₁₄ :: w₁₅ :: rest =>
    absorb (compress state
      [w₀, w₁, w₂, w₃, w₄, w₅, w₆, w₇, w₈, w₉, w₁₀, w₁₁, w₁₂, w₁₃, w₁₄, w₁₅]) rest
  | state, _ => state

/-- Zero bytes between the closing bit and the length. -/
def zeroCount (length : Nat) : Nat := (119 - length % 64) % 64

/-- The message with its closing bit, zeros and length. -/
def pad (message : Bytes) : Bytes :=
  message ++ 0x80 :: (List.replicate (zeroCount message.length) 0 ++
    Bytes.ofBigDouble (UInt64.ofNat (8 * message.length)))

/-- The thirty-two bytes of the digest. -/
def digest (message : Bytes) : Bytes :=
  (absorb .initial (Bytes.bigWords (pad message))).toBytes

end AesTrials.Sha256
