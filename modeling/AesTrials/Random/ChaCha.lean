import AesTrials.Bytes

/-!
# The generator

Reproducible inputs come from a stream of 32-bit words: ChaCha with twelve rounds, a key of eight
words, a block counter of 64 bits and a zero stream number. A word is addressed by its position in
the stream.
-/

namespace AesTrials.ChaCha

/-- The sixteen words of a block. -/
abbrev State := Vector UInt32 16

/-- The eight words of a key. -/
abbrev Key := Vector UInt32 8

/-- The word rotated left. -/
def rotateLeft (word places : UInt32) : UInt32 :=
  word <<< places ||| word >>> (32 - places)

/-- One addition, exclusive or and rotation: the word at `target` grows by the word at `source`,
and the word at `mixed` takes it up. -/
def stir (s : State) (target source mixed : Fin 16) (places : UInt32) : State :=
  let sum := s.get target + s.get source
  let s := s.set target sum
  s.set mixed (rotateLeft (s.get mixed ^^^ sum) places)

/-- A quarter round on the words at four places. -/
def quarterRound (s : State) (a b c d : Fin 16) : State :=
  let s := stir s a b d 16
  let s := stir s c d b 12
  let s := stir s a b d 8
  stir s c d b 7

/-- A round down the columns and a round along the diagonals. -/
def doubleRound (s : State) : State :=
  let s := quarterRound s 0 4 8 12
  let s := quarterRound s 1 5 9 13
  let s := quarterRound s 2 6 10 14
  let s := quarterRound s 3 7 11 15
  let s := quarterRound s 0 5 10 15
  let s := quarterRound s 1 6 11 12
  let s := quarterRound s 2 7 8 13
  quarterRound s 3 4 9 14

/-- The block before its rounds. -/
def start (key : Key) (counter : UInt64) : State :=
  #v[0x61707865, 0x3320646e, 0x79622d32, 0x6b206574,
    key[0], key[1], key[2], key[3], key[4], key[5], key[6], key[7],
    counter.toUInt32, (counter >>> 32).toUInt32, 0, 0]

/-- The output block at a counter: twelve rounds, then the block before them added. -/
def block (key : Key) (counter : UInt64) : State :=
  let first := start key counter
  let last := (List.range 6).foldl (fun s _ => doubleRound s) first
  Vector.zipWith (fun x y => x + y) last first

/-- The key of thirty-two bytes, each word least significant byte first. -/
def keyOfBytes (bytes : Bytes) : Key :=
  Vector.ofFn fun i : Fin 8 =>
    let byte (j : Nat) : UInt8 := bytes.getD (4 * i.val + j) 0
    Bytes.littleWord (byte 0) (byte 1) (byte 2) (byte 3)

end AesTrials.ChaCha
