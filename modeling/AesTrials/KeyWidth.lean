import AesTrials.CipherError

/-!
# Key widths

AES takes keys of 128, 192 and 256 bits; every other key length is refused.
-/

namespace AesTrials

/-- A key width of AES. -/
inductive KeyWidth where
  /-- Sixteen bytes. -/
  | w128
  /-- Twenty-four bytes. -/
  | w192
  /-- Thirty-two bytes. -/
  | w256
deriving DecidableEq, Repr, Inhabited

namespace KeyWidth

/-- All widths, smallest first. -/
def all : List KeyWidth := [.w128, .w192, .w256]

/-- Key length in bytes. -/
def byteLength : KeyWidth → Nat
  | .w128 => 16
  | .w192 => 24
  | .w256 => 32

/-- Key length in bits. -/
def bits (width : KeyWidth) : Nat := 8 * width.byteLength

/-- The width of a key of the given number of bytes. -/
def ofByteLength : Nat → Except CipherError KeyWidth
  | 16 => .ok .w128
  | 24 => .ok .w192
  | 32 => .ok .w256
  | length => .error (.invalidKeyLength length)

/-- The width of a key of the given number of bits. -/
def ofBits? : Nat → Option KeyWidth
  | 128 => some .w128
  | 192 => some .w192
  | 256 => some .w256
  | _ => none

/-- Rounds of the cipher after the first key addition. -/
def rounds : KeyWidth → Nat
  | .w128 => 10
  | .w192 => 12
  | .w256 => 14

/-- The width of a key as long as the width says. -/
theorem ofByteLength_byteLength (width : KeyWidth) :
    ofByteLength width.byteLength = .ok width := by
  cases width <;> rfl

/-- A key that has a width is as long as the width says. -/
theorem byteLength_of_ofByteLength {length : Nat} {width : KeyWidth}
    (h : ofByteLength length = .ok width) : width.byteLength = length := by
  unfold ofByteLength at h
  split at h <;> cases h <;> rfl

/-- The width of a number of bits as large as the width says. -/
theorem ofBits?_bits (width : KeyWidth) : ofBits? width.bits = some width := by
  cases width <;> rfl

end KeyWidth

end AesTrials
