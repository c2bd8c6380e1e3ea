import AesTrials.Bytes

/-!
# The byte field of AES

Bytes are polynomials over two elements modulo x⁸ + x⁴ + x³ + x + 1. Addition is exclusive or, and
the few constant products of the cipher are sums of doublings. The substitution and its inverse
are tables of the standard.

Every constant product is additive, the two tables undo each other, and a row of the inverse matrix
takes a column back out of the rows of the matrix.
-/

namespace AesTrials.Aes

/-- A summand may change places with the one before it. -/
theorem xor_left_comm (a b c : UInt8) : a ^^^ (b ^^^ c) = b ^^^ (a ^^^ c) := by
  rw [← UInt8.xor_assoc, UInt8.xor_comm a b, UInt8.xor_assoc]

/-- A summand that stands twice goes away. -/
theorem xor_xor_cancel_left (a b : UInt8) : a ^^^ (a ^^^ b) = b := by
  rw [← UInt8.xor_assoc, UInt8.xor_self, UInt8.zero_xor]

/-- Multiplication by the polynomial x. -/
def double (b : UInt8) : UInt8 :=
  (b <<< 1) ^^^ (if b < 128 then 0 else 0x1b)

/-- A byte is below 128 exactly when its leading coefficient is zero. -/
theorem lt_128_iff (b : UInt8) : b < 128 ↔ b.toBitVec.msb = false := by
  rw [BitVec.msb_eq_decide, decide_eq_false_iff_not, Nat.not_le, UInt8.lt_iff_toNat_lt]
  exact Iff.rfl

/-- Doubling is additive: the reduction depends on the leading coefficient only. -/
theorem double_xor (a b : UInt8) : double (a ^^^ b) = double a ^^^ double b := by
  have leading : (a ^^^ b).toBitVec.msb = (a.toBitVec.msb ^^ b.toBitVec.msb) := by
    rw [UInt8.toBitVec_xor, BitVec.msb_xor]
  simp only [double, lt_128_iff, leading, UInt8.shiftLeft_xor]
  cases a.toBitVec.msb <;> cases b.toBitVec.msb <;>
    simp [UInt8.xor_assoc, UInt8.xor_comm, xor_left_comm]

/-- Multiplication by x³ + 1. -/
def times9 (b : UInt8) : UInt8 := double (double (double b)) ^^^ b

/-- Multiplication by x³ + x + 1. -/
def times11 (b : UInt8) : UInt8 := double (double (double b)) ^^^ double b ^^^ b

/-- Multiplication by x³ + x² + 1. -/
def times13 (b : UInt8) : UInt8 := double (double (double b)) ^^^ double (double b) ^^^ b

/-- Multiplication by x³ + x² + x. -/
def times14 (b : UInt8) : UInt8 :=
  double (double (double b)) ^^^ double (double b) ^^^ double b

/-- Multiplication by x³ + 1 is additive. -/
theorem times9_xor (a b : UInt8) : times9 (a ^^^ b) = times9 a ^^^ times9 b := by
  simp only [times9, double_xor]
  ac_rfl

/-- Multiplication by x³ + x + 1 is additive. -/
theorem times11_xor (a b : UInt8) : times11 (a ^^^ b) = times11 a ^^^ times11 b := by
  simp only [times11, double_xor]
  ac_rfl

/-- Multiplication by x³ + x² + 1 is additive. -/
theorem times13_xor (a b : UInt8) : times13 (a ^^^ b) = times13 a ^^^ times13 b := by
  simp only [times13, double_xor]
  ac_rfl

/-- Multiplication by x³ + x² + x is additive. -/
theorem times14_xor (a b : UInt8) : times14 (a ^^^ b) = times14 a ^^^ times14 b := by
  simp only [times14, double_xor]
  ac_rfl

/-- One row of the matrix of the cipher: two, three, one and one times the bytes. -/
def mixRow (a b c d : UInt8) : UInt8 := double a ^^^ (double b ^^^ b) ^^^ c ^^^ d

/-- One row of the inverse matrix: fourteen, eleven, thirteen and nine times the bytes. -/
def unmixRow (a b c d : UInt8) : UInt8 := times14 a ^^^ times11 b ^^^ times13 c ^^^ times9 d

section Products

-- Additive products are written out and sorted, so that what stands twice in a sum goes away.
attribute [local simp] double_xor UInt8.xor_assoc UInt8.xor_comm xor_left_comm xor_xor_cancel_left

/-- The product of the two rows in the place of the row itself is one. -/
theorem unmixRow_mixRow_first (a : UInt8) :
    unmixRow (double a) a a (double a ^^^ a) = a := by
  simp [unmixRow, times9, times11, times13, times14]

/-- The product of the two rows one place further is zero. -/
theorem unmixRow_mixRow_second (a : UInt8) :
    unmixRow (double a ^^^ a) (double a) a a = 0 := by
  simp [unmixRow, times9, times11, times13, times14]

/-- The product of the two rows two places further is zero. -/
theorem unmixRow_mixRow_third (a : UInt8) :
    unmixRow a (double a ^^^ a) (double a) a = 0 := by
  simp [unmixRow, times9, times11, times13, times14]

/-- The product of the two rows three places further is zero. -/
theorem unmixRow_mixRow_fourth (a : UInt8) :
    unmixRow a a (double a ^^^ a) (double a) = 0 := by
  simp [unmixRow, times9, times11, times13, times14]

/-- A row of the inverse matrix is additive. -/
theorem unmixRow_xor (a b c d a' b' c' d' : UInt8) :
    unmixRow (a ^^^ a') (b ^^^ b') (c ^^^ c') (d ^^^ d') =
      unmixRow a b c d ^^^ unmixRow a' b' c' d' := by
  simp only [unmixRow, times9_xor, times11_xor, times13_xor, times14_xor]
  ac_rfl

/-- A row of the inverse matrix takes the first byte back out of the four rotated rows. -/
theorem unmixRow_mixRow (a b c d : UInt8) :
    unmixRow (mixRow a b c d) (mixRow b c d a) (mixRow c d a b) (mixRow d a b c) = a := by
  have second : mixRow b c d a = a ^^^ double b ^^^ (double c ^^^ c) ^^^ d := by
    simp only [mixRow]
    ac_rfl
  have third : mixRow c d a b = a ^^^ b ^^^ double c ^^^ (double d ^^^ d) := by
    simp only [mixRow]
    ac_rfl
  have fourth : mixRow d a b c = (double a ^^^ a) ^^^ b ^^^ c ^^^ double d := by
    simp only [mixRow]
    ac_rfl
  rw [second, third, fourth, mixRow, unmixRow_xor, unmixRow_xor, unmixRow_xor,
    unmixRow_mixRow_first, unmixRow_mixRow_second, unmixRow_mixRow_third, unmixRow_mixRow_fourth,
    UInt8.xor_zero, UInt8.xor_zero, UInt8.xor_zero]

/-- The products of the rows in the opposite order: the row itself gives one. -/
theorem mixRow_unmixRow_first (a : UInt8) :
    mixRow (times14 a) (times9 a) (times13 a) (times11 a) = a := by
  simp [mixRow, times9, times11, times13, times14]

/-- The products of the rows in the opposite order: one place further gives zero. -/
theorem mixRow_unmixRow_second (a : UInt8) :
    mixRow (times11 a) (times14 a) (times9 a) (times13 a) = 0 := by
  simp [mixRow, times9, times11, times13, times14]

/-- The products of the rows in the opposite order: two places further gives zero. -/
theorem mixRow_unmixRow_third (a : UInt8) :
    mixRow (times13 a) (times11 a) (times14 a) (times9 a) = 0 := by
  simp [mixRow, times9, times11, times13, times14]

/-- The products of the rows in the opposite order: three places further gives zero. -/
theorem mixRow_unmixRow_fourth (a : UInt8) :
    mixRow (times9 a) (times13 a) (times11 a) (times14 a) = 0 := by
  simp [mixRow, times9, times11, times13, times14]

end Products

/-- A row of the matrix is additive. -/
theorem mixRow_xor (a b c d a' b' c' d' : UInt8) :
    mixRow (a ^^^ a') (b ^^^ b') (c ^^^ c') (d ^^^ d') =
      mixRow a b c d ^^^ mixRow a' b' c' d' := by
  simp only [mixRow, double_xor]
  ac_rfl

/-- A row of the matrix takes the first byte back out of the four rotated inverse rows. -/
theorem mixRow_unmixRow (a b c d : UInt8) :
    mixRow (unmixRow a b c d) (unmixRow b c d a) (unmixRow c d a b) (unmixRow d a b c) = a := by
  have second : unmixRow b c d a = times9 a ^^^ times14 b ^^^ times11 c ^^^ times13 d := by
    simp only [unmixRow]
    ac_rfl
  have third : unmixRow c d a b = times13 a ^^^ times9 b ^^^ times14 c ^^^ times11 d := by
    simp only [unmixRow]
    ac_rfl
  have fourth : unmixRow d a b c = times11 a ^^^ times13 b ^^^ times9 c ^^^ times14 d := by
    simp only [unmixRow]
    ac_rfl
  rw [second, third, fourth, unmixRow, mixRow_xor, mixRow_xor, mixRow_xor,
    mixRow_unmixRow_first, mixRow_unmixRow_second, mixRow_unmixRow_third, mixRow_unmixRow_fourth,
    UInt8.xor_zero, UInt8.xor_zero, UInt8.xor_zero]

set_option maxRecDepth 2000 in
/-- The substitution of each byte, in order. -/
def substitutionTable : Vector UInt8 256 :=
  #v[
    0x63, 0x7c, 0x77, 0x7b, 0xf2, 0x6b, 0x6f, 0xc5, 0x30, 0x01, 0x67, 0x2b,
    0xfe, 0xd7, 0xab, 0x76, 0xca, 0x82, 0xc9, 0x7d, 0xfa, 0x59, 0x47, 0xf0,
    0xad, 0xd4, 0xa2, 0xaf, 0x9c, 0xa4, 0x72, 0xc0, 0xb7, 0xfd, 0x93, 0x26,
    0x36, 0x3f, 0xf7, 0xcc, 0x34, 0xa5, 0xe5, 0xf1, 0x71, 0xd8, 0x31, 0x15,
    0x04, 0xc7, 0x23, 0xc3, 0x18, 0x96, 0x05, 0x9a, 0x07, 0x12, 0x80, 0xe2,
    0xeb, 0x27, 0xb2, 0x75, 0x09, 0x83, 0x2c, 0x1a, 0x1b, 0x6e, 0x5a, 0xa0,
    0x52, 0x3b, 0xd6, 0xb3, 0x29, 0xe3, 0x2f, 0x84, 0x53, 0xd1, 0x00, 0xed,
    0x20, 0xfc, 0xb1, 0x5b, 0x6a, 0xcb, 0xbe, 0x39, 0x4a, 0x4c, 0x58, 0xcf,
    0xd0, 0xef, 0xaa, 0xfb, 0x43, 0x4d, 0x33, 0x85, 0x45, 0xf9, 0x02, 0x7f,
    0x50, 0x3c, 0x9f, 0xa8, 0x51, 0xa3, 0x40, 0x8f, 0x92, 0x9d, 0x38, 0xf5,
    0xbc, 0xb6, 0xda, 0x21, 0x10, 0xff, 0xf3, 0xd2, 0xcd, 0x0c, 0x13, 0xec,
    0x5f, 0x97, 0x44, 0x17, 0xc4, 0xa7, 0x7e, 0x3d, 0x64, 0x5d, 0x19, 0x73,
    0x60, 0x81, 0x4f, 0xdc, 0x22, 0x2a, 0x90, 0x88, 0x46, 0xee, 0xb8, 0x14,
    0xde, 0x5e, 0x0b, 0xdb, 0xe0, 0x32, 0x3a, 0x0a, 0x49, 0x06, 0x24, 0x5c,
    0xc2, 0xd3, 0xac, 0x62, 0x91, 0x95, 0xe4, 0x79, 0xe7, 0xc8, 0x37, 0x6d,
    0x8d, 0xd5, 0x4e, 0xa9, 0x6c, 0x56, 0xf4, 0xea, 0x65, 0x7a, 0xae, 0x08,
    0xba, 0x78, 0x25, 0x2e, 0x1c, 0xa6, 0xb4, 0xc6, 0xe8, 0xdd, 0x74, 0x1f,
    0x4b, 0xbd, 0x8b, 0x8a, 0x70, 0x3e, 0xb5, 0x66, 0x48, 0x03, 0xf6, 0x0e,
    0x61, 0x35, 0x57, 0xb9, 0x86, 0xc1, 0x1d, 0x9e, 0xe1, 0xf8, 0x98, 0x11,
    0x69, 0xd9, 0x8e, 0x94, 0x9b, 0x1e, 0x87, 0xe9, 0xce, 0x55, 0x28, 0xdf,
    0x8c, 0xa1, 0x89, 0x0d, 0xbf, 0xe6, 0x42, 0x68, 0x41, 0x99, 0x2d, 0x0f,
    0xb0, 0x54, 0xbb, 0x16]

set_option maxRecDepth 2000 in
/-- The byte that each byte is the substitution of, in order. -/
def restorationTable : Vector UInt8 256 :=
  #v[
    0x52, 0x09, 0x6a, 0xd5, 0x30, 0x36, 0xa5, 0x38, 0xbf, 0x40, 0xa3, 0x9e,
    0x81, 0xf3, 0xd7, 0xfb, 0x7c, 0xe3, 0x39, 0x82, 0x9b, 0x2f, 0xff, 0x87,
    0x34, 0x8e, 0x43, 0x44, 0xc4, 0xde, 0xe9, 0xcb, 0x54, 0x7b, 0x94, 0x32,
    0xa6, 0xc2, 0x23, 0x3d, 0xee, 0x4c, 0x95, 0x0b, 0x42, 0xfa, 0xc3, 0x4e,
    0x08, 0x2e, 0xa1, 0x66, 0x28, 0xd9, 0x24, 0xb2, 0x76, 0x5b, 0xa2, 0x49,
    0x6d, 0x8b, 0xd1, 0x25, 0x72, 0xf8, 0xf6, 0x64, 0x86, 0x68, 0x98, 0x16,
    0xd4, 0xa4, 0x5c, 0xcc, 0x5d, 0x65, 0xb6, 0x92, 0x6c, 0x70, 0x48, 0x50,
    0xfd, 0xed, 0xb9, 0xda, 0x5e, 0x15, 0x46, 0x57, 0xa7, 0x8d, 0x9d, 0x84,
    0x90, 0xd8, 0xab, 0x00, 0x8c, 0xbc, 0xd3, 0x0a, 0xf7, 0xe4, 0x58, 0x05,
    0xb8, 0xb3, 0x45, 0x06, 0xd0, 0x2c, 0x1e, 0x8f, 0xca, 0x3f, 0x0f, 0x02,
    0xc1, 0xaf, 0xbd, 0x03, 0x01, 0x13, 0x8a, 0x6b, 0x3a, 0x91, 0x11, 0x41,
    0x4f, 0x67, 0xdc, 0xea, 0x97, 0xf2, 0xcf, 0xce, 0xf0, 0xb4, 0xe6, 0x73,
    0x96, 0xac, 0x74, 0x22, 0xe7, 0xad, 0x35, 0x85, 0xe2, 0xf9, 0x37, 0xe8,
    0x1c, 0x75, 0xdf, 0x6e, 0x47, 0xf1, 0x1a, 0x71, 0x1d, 0x29, 0xc5, 0x89,
    0x6f, 0xb7, 0x62, 0x0e, 0xaa, 0x18, 0xbe, 0x1b, 0xfc, 0x56, 0x3e, 0x4b,
    0xc6, 0xd2, 0x79, 0x20, 0x9a, 0xdb, 0xc0, 0xfe, 0x78, 0xcd, 0x5a, 0xf4,
    0x1f, 0xdd, 0xa8, 0x33, 0x88, 0x07, 0xc7, 0x31, 0xb1, 0x12, 0x10, 0x59,
    0x27, 0x80, 0xec, 0x5f, 0x60, 0x51, 0x7f, 0xa9, 0x19, 0xb5, 0x4a, 0x0d,
    0x2d, 0xe5, 0x7a, 0x9f, 0x93, 0xc9, 0x9c, 0xef, 0xa0, 0xe0, 0x3b, 0x4d,
    0xae, 0x2a, 0xf5, 0xb0, 0xc8, 0xeb, 0xbb, 0x3c, 0x83, 0x53, 0x99, 0x61,
    0x17, 0x2b, 0x04, 0x7e, 0xba, 0x77, 0xd6, 0x26, 0xe1, 0x69, 0x14, 0x63,
    0x55, 0x21, 0x0c, 0x7d]

/-- The substitution of a byte. -/
def substitute (b : UInt8) : UInt8 :=
  substitutionTable.get ⟨b.toNat, b.toNat_lt⟩

/-- The byte whose substitution is the given one. -/
def restore (b : UInt8) : UInt8 :=
  restorationTable.get ⟨b.toNat, b.toNat_lt⟩

/-- The bytes of a table as the digits of one number, the first byte as the last digit. -/
def packed : List UInt8 → Nat
  | [] => 0
  | b :: bytes => b.toNat + 256 * packed bytes

/-- A byte of a table is found in its number behind a shift. -/
theorem packed_shiftRight (bytes : List UInt8) {place : Nat} (inside : place < bytes.length) :
    packed bytes >>> (8 * place) % 256 = bytes[place].toNat := by
  induction bytes generalizing place with
  | nil => contradiction
  | cons b bytes ih =>
    have small : b.toNat < 256 := b.toNat_lt
    cases place with
    | zero =>
      rw [packed, Nat.mul_zero, Nat.shiftRight_zero, List.getElem_cons_zero]
      omega
    | succ place =>
      have rest : packed (b :: bytes) >>> 8 = packed bytes := by
        rw [packed, Nat.shiftRight_eq_div_pow]
        omega
      have further : place < bytes.length := Nat.lt_of_succ_lt_succ inside
      rw [Nat.mul_succ, Nat.add_comm, Nat.shiftRight_add, rest, List.getElem_cons_succ, ih further]

/-- What a table has for a byte. -/
theorem toNat_get (table : Vector UInt8 256) (place : Fin 256) :
    (table.get place).toNat = packed table.toList >>> (8 * place.val) % 256 := by
  have inside : place.val < table.toList.length := by
    rw [Vector.length_toList]
    exact place.isLt
  rw [packed_shiftRight table.toList inside, Vector.getElem_toList]
  rfl

/-- The substitution as a digit of the number of its table. -/
theorem toNat_substitute (b : UInt8) :
    (substitute b).toNat = packed substitutionTable.toList >>> (8 * b.toNat) % 256 :=
  toNat_get _ _

/-- The restored byte as a digit of the number of its table. -/
theorem toNat_restore (b : UInt8) :
    (restore b).toNat = packed restorationTable.toList >>> (8 * b.toNat) % 256 :=
  toNat_get _ _

/-- Restoring undoes the substitution. -/
theorem restore_substitute (b : UInt8) : restore (substitute b) = b := by
  -- Said of numbers: in the tables themselves each of these bytes would be reached step by step.
  have undone : ∀ place < 256, packed restorationTable.toList >>>
      (8 * (packed substitutionTable.toList >>> (8 * place) % 256)) % 256 = place := by
    decide +kernel
  apply UInt8.toNat_inj.mp
  rw [toNat_restore, toNat_substitute]
  exact undone b.toNat b.toNat_lt

/-- The substitution undoes restoring. -/
theorem substitute_restore (b : UInt8) : substitute (restore b) = b := by
  have undone : ∀ place < 256, packed substitutionTable.toList >>>
      (8 * (packed restorationTable.toList >>> (8 * place) % 256)) % 256 = place := by
    decide +kernel
  apply UInt8.toNat_inj.mp
  rw [toNat_substitute, toNat_restore]
  exact undone b.toNat b.toNat_lt

end AesTrials.Aes
