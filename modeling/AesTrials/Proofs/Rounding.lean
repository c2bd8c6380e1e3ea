import AesTrials.Decimal.Reading
import AesTrials.Proofs.Numerals
import Mathlib.Algebra.Group.Nat.Defs
import Mathlib.Tactic.SplitIfs

/-!
# Rounding to floats

A fraction whose whole part has more bits than a mantissa becomes a float by shifting it to the
right. Two bits of what is cut off are kept, which tell whether it is less than a half, a half or
more than a half; so the mantissa is the quotient rounded to the nearest whole number, a half to the
even neighbour. The bits of the float give its sign, the mantissa and its exponent back. A whole
number of more than 53 bits is such a fraction, and reading its float as a whole number scales the
mantissa up again without changing it further.
-/

namespace AesTrials.Decimal

open Float.Model (Format totalExponent)
open Float.Model.UnpackedFloat

section RoundHalfEven

variable {denominator : Nat}

/-- Rounding adds one to the quotient at most. -/
theorem roundHalfEven_le (numerator denominator : Nat) :
    roundHalfEven numerator denominator ≤ numerator / denominator + 1 := by
  simp only [roundHalfEven]
  split_ifs <;> omega

/-- A factor that both have in common does not matter to rounding. -/
theorem roundHalfEven_mul (numerator denominator : Nat) {factor : Nat} (positive : 0 < factor) :
    roundHalfEven (numerator * factor) (denominator * factor) =
      roundHalfEven numerator denominator := by
  have scaled (left right : Nat) : 2 * (left * factor) < right * factor ↔ 2 * left < right := by
    rw [← Nat.mul_assoc]
    exact Nat.mul_lt_mul_right positive
  have flipped (left right : Nat) : right * factor < 2 * (left * factor) ↔ right < 2 * left := by
    rw [← Nat.mul_assoc]
    exact Nat.mul_lt_mul_right positive
  simp only [roundHalfEven, Nat.mul_div_mul_right numerator denominator positive,
    Nat.mul_mod_mul_right, scaled, flipped]

/-- Rounding is off by half a denominator at most. -/
theorem roundHalfEven_near (numerator : Nat) (positive : 0 < denominator) :
    2 * (denominator * roundHalfEven numerator denominator) ≤ 2 * numerator + denominator ∧
      2 * numerator ≤ 2 * (denominator * roundHalfEven numerator denominator) + denominator := by
  have whole := Nat.div_add_mod numerator denominator
  have rest := Nat.mod_lt numerator positive
  have next : denominator * (numerator / denominator + 1) =
      denominator * (numerator / denominator) + denominator := Nat.mul_succ ..
  simp only [roundHalfEven]
  split_ifs <;> (try rw [next]) <;> omega

/-- A half is never rounded to an odd number. -/
theorem roundHalfEven_odd (numerator : Nat) (positive : 0 < denominator)
    (odd : roundHalfEven numerator denominator % 2 = 1) :
    2 * (denominator * roundHalfEven numerator denominator) < 2 * numerator + denominator ∧
      2 * numerator < 2 * (denominator * roundHalfEven numerator denominator) + denominator := by
  have whole := Nat.div_add_mod numerator denominator
  have rest := Nat.mod_lt numerator positive
  have next : denominator * (numerator / denominator + 1) =
      denominator * (numerator / denominator) + denominator := Nat.mul_succ ..
  simp only [roundHalfEven] at odd ⊢
  split_ifs at odd ⊢ <;> (try rw [next]) <;> omega

/-- Rounding loses nothing exactly if there is nothing to round. -/
theorem mul_roundHalfEven_eq_iff (numerator : Nat) (positive : 0 < denominator) :
    denominator * roundHalfEven numerator denominator = numerator ↔ denominator ∣ numerator := by
  constructor
  · intro same
    exact ⟨_, same.symm⟩
  · rintro ⟨quotient, rfl⟩
    have exact : denominator * quotient / denominator = quotient :=
      Nat.mul_div_cancel_left quotient positive
    have rest : denominator * quotient % denominator = 0 := Nat.mul_mod_right ..
    rw [roundHalfEven, exact, rest]
    simp [positive]

end RoundHalfEven

/-- Whether an extended mantissa is a fraction cut off behind its whole part: the quotient, whether
what was cut off is at least a half, and whether it is neither nothing nor a half. -/
structure Truncated (extended : ExtendedMantissa) (numerator denominator : Nat) : Prop where
  quotient : extended.mantissa = numerator / denominator
  round : extended.roundBit = true ↔ denominator ≤ 2 * (numerator % denominator)
  sticky : extended.stickyBit = true ↔
    2 * (numerator % denominator) ≠ 0 ∧ 2 * (numerator % denominator) ≠ denominator

namespace Truncated

variable {extended : ExtendedMantissa} {numerator denominator : Nat}

/-- A whole number has nothing cut off. -/
theorem whole (number : Nat) :
    Truncated (ExtendedMantissa.ofMantissaAndAccuracy number .exact) number 1 := by
  refine ⟨?_, ?_, ?_⟩
  · simp [ExtendedMantissa.ofMantissaAndAccuracy]
  · simp [ExtendedMantissa.ofMantissaAndAccuracy, Nat.mod_one]
  · simp [ExtendedMantissa.ofMantissaAndAccuracy, Nat.mod_one]

/-- A division says of the remainder whether it is less than a half, a half or more. -/
theorem divided (numerator : Nat) (positive : 0 < denominator) :
    Truncated (ExtendedMantissa.ofMantissaAndAccuracy (numerator / denominator)
      (accuracyOfFraction (numerator % denominator) denominator)) numerator denominator := by
  by_cases none : numerator % denominator = 0
  · rw [accuracyOfFraction, if_pos none]
    constructor
    · rfl
    · simp only [ExtendedMantissa.ofMantissaAndAccuracy, Bool.false_eq_true, false_iff]
      omega
    · simp only [ExtendedMantissa.ofMantissaAndAccuracy, Bool.false_eq_true, false_iff]
      omega
  · rw [accuracyOfFraction, if_neg none]
    cases order : compare (2 * (numerator % denominator)) denominator with
    | lt =>
      have less := Nat.compare_eq_lt.mp order
      refine ⟨rfl, ?_, ?_⟩
      · simp only [ExtendedMantissa.ofMantissaAndAccuracy, Bool.false_eq_true, false_iff]
        omega
      · simp only [ExtendedMantissa.ofMantissaAndAccuracy, true_iff]
        omega
    | eq =>
      have half := Nat.compare_eq_eq.mp order
      refine ⟨rfl, ?_, ?_⟩
      · simp only [ExtendedMantissa.ofMantissaAndAccuracy, true_iff]
        omega
      · simp only [ExtendedMantissa.ofMantissaAndAccuracy, Bool.false_eq_true, false_iff]
        omega
    | gt =>
      have more := Nat.compare_eq_gt.mp order
      refine ⟨rfl, ?_, ?_⟩
      · simp only [ExtendedMantissa.ofMantissaAndAccuracy, true_iff]
        omega
      · simp only [ExtendedMantissa.ofMantissaAndAccuracy, true_iff]
        omega

/-- Shifting by one to the right doubles the denominator. -/
theorem succ (positive : 0 < denominator) (truncated : Truncated extended numerator denominator) :
    Truncated extended.shiftRightOne numerator (denominator * 2) := by
  obtain ⟨quotient, round, sticky⟩ := truncated
  have small : numerator % denominator < denominator := Nat.mod_lt numerator positive
  have rest : numerator % (denominator * 2) =
      numerator % denominator + denominator * (numerator / denominator % 2) := Nat.mod_mul
  obtain even | odd := Nat.mod_two_eq_zero_or_one (numerator / denominator)
  · rw [even, Nat.mul_zero, Nat.add_zero] at rest
    refine ⟨?_, ?_, ?_⟩
    · rw [ExtendedMantissa.shiftRightOne, quotient, Nat.div_div_eq_div_mul]
    · simp only [ExtendedMantissa.shiftRightOne, quotient, even, bne_self_eq_false,
        Bool.false_eq_true, false_iff]
      omega
    · simp only [ExtendedMantissa.shiftRightOne, Bool.or_eq_true, round, sticky]
      omega
  · rw [odd, Nat.mul_one] at rest
    refine ⟨?_, ?_, ?_⟩
    · rw [ExtendedMantissa.shiftRightOne, quotient, Nat.div_div_eq_div_mul]
    · have bit : (numerator / denominator % 2 != 0) = true := by rw [odd]; rfl
      simp only [ExtendedMantissa.shiftRightOne, quotient, bit, true_iff]
      omega
    · simp only [ExtendedMantissa.shiftRightOne, Bool.or_eq_true, round, sticky]
      omega

/-- Shifting any number of times. -/
theorem run (positive : 0 < denominator) (truncated : Truncated extended numerator denominator)
    (shift : Nat) : Truncated (extended >>> shift) numerator (denominator * 2 ^ shift) := by
  induction shift with
  | zero =>
    rw [Nat.pow_zero, Nat.mul_one]
    exact truncated
  | succ shift ih =>
    rw [Nat.pow_succ, ← Nat.mul_assoc]
    exact ih.succ (Nat.mul_pos positive (Nat.two_pow_pos shift))

/-- The two bits decide as the rest does in which direction the quotient is rounded. -/
theorem roundedMantissa_eq (truncated : Truncated extended numerator denominator) :
    extended.roundedMantissa = roundHalfEven numerator denominator := by
  obtain ⟨mantissa, roundBit, stickyBit⟩ := extended
  obtain ⟨quotient, round, sticky⟩ := truncated
  simp only at quotient round sticky
  have parity := Nat.mod_two_eq_zero_or_one (numerator / denominator)
  subst quotient
  simp only [roundHalfEven]
  cases roundBit <;> cases stickyBit <;>
    simp only [ExtendedMantissa.roundedMantissa, ExtendedMantissa.accuracy,
      Accuracy.roundToNearestEven, Bool.false_eq_true, false_iff, true_iff] at round sticky ⊢
  all_goals split_ifs <;> omega

end Truncated

section Normal

variable {mantissa : Nat} {exponent : Int}

/-- A number with one bit in front of `bits` others has its leading bit there. -/
theorem log2_of_bounds {number bits : Nat} (lower : 2 ^ bits ≤ number)
    (upper : number < 2 ^ (bits + 1)) : number.log2 = bits := by
  have positive : 0 < 2 ^ bits := Nat.two_pow_pos bits
  exact (Nat.log2_eq_iff (by omega)).mpr ⟨lower, upper⟩

/-- The exponent at which a number keeps the bits of a mantissa. -/
theorem targetExponent_eq (exponent : Int) {number shift : Nat}
    (lower : 2 ^ (52 + shift) ≤ number) (upper : number < 2 ^ (53 + shift))
    (normal : -1074 ≤ exponent + shift) :
    Format.binary64.targetExponent (totalExponent number exponent) = exponent + shift := by
  have leading : number.log2 = 52 + shift :=
    log2_of_bounds lower (by rwa [show 52 + shift + 1 = 53 + shift by omega])
  have width : Format.binary64.mantissaBits = 53 := rfl
  have least : Format.binary64.minExponent = -1074 := rfl
  rw [Format.targetExponent, totalExponent, leading, width, least]
  omega

/-- Shifting to that exponent. -/
theorem shiftToTargetExponent_eq (exponent : Int) {accuracy : Accuracy} {start shift : Nat}
    {numerator denominator : Nat} (positive : 0 < denominator)
    (truncated : Truncated (ExtendedMantissa.ofMantissaAndAccuracy start accuracy)
      numerator denominator)
    (lower : 2 ^ (52 + shift) ≤ start) (upper : start < 2 ^ (53 + shift))
    (normal : -1074 ≤ exponent + shift) :
    ∃ extended, shiftToTargetExponent Format.binary64 start exponent accuracy =
      (extended, exponent + shift) ∧ Truncated extended numerator (denominator * 2 ^ shift) := by
  refine ⟨_, ?_, truncated.run positive shift⟩
  have distance : (exponent + shift - exponent).toNat = shift := by omega
  have target := targetExponent_eq exponent lower upper normal
  simp only [shiftToTargetExponent, shiftToExponent, target, distance]

/-- A number that a mantissa may be rounded to is a mantissa, or twice the least one. -/
theorem exists_carry {result : Nat} (lower : 2 ^ 52 ≤ result) (upper : result ≤ 2 ^ 53) :
    ∃ mantissa carry : Nat, 2 ^ 52 ≤ mantissa ∧ mantissa < 2 ^ 53 ∧ carry ≤ 1 ∧
      mantissa * 2 ^ carry = result := by
  by_cases short : result < 2 ^ 53
  · exact ⟨result, 0, lower, short, by omega, by omega⟩
  · exact ⟨2 ^ 52, 1, by omega, by omega, by omega, by omega⟩

/-- What is known of the part cut off does not change the whole part. -/
theorem mantissa_ofMantissaAndAccuracy (start : Nat) (accuracy : Accuracy) :
    (ExtendedMantissa.ofMantissaAndAccuracy start accuracy).mantissa = start := by
  match accuracy with
  | .exact => rfl
  | .inexact order => cases order <;> rfl

/-- A fraction whose whole part has no fewer bits than a mantissa is rounded to a normal mantissa,
at one place more if rounding has made it longer by a bit. -/
theorem roundWithAccuracy_eq (sign : Sign) (exponent : Int) {accuracy : Accuracy}
    {start shift numerator denominator : Nat} (above : 0 < denominator)
    (truncated : Truncated (ExtendedMantissa.ofMantissaAndAccuracy start accuracy)
      numerator denominator)
    (lower : 2 ^ (52 + shift) ≤ start) (upper : start < 2 ^ (53 + shift))
    (normal : -1074 ≤ exponent + shift) :
    ∃ (mantissa carry : Nat) (positive : 0 < mantissa),
      roundWithAccuracy Format.binary64 sign start exponent accuracy =
          .finite sign mantissa (exponent + shift + carry) positive ∧
        2 ^ 52 ≤ mantissa ∧ mantissa < 2 ^ 53 ∧ carry ≤ 1 ∧
        mantissa * 2 ^ carry = roundHalfEven numerator (denominator * 2 ^ shift) := by
  obtain ⟨extended, first, shifted⟩ :=
    shiftToTargetExponent_eq exponent above truncated lower upper normal
  have whole : start = numerator / denominator := by
    rw [← truncated.quotient, mantissa_ofMantissaAndAccuracy]
  have rounded := shifted.roundedMantissa_eq
  have least := le_roundHalfEven numerator (denominator * 2 ^ shift)
  have most := roundHalfEven_le numerator (denominator * 2 ^ shift)
  have power : 0 < 2 ^ shift := Nat.two_pow_pos shift
  rw [← Nat.div_div_eq_div_mul, ← whole] at least most
  have low : 2 ^ 52 ≤ start / 2 ^ shift := by
    rw [Nat.le_div_iff_mul_le power, ← Nat.pow_add]
    exact lower
  have high : start / 2 ^ shift < 2 ^ 53 := by
    rw [Nat.div_lt_iff_lt_mul power, ← Nat.pow_add]
    exact upper
  generalize roundHalfEven numerator (denominator * 2 ^ shift) = result at rounded least most ⊢
  obtain ⟨mantissa, carry, below, beyond, one, value⟩ :=
    exists_carry (Nat.le_trans low least) (Nat.le_trans most high)
  have fits : 2 ^ (52 + carry) ≤ result := by
    rw [← value, Nat.pow_add]
    exact Nat.mul_le_mul_right _ below
  have exceeds : result < 2 ^ (53 + carry) := by
    rw [← value, Nat.pow_add]
    exact Nat.mul_lt_mul_of_pos_right beyond (Nat.two_pow_pos carry)
  obtain ⟨again, second, kept⟩ := shiftToTargetExponent_eq (exponent + shift) Nat.one_pos
    (.whole result) fits exceeds (by omega)
  obtain rfl : again.mantissa = mantissa := by
    rw [kept.quotient, Nat.one_mul, ← value, Nat.mul_div_cancel _ (Nat.two_pow_pos carry)]
  have nonzero : again.mantissa ≠ 0 := by omega
  refine ⟨again.mantissa, carry, by omega, ?_, below, beyond, one, value⟩
  rw [roundWithAccuracy, first]
  dsimp only
  rw [rounded, second]
  dsimp only
  rw [dif_neg nonzero]

/-- The sign of a number that is negative or not. -/
def signOf (negative : Bool) : Sign := if negative then .negative else .positive

/-- The bits of a normal float are its sign, its exponent, counted from the smallest one, and its
mantissa without the leading bit. -/
theorem toBits_pack (negative : Bool) (exponent : Int) (lower : 2 ^ 52 ≤ mantissa)
    (upper : mantissa < 2 ^ 53) (normal : -1074 ≤ exponent) (finite : exponent ≤ 971)
    (positive : 0 < mantissa) :
    (Float.Model.pack (.finite (signOf negative) mantissa exponent positive)).toBits.toNat =
      negative.toNat * 2 ^ 63 + (exponent + 1075).toNat * 2 ^ 52 + mantissa % 2 ^ 52 := by
  have leading : mantissa.log2 + 1 = Format.binary64.mantissaBits := by
    rw [log2_of_bounds lower upper]
    rfl
  have bounded : ¬ 2 ^ Format.binary64.exponentBits ≤ (exponent + Format.binary64.exponentBias +
      Format.binary64.mantissaBitsWithoutImplicit).toNat + 1 := by
    show ¬ 2048 ≤ (exponent + 1023 + 52).toNat + 1
    omega
  have fields : pack Format.binary64 (.finite (signOf negative) mantissa exponent positive) =
      ((signOf negative).toBitVec ++ BitVec.ofNat 11 (exponent + 1023 + 52).toNat ++
        BitVec.ofNat 52 mantissa : BitVec _) := by
    show (if _ then _ else if _ then packComponents _ _ _ _ else _) = _
    rw [if_neg bounded, if_pos leading]
    rfl
  have biased : (exponent + 1023 + 52).toNat % 2 ^ 11 = (exponent + 1075).toNat := by omega
  have small : mantissa % 2 ^ 52 < 2 ^ 52 := Nat.mod_lt mantissa (Nat.two_pow_pos 52)
  have middle : (exponent + 1075).toNat < 2 ^ 11 := by omega
  have front : (signOf negative).toBitVec.toNat = negative.toNat := by cases negative <;> rfl
  show (pack Format.binary64 (.finite (signOf negative) mantissa exponent positive)).toNat = _
  rw [fields]
  simp only [BitVec.toNat_append, BitVec.toNat_ofNat, biased, front]
  rw [← Nat.shiftLeft_add_eq_or_of_lt small, ← Nat.shiftLeft_add_eq_or_of_lt middle,
    Nat.shiftLeft_eq, Nat.shiftLeft_eq]
  omega

/-- Bits with these fields stand for the sign, the mantissa and the exponent. -/
theorem ofBits_eq_finite {bits : UInt64} (negative : Bool)
    (fields : bits.toNat =
      negative.toNat * 2 ^ 63 + (exponent + 1075).toNat * 2 ^ 52 + mantissa % 2 ^ 52)
    (lower : 2 ^ 52 ≤ mantissa) (upper : mantissa < 2 ^ 53) (normal : -1074 ≤ exponent)
    (finite : exponent ≤ 971) : Binary.ofBits bits = .finite negative mantissa exponent := by
  have rest : mantissa % 2 ^ 52 = mantissa - 2 ^ 52 := by omega
  rw [rest] at fields
  have sign : decide (2 ^ 63 ≤ bits.toNat) = negative := by
    cases negative with
    | false =>
      rw [Bool.toNat_false] at fields
      exact decide_eq_false (by omega)
    | true =>
      rw [Bool.toNat_true] at fields
      exact decide_eq_true (by omega)
  have biased : bits.toNat / 2 ^ 52 % 2 ^ 11 = (exponent + 1075).toNat := by omega
  have fraction : bits.toNat % 2 ^ 52 = mantissa - 2 ^ 52 := by omega
  have whole : Binary.leastNormal + (mantissa - 2 ^ 52) = mantissa := by
    have power : Binary.leastNormal = 2 ^ 52 := rfl
    rw [power]
    omega
  have place : Binary.leastExponent + ((exponent + 1075).toNat : Int) - 1 = exponent := by
    rw [Binary.leastExponent]
    omega
  simp only [Binary.ofBits, Nat.pow_eq, sign, biased, fraction, whole, place]
  rw [if_neg (by omega), if_neg (by omega)]

/-- A normal float stands for the parts that it is packed from. -/
theorem ofFloat_pack (negative : Bool) (lower : 2 ^ 52 ≤ mantissa) (upper : mantissa < 2 ^ 53)
    (normal : -1074 ≤ exponent) (finite : exponent ≤ 971) (positive : 0 < mantissa) :
    Binary.ofFloat (.ofModel (.pack (.finite (signOf negative) mantissa exponent positive))) =
      .finite negative mantissa exponent := by
  have fields := toBits_pack negative exponent lower upper normal finite positive
  exact ofBits_eq_finite negative fields lower upper normal finite

end Normal

section Whole

variable {number shift : Nat}

/-- A product of floats is the product of their mantissas, rounded. -/
theorem mul_finite (left right : Nat) (first second : Int) (positive : 0 < left)
    (too : 0 < right) :
    mul Format.binary64 (.finite .positive left first positive)
        (.finite .positive right second too) =
      roundWithAccuracy Format.binary64 .positive (left * right) (first + second) .exact := rfl

/-- A whole number times a power of ten is given 53 bits more before it is rounded, unless both are
short. -/
theorem ofScientific_eq {number power : Nat} (some : number ≠ 0)
    (slow : ¬ (number < 2 ^ 53 ∧ power ≤ 22)) (bounded : power ≤ 2048) :
    Float.ofScientific number false power = .ofModel (.pack (roundWithAccuracy Format.binary64
      .positive (number * 2 ^ 53 * 10 ^ power) (-53) .exact)) := by
  have wide : (2 ^ Format.binary64.exponentBits : Int) = 2048 := rfl
  have most : ¬ Int.ofNat power > 2 ^ Format.binary64.exponentBits := by
    rw [wide, Int.ofNat_eq_natCast]
    omega
  have least : ¬ Int.ofNat power < -((2 ^ Format.binary64.exponentBits : Int) + number.log2) := by
    rw [wide, Int.ofNat_eq_natCast]
    omega
  have width : Format.binary64.mantissaBits = 53 := rfl
  have scaled : (number <<< 53) * 10 ^ (Int.ofNat power).toNat = number * 2 ^ 53 * 10 ^ power := by
    rw [Nat.shiftLeft_eq, Int.ofNat_eq_natCast, Int.toNat_natCast]
  have place : -((53 : Nat) : Int) + 0 = -53 := rfl
  have unsigned : 0 ≤ Int.ofNat power := Int.natCast_nonneg power
  rw [Float.ofScientific, dif_neg slow]
  dsimp only
  rw [if_neg Bool.false_ne_true, Float.Model.ofScientific, ofScientific, dif_neg some,
    if_neg most, if_neg least, if_pos unsigned, mul_finite, width, scaled, place]

/-- The float nearest to a whole number of more than 53 bits. -/
theorem ofFloat_ofScientific (lower : 2 ^ (52 + shift) ≤ number) (upper : number < 2 ^ (53 + shift))
    (long : 1 ≤ shift) (finite : shift ≤ 970) :
    ∃ mantissa places : Nat,
      Binary.ofFloat (Float.ofScientific number false 0) = .finite false mantissa places ∧
        mantissa * 2 ^ places = 2 ^ shift * roundHalfEven number (2 ^ shift) := by
  have beyond : 2 ^ 53 ≤ 2 ^ (52 + shift) := Nat.pow_le_pow_right (by decide) (by omega)
  -- The number is given 53 bits more before it is rounded, and is shifted by as many more.
  have scaledLower : 2 ^ (52 + (shift + 53)) ≤ number * 2 ^ 53 := by
    rw [← Nat.add_assoc, Nat.pow_add _ (52 + shift)]
    exact Nat.mul_le_mul_right _ lower
  have scaledUpper : number * 2 ^ 53 < 2 ^ (53 + (shift + 53)) := by
    rw [← Nat.add_assoc, Nat.pow_add _ (53 + shift)]
    exact Nat.mul_lt_mul_of_pos_right upper (by decide)
  obtain ⟨mantissa, carry, positive, rounded, least, most, one, value⟩ :=
    roundWithAccuracy_eq .positive (-53) Nat.one_pos (.whole _) scaledLower scaledUpper (by omega)
  rw [Nat.one_mul, Nat.pow_add 2 shift, roundHalfEven_mul _ _ (by decide)] at value
  have place : (-53 : Int) + (shift + 53 : Nat) + carry = (shift + carry : Nat) := by omega
  rw [place] at rounded
  refine ⟨mantissa, shift + carry, ?_, ?_⟩
  · rw [ofScientific_eq (by omega) (by omega) (by decide), Nat.pow_zero, Nat.mul_one, rounded]
    exact ofFloat_pack false least most (by omega) (by omega) positive
  · rw [Nat.pow_add, Nat.mul_left_comm, value]

/-- What is read of that float as a whole number. -/
theorem toNatBelow_ofScientific (bound : Nat) (lower : 2 ^ (52 + shift) ≤ number)
    (upper : number < 2 ^ (53 + shift)) (long : 1 ≤ shift) (finite : shift ≤ 970) :
    toNatBelow bound (Float.ofScientific number false 0) =
      min (2 ^ shift * roundHalfEven number (2 ^ shift)) (bound - 1) := by
  obtain ⟨mantissa, places, parts, value⟩ := ofFloat_ofScientific lower upper long finite
  have up : (places : Int).toNat = places := Int.toNat_natCast places
  have down : (-(places : Int)).toNat = 0 := by omega
  simp only [toNatBelow, parts, fraction, up, down, Nat.pow_eq, Nat.pow_zero, value, roundHalfUp]
  rw [Nat.mul_one, show (2 * (2 ^ shift * roundHalfEven number (2 ^ shift)) + 1) / 2 =
    2 ^ shift * roundHalfEven number (2 ^ shift) by omega]

end Whole

end AesTrials.Decimal
