import AesTrials.Proofs.Nearest

/-!
# Arithmetic of floats

A float of 53 bits that is computed is nearest to what would come out exactly, if that is neither
very large nor very small. The float is opened down to its bits: sign, mantissa and exponent are
found in them again, the exact result is a fraction of whole numbers at some exponent, and its
rounding is the rounding of that fraction.
-/

namespace AesTrials.Decimal
open Float.Model (Format totalExponent)
open Float.Model.UnpackedFloat

section Fields

variable (bits : BitVec Format.binary64.numBits)

/-- The mantissa without its leading bit. -/
theorem toNat_unpackMantissa : (unpackMantissa bits).toNat = bits.toNat % 2 ^ 52 := by
  rw [unpackMantissa, BitVec.toNat_cast, BitVec.extractLsb_toNat]
  rfl

/-- The exponent counted from the smallest one. -/
theorem toNat_unpackExponent : (unpackExponent bits).toNat = bits.toNat / 2 ^ 52 % 2 ^ 11 := by
  rw [unpackExponent, BitVec.toNat_cast, BitVec.extractLsb_toNat, Nat.shiftRight_eq_div_pow]
  rfl

/-- The sign is the first bit. -/
theorem ofBitVec_unpackSign :
    Sign.ofBitVec (unpackSign bits) = signOf (decide (2 ^ 63 ≤ bits.toNat)) := by
  have bounded : bits.toNat < 2 ^ 64 := bits.isLt
  have first : (unpackSign bits).toNat = bits.toNat / 2 ^ 63 % 2 := by
    show (BitVec.extractLsb 63 63 bits).toNat = _
    rw [BitVec.extractLsb_toNat, Nat.shiftRight_eq_div_pow]
  by_cases large : 2 ^ 63 ≤ bits.toNat
  · have other : unpackSign bits ≠ 0#1 := by
      intro zero
      rw [zero] at first
      have none : (0#1).toNat = 0 := rfl
      omega
    rw [Sign.ofBitVec, if_neg other, decide_eq_true large]
    rfl
  · have zero : unpackSign bits = 0#1 := by
      apply BitVec.eq_of_toNat_eq
      rw [first]
      show bits.toNat / 2 ^ 63 % 2 = 0
      omega
    rw [Sign.ofBitVec, if_pos zero, decide_eq_false large]
    rfl

/-- What the fields of a normal float are taken for. -/
theorem unpack_normal (finite : bits.toNat / 2 ^ 52 % 2 ^ 11 ≠ 2047)
    (normal : bits.toNat / 2 ^ 52 % 2 ^ 11 ≠ 0) :
    ∃ positive, unpack Format.binary64 bits =
      .finite (signOf (decide (2 ^ 63 ≤ bits.toNat))) (2 ^ 52 + bits.toNat % 2 ^ 52)
        (-1074 + ((bits.toNat / 2 ^ 52 % 2 ^ 11 : Nat) : Int) - 1) positive := by
  have field := toNat_unpackExponent bits
  have special : unpackExponent bits ≠ -1#11 := by
    intro same
    rw [same] at field
    exact finite field.symm
  have zero : unpackExponent bits ≠ 0#11 := by
    intro same
    rw [same] at field
    exact normal field.symm
  have place : ((unpackExponent bits).toNat : Int) -
      ((Format.binary64.exponentBias : Int) + Format.binary64.mantissaBitsWithoutImplicit) =
      -1074 + ((bits.toNat / 2 ^ 52 % 2 ^ 11 : Nat) : Int) - 1 := by
    have bias : (Format.binary64.exponentBias : Int) +
      Format.binary64.mantissaBitsWithoutImplicit = 1075 := rfl
    rw [field, bias]
    omega
  have digits : (1#1 ++ unpackMantissa bits).toNat = 2 ^ 52 + bits.toNat % 2 ^ 52 := by
    have small : bits.toNat % 2 ^ 52 < 2 ^ 52 := Nat.mod_lt _ (Nat.two_pow_pos 52)
    rw [BitVec.toNat_append, toNat_unpackMantissa, ← Nat.shiftLeft_add_eq_or_of_lt small]
    rfl
  rw [← place, ← digits, ← ofBitVec_unpackSign]
  refine ⟨?_, ?_⟩
  · rw [digits]
    omega
  · show (if unpackExponent bits = -1#11 then _ else if unpackExponent bits = 0#11 then _
      else _) = _
    rw [if_neg special, if_neg zero]

end Fields

/-- Whether a float stands for a mantissa of 53 bits at an exponent, with a sign. -/
structure Stands (x : Float) (negative : Bool) (mantissa : Nat) (exponent : Int) : Prop where
  /-- What it stands for. -/
  kind : Binary.ofFloat x = .finite negative mantissa exponent
  /-- The mantissa has its leading bit. -/
  least : 2 ^ 52 ≤ mantissa
  /-- The mantissa has no further bit in front. -/
  most : mantissa < 2 ^ 53

namespace Stands

variable {x y : Float} {negative : Bool} {mantissa : Nat} {exponent : Int}

/-- The parts of the float are the fields of its bits. -/
theorem fields (stands : Stands x negative mantissa exponent) :
    negative = decide (2 ^ 63 ≤ x.toBits.toNat) ∧ mantissa = 2 ^ 52 + x.toBits.toNat % 2 ^ 52 ∧
      exponent = -1074 + ((x.toBits.toNat / 2 ^ 52 % 2 ^ 11 : Nat) : Int) - 1 ∧
      x.toBits.toNat / 2 ^ 52 % 2 ^ 11 ≠ 2047 ∧ x.toBits.toNat / 2 ^ 52 % 2 ^ 11 ≠ 0 := by
  obtain ⟨kind, least, most⟩ := stands
  simp only [Binary.ofFloat, Binary.ofBits, Nat.pow_eq] at kind
  split at kind
  · split at kind <;> contradiction
  next finite =>
    split at kind
    next =>
      obtain ⟨rfl, rfl, rfl⟩ := Binary.finite.inj kind
      omega
    next normal =>
      obtain ⟨rfl, rfl, rfl⟩ := Binary.finite.inj kind
      exact ⟨rfl, rfl, rfl, finite, normal⟩

/-- The bits of a float count the floats up to it. -/
theorem toBits_eq (stands : Stands x negative mantissa exponent) :
    (x.toBits.toNat : Int) =
      (negative.toNat : Int) * 2 ^ 63 + (rank mantissa exponent + 1074 * 2 ^ 52) := by
  have bounded : x.toBits.toNat < 2 ^ 64 := x.toBits.toBitVec.isLt
  obtain ⟨rfl, rfl, rfl, _⟩ := stands.fields
  rw [rank]
  by_cases large : 2 ^ 63 ≤ x.toBits.toNat
  · rw [decide_eq_true large, Bool.toNat_true]
    omega
  · rw [decide_eq_false large, Bool.toNat_false]
    omega

/-- The exponent is one that a float can have. -/
theorem exponent_bounds (stands : Stands x negative mantissa exponent) :
    -1074 ≤ exponent ∧ exponent ≤ 971 := by
  obtain ⟨_, _, place, finite, normal⟩ := stands.fields
  omega

/-- The float is taken apart into what it stands for. -/
theorem unpack_eq (stands : Stands x negative mantissa exponent) :
    ∃ positive, x.toModel.unpack = .finite (signOf negative) mantissa exponent positive := by
  obtain ⟨rfl, rfl, rfl, finite, normal⟩ := stands.fields
  exact unpack_normal x.toModel.toBits.toBitVec finite normal

/-- The float is not infinite. -/
theorem isInf_eq_false (stands : Stands x negative mantissa exponent) : x.isInf = false := by
  obtain ⟨_, parts⟩ := stands.unpack_eq
  rw [Float.isInf, Float.Model.isInf, parts]
  rfl

/-- The size of the float is nearest to itself. -/
theorem self (stands : Stands x negative mantissa exponent) :
    Nearest (mantissa * 2 ^ exponent) mantissa exponent :=
  .refl stands.least stands.most exponent

end Stands

/-- A float is known by its bits. -/
theorem eq_of_toBits_eq {x y : Float} (same : x.toBits = y.toBits) : x = y := by
  obtain ⟨⟨bits, _⟩⟩ := x
  obtain ⟨⟨others, _⟩⟩ := y
  obtain rfl : bits = others := same
  rfl

/-- There is one float for each mantissa, exponent and sign. -/
theorem Stands.unique {x y : Float} {negative : Bool} {mantissa : Nat} {exponent : Int}
    (one : Stands x negative mantissa exponent) (other : Stands y negative mantissa exponent) :
    x = y := by
  have same : (x.toBits.toNat : Int) = y.toBits.toNat := one.toBits_eq.trans other.toBits_eq.symm
  exact eq_of_toBits_eq (UInt64.toNat_inj.mp (by exact_mod_cast same))

/-- A float is packed from its parts without loss. -/
theorem stands_pack (negative : Bool) {mantissa : Nat} {exponent : Int} (least : 2 ^ 52 ≤ mantissa)
    (most : mantissa < 2 ^ 53) (bounds : -1074 ≤ exponent ∧ exponent ≤ 971)
    (positive : 0 < mantissa) :
    Stands (.ofModel (.pack (.finite (signOf negative) mantissa exponent positive))) negative
      mantissa exponent :=
  ⟨ofFloat_pack negative least most bounds.1 bounds.2 positive, least, most⟩

/-! ## Rounding -/

/-- Whether a number is far from the largest and from the smallest float. -/
structure Moderate (value : ℚ) : Prop where
  /-- It is not too small. -/
  lower : 2 ^ (-1000 : Int) ≤ value
  /-- It is not too large. -/
  upper : value ≤ 2 ^ (1000 : Int)

namespace Moderate

variable {value middle last : ℚ}

/-- Numbers between powers of two that are not far apart are moderate. -/
theorem of_between (least most : Int) (lower : 2 ^ least ≤ value) (upper : value ≤ 2 ^ most)
    (low : -1000 ≤ least) (high : most ≤ 1000) : Moderate value :=
  ⟨(zpow_le_zpow_right₀ (by norm_num) low).trans lower,
    upper.trans (zpow_le_zpow_right₀ (by norm_num) high)⟩

/-- A power of two above a moderate number is not too small. -/
theorem lt_of_lt (moderate : Moderate value) {power : Int} (upper : value < 2 ^ power) :
    -1000 < power :=
  (zpow_lt_zpow_iff_right₀ (by norm_num : (1 : ℚ) < 2)).mp (moderate.lower.trans_lt upper)

/-- A power of two above a number that is moderate in some unit is not too small in that unit. -/
theorem lt_of_scaled {power : Nat} {exponent : Int} (moderate : Moderate (value * 2 ^ exponent))
    (upper : value < 2 ^ power) : -1000 < power + exponent := by
  have unit : (0 : ℚ) < 2 ^ exponent := by positivity
  apply moderate.lt_of_lt
  rw [zpow_add₀ (by norm_num), zpow_natCast]
  exact mul_lt_mul_of_pos_right upper unit

/-- A number that is two steps of rounding away from one that is quite moderate. -/
theorem of_close (lower : 2 ^ (-200 : Int) ≤ value) (upper : value ≤ 2 ^ (200 : Int))
    (first : Close value middle) (second : Close middle last) (positive : 0 < middle)
    (above : 0 < last) : Moderate last := by
  have quarter : 4 * (2 : ℚ) ^ (-202 : Int) = 2 ^ (-200 : Int) := by norm_num
  have fourfold : (2 : ℚ) ^ (202 : Int) = 4 * 2 ^ (200 : Int) := by norm_num
  have some : (0 : ℚ) < 2 ^ (-200 : Int) := by positivity
  have one := first.le_double positive.le
  have two := second.le_double above.le
  have three := first.symm.le_double (some.le.trans lower)
  have four := second.symm.le_double positive.le
  refine of_between (-202) 202 ?_ ?_ (by omega) (by omega)
  · rw [← quarter] at lower
    generalize (2 : ℚ) ^ (-202 : Int) = least at lower ⊢
    linarith
  · rw [fourfold]
    linarith

end Moderate

/-- Whether a float, without its sign, is the nearest one to a number. -/
def Rounds (x : Float) (negative : Bool) (value : ℚ) : Prop :=
  ∃ mantissa exponent, Stands x negative mantissa exponent ∧ Nearest value mantissa exponent

/-- A float that is nearest to a moderate number is packed without loss. -/
theorem rounds_pack {value : ℚ} {mantissa : Nat} {exponent : Int} (negative : Bool)
    (nearest : Nearest value mantissa exponent) (moderate : Moderate value)
    (positive : 0 < mantissa) :
    Rounds (.ofModel (.pack (.finite (signOf negative) mantissa exponent positive))) negative
      value := by
  have low := nearest.le_exponent moderate.lower
  have high := nearest.exponent_le moderate.upper
  have bounds : -1074 ≤ exponent ∧ exponent ≤ 971 := by omega
  exact ⟨mantissa, exponent, stands_pack negative nearest.least nearest.most bounds positive,
    nearest⟩

/-- A fraction with enough bits in front is rounded to the nearest float. -/
theorem roundWithAccuracy_nearest (sign : Sign) (exponent : Int) {accuracy : Accuracy}
    {start numerator denominator : Nat} (above : 0 < denominator)
    (truncated : Truncated (ExtendedMantissa.ofMantissaAndAccuracy start accuracy)
      numerator denominator)
    (long : 2 ^ 52 ≤ start) (moderate : Moderate (numerator / denominator * 2 ^ exponent)) :
    ∃ (mantissa : Nat) (place : Int) (positive : 0 < mantissa),
      roundWithAccuracy Format.binary64 sign start exponent accuracy =
          .finite sign mantissa place positive ∧
        Nearest (numerator / denominator * 2 ^ exponent) mantissa place := by
  have whole : start = numerator / denominator := by
    rw [← truncated.quotient, mantissa_ofMantissaAndAccuracy]
  have nonzero : start ≠ 0 := by omega
  obtain ⟨shift, leading⟩ : ∃ shift, start.log2 = 52 + shift :=
    Nat.exists_eq_add_of_le ((Nat.le_log2 nonzero).mpr long)
  obtain ⟨lower, upper⟩ := (Nat.log2_eq_iff nonzero).mp leading
  have count : 52 + shift + 1 = 53 + shift := by omega
  rw [count] at upper
  have counted : (0 : ℚ) < denominator := by exact_mod_cast above
  have most : numerator < 2 ^ (53 + shift) * denominator := by
    rw [whole, Nat.div_lt_iff_lt_mul above] at upper
    exact upper
  have least : 2 ^ (52 + shift) * denominator ≤ numerator := by
    rw [whole, Nat.le_div_iff_mul_le above] at lower
    exact lower
  have normal : -1074 ≤ exponent + shift := by
    have bound : (numerator / denominator : ℚ) < 2 ^ (53 + shift) := by
      rw [div_lt_iff₀ counted]
      exact_mod_cast most
    have less := moderate.lt_of_scaled bound
    omega
  obtain ⟨mantissa, carry, positive, rounded, first, last, one, value⟩ :=
    roundWithAccuracy_eq sign exponent above truncated lower upper normal
  have power : 0 < 2 ^ shift := Nat.two_pow_pos shift
  have nearest : Nearest (numerator / (denominator * 2 ^ shift : Nat)) mantissa carry := by
    refine nearest_of_rounded (Nat.mul_pos above power) ?_ ?_ first last one value
    · rw [Nat.pow_add] at least
      calc 2 ^ 52 * (denominator * 2 ^ shift) = 2 ^ 52 * 2 ^ shift * denominator := by ring
        _ ≤ numerator := least
    · rw [Nat.pow_add] at most
      calc numerator < 2 ^ 53 * 2 ^ shift * denominator := most
        _ = 2 ^ 53 * (denominator * 2 ^ shift) := by ring
  have scaled := nearest.scale (exponent + shift)
  have same : (numerator / (denominator * 2 ^ shift : Nat) : ℚ) * 2 ^ (exponent + shift) =
      numerator / denominator * 2 ^ exponent := by
    rw [zpow_add₀ (by norm_num), zpow_natCast]
    push_cast
    field_simp
  rw [same, add_comm] at scaled
  exact ⟨mantissa, exponent + shift + carry, positive, rounded, scaled⟩

/-- A whole number times a power of two is rounded to the nearest float, with bits added behind it
if it is short. -/
theorem round_nearest (sign : Sign) {number : Nat} {exponent : Int} (some : 0 < number)
    (moderate : Moderate (number * 2 ^ exponent)) :
    ∃ (mantissa : Nat) (place : Int) (positive : 0 < mantissa),
      Float.Model.UnpackedFloat.round Format.binary64 sign number exponent =
          .finite sign mantissa place positive ∧
        Nearest (number * 2 ^ exponent) mantissa place := by
  obtain ⟨lower, upper⟩ := (Nat.log2_eq_iff (by omega : number ≠ 0)).mp rfl
  have normal : -1074 ≤ number.log2 - 52 + exponent := by
    have bound : (number : ℚ) < 2 ^ (number.log2 + 1) := by exact_mod_cast upper
    have less := moderate.lt_of_scaled bound
    omega
  have width : Format.binary64.mantissaBits = 53 := rfl
  have smallest : Format.binary64.minExponent = -1074 := rfl
  have target : Format.binary64.targetExponent (totalExponent number exponent) =
      number.log2 - 52 + exponent := by
    rw [Format.targetExponent, totalExponent, width, smallest]
    omega
  generalize shape : (exponent - (number.log2 - 52 + exponent)).toNat = shift
  have long : 2 ^ 52 ≤ number <<< shift := by
    rw [Nat.shiftLeft_eq]
    calc 2 ^ 52 ≤ 2 ^ (number.log2 + shift) := Nat.pow_le_pow_right (by decide) (by omega)
      _ = 2 ^ number.log2 * 2 ^ shift := Nat.pow_add ..
      _ ≤ number * 2 ^ shift := Nat.mul_le_mul_right _ lower
  have same : ((number <<< shift : Nat) / (1 : Nat) * 2 ^ (exponent - shift) : ℚ) =
      number * 2 ^ exponent := by
    rw [Nat.shiftLeft_eq, zpow_sub₀ (by norm_num), zpow_natCast]
    push_cast
    field_simp
  have lengthened : Float.Model.UnpackedFloat.round Format.binary64 sign number exponent =
      roundWithAccuracy Format.binary64 sign (number <<< shift) (exponent - shift) .exact := by
    rw [Float.Model.UnpackedFloat.round]
    simp only [target, decreaseExponent, shape]
  rw [← same] at moderate ⊢
  rw [lengthened]
  exact roundWithAccuracy_nearest sign (exponent - shift) Nat.one_pos (.whole _) long moderate

/-- A whole number that is not zero is rounded as its size is, with its own sign. -/
theorem normalize_eq {number : Int} (exponent : Int) (some : number ≠ 0) :
    Float.Model.UnpackedFloat.normalize Format.binary64 number exponent .positive =
      Float.Model.UnpackedFloat.round Format.binary64 (signOf (decide (number < 0)))
        number.natAbs exponent := by
  by_cases below : number < 0
  · have order : compare number 0 = .lt := compare_lt_iff_lt.mpr below
    have size : (-number).toNat = number.natAbs := by omega
    simp only [Float.Model.UnpackedFloat.normalize, order, size, decide_eq_true below]
    rfl
  · have order : compare number 0 = .gt := compare_gt_iff_gt.mpr (by omega)
    have size : number.toNat = number.natAbs := by omega
    simp only [Float.Model.UnpackedFloat.normalize, order, size, decide_eq_false below]
    rfl

/-- A whole number with a sign, times a power of two, is rounded to the nearest float. -/
theorem rounds_normalize {number : Int} (exponent : Int) (some : number ≠ 0)
    (moderate : Moderate (number.natAbs * 2 ^ exponent)) :
    Rounds (.ofModel (.pack (Float.Model.UnpackedFloat.normalize Format.binary64 number exponent
      .positive))) (decide (number < 0)) (number.natAbs * 2 ^ exponent) := by
  have positive : 0 < number.natAbs := Int.natAbs_pos.mpr some
  obtain ⟨mantissa, place, above, rounded, nearest⟩ :=
    round_nearest (signOf (decide (number < 0))) positive moderate
  have packed := rounds_pack (decide (number < 0)) nearest moderate above
  rw [normalize_eq exponent some, rounded]
  exact packed

/-! ## Operations -/

/-- The float of a positive whole number that a word holds. -/
theorem rounds_toFloat {number : Nat} (some : 0 < number) (fits : number < 2 ^ 64) :
    Rounds number.toUInt64.toFloat false number := by
  have word : number.toUInt64.toNat = number := Nat.mod_eq_of_lt fits
  have value : (((number : Int).natAbs : ℚ) * 2 ^ (0 : Int)) = number := by
    rw [zpow_zero, mul_one, Int.natAbs_natCast]
  have moderate : Moderate (number : ℚ) := by
    have first : (2 : ℚ) ^ (0 : Int) ≤ number := by
      rw [zpow_zero]
      exact_mod_cast some
    have last : (number : ℚ) ≤ 2 ^ (64 : Int) := by exact_mod_cast fits.le
    exact Moderate.of_between 0 64 first last (by norm_num) (by norm_num)
  have rounded := rounds_normalize 0 (by omega : (number : Int) ≠ 0)
    (value.symm ▸ moderate)
  rw [value, decide_eq_false (by omega)] at rounded
  rw [UInt64.toFloat, Float.Model.ofUInt64, ofUInt64, ofNat, ofInt, word]
  exact rounded

section Operations

variable {x y : Float} {negative opposite : Bool} {mantissa other : Nat} {exponent place : Int}

/-- A product of floats. -/
theorem rounds_mul (left : Stands x negative mantissa exponent)
    (right : Stands y opposite other place)
    (moderate : Moderate (mantissa * 2 ^ exponent * (other * 2 ^ place))) :
    Rounds (x * y) (negative ^^ opposite) (mantissa * 2 ^ exponent * (other * 2 ^ place)) := by
  obtain ⟨first, unpacked⟩ := left.unpack_eq
  obtain ⟨second, unpackedOther⟩ := right.unpack_eq
  have value : ((mantissa * other : Nat) / (1 : Nat) * 2 ^ (exponent + place) : ℚ) =
      mantissa * 2 ^ exponent * (other * 2 ^ place) := by
    rw [zpow_add₀ (by norm_num)]
    push_cast
    ring
  have long : 2 ^ 52 ≤ mantissa * other := by
    calc 2 ^ 52 ≤ mantissa := left.least
      _ ≤ mantissa * other := Nat.le_mul_of_pos_right _ second
  obtain ⟨product, power, positive, rounded, nearest⟩ :=
    roundWithAccuracy_nearest (signOf negative * signOf opposite) (exponent + place) Nat.one_pos
      (.whole (mantissa * other)) long (value.symm ▸ moderate)
  rw [value] at nearest
  have sign : signOf negative * signOf opposite = signOf (negative ^^ opposite) := by
    cases negative <;> cases opposite <;> rfl
  rw [sign] at rounded
  have packed := rounds_pack (negative ^^ opposite) nearest moderate positive
  rw [← rounded, ← sign] at packed
  show Rounds (.ofModel (.pack (mul Format.binary64 x.toModel.unpack y.toModel.unpack))) _ _
  rw [unpacked, unpackedOther]
  exact packed

/-- The quotient of two floats as it is computed: 53 bits are put behind the dividend first. -/
theorem divCore_eq (least : 2 ^ 52 ≤ mantissa) (most : mantissa < 2 ^ 53)
    (leastOther : 2 ^ 52 ≤ other) (mostOther : other < 2 ^ 53)
    (normal : -1021 ≤ exponent - place) :
    divCore Format.binary64 mantissa exponent other place =
      (mantissa * 2 ^ 53 / other, exponent - place - 53,
        accuracyOfFraction (mantissa * 2 ^ 53 % other) other) := by
  have width : Format.binary64.mantissaBits = 53 := rfl
  have smallest : Format.binary64.minExponent = -1074 := rfl
  have target : min (exponent - place) (Format.binary64.targetExponent
      (totalExponent mantissa exponent - totalExponent other place)) = exponent - place - 53 := by
    rw [Format.targetExponent, totalExponent, totalExponent, log2_of_bounds least most,
      log2_of_bounds leastOther mostOther, width, smallest]
    omega
  have shift : (exponent - place - (exponent - place - 53)).toNat = 53 := by omega
  simp only [divCore, target, shift, Nat.shiftLeft_eq]

/-- A quotient of floats is the quotient of their mantissas, rounded. -/
theorem div_finite (left right : Nat) (sign signOther : Sign) (first second : Int)
    (positive : 0 < left) (too : 0 < right) :
    div Format.binary64 (.finite sign left first positive) (.finite signOther right second too) =
      roundWithAccuracy Format.binary64 (sign / signOther)
        (divCore Format.binary64 left first right second).1
        (divCore Format.binary64 left first right second).2.1
        (divCore Format.binary64 left first right second).2.2 := rfl

/-- A quotient of floats. -/
theorem rounds_div (left : Stands x negative mantissa exponent)
    (right : Stands y opposite other place)
    (moderate : Moderate (mantissa * 2 ^ exponent / (other * 2 ^ place))) :
    Rounds (x / y) (negative ^^ opposite) (mantissa * 2 ^ exponent / (other * 2 ^ place)) := by
  obtain ⟨first, unpacked⟩ := left.unpack_eq
  obtain ⟨second, unpackedOther⟩ := right.unpack_eq
  obtain ⟨_, least, most⟩ := left
  obtain ⟨_, leastOther, mostOther⟩ := right
  have above : (0 : ℚ) < other := by exact_mod_cast second
  have value : ((mantissa * 2 ^ 53 : Nat) / other * 2 ^ (exponent - place - 53) : ℚ) =
      mantissa * 2 ^ exponent / (other * 2 ^ place) := by
    rw [zpow_sub₀ (by norm_num), zpow_sub₀ (by norm_num)]
    push_cast
    field_simp
  have normal : -1021 ≤ exponent - place := by
    have ratio : (mantissa / other : ℚ) < 2 ^ 1 := by
      have bound : mantissa < 2 ^ 1 * other := by omega
      rw [div_lt_iff₀ above]
      exact_mod_cast bound
    have split : (mantissa * 2 ^ exponent / (other * 2 ^ place) : ℚ) =
        mantissa / other * 2 ^ (exponent - place) := by
      rw [zpow_sub₀ (by norm_num), div_mul_div_comm]
    rw [split] at moderate
    have less := moderate.lt_of_scaled ratio
    omega
  have long : 2 ^ 52 ≤ mantissa * 2 ^ 53 / other := by
    rw [Nat.le_div_iff_mul_le second]
    omega
  obtain ⟨quotient, power, positive, rounded, nearest⟩ :=
    roundWithAccuracy_nearest (signOf negative / signOf opposite) (exponent - place - 53) second
      (.divided (mantissa * 2 ^ 53) second) long (value.symm ▸ moderate)
  rw [value] at nearest
  have sign : signOf negative / signOf opposite = signOf (negative ^^ opposite) := by
    cases negative <;> cases opposite <;> rfl
  rw [sign] at rounded
  have packed := rounds_pack (negative ^^ opposite) nearest moderate positive
  rw [← rounded, ← sign] at packed
  show Rounds (.ofModel (.pack (div Format.binary64 x.toModel.unpack y.toModel.unpack))) _ _
  rw [unpacked, unpackedOther, div_finite, divCore_eq least most leastOther mostOther normal]
  exact packed

/-- The difference of two floats in units of the smaller exponent. -/
def difference (mantissa : Nat) (exponent : Int) (other : Nat) (place : Int) : Int :=
  (mantissa * 2 ^ (exponent - min exponent place).toNat : Nat) -
    (other * 2 ^ (place - min exponent place).toNat : Nat)

/-- A power of two in units of a smaller one. -/
theorem two_pow_toNat_mul {power common : Int} (above : common ≤ power) :
    (2 : ℚ) ^ (power - common).toNat * 2 ^ common = 2 ^ power := by
  rw [← zpow_natCast, ← zpow_add₀ (by norm_num)]
  congr 1
  omega

/-- In these units the difference of two floats is a whole number. -/
theorem difference_mul (mantissa : Nat) (exponent : Int) (other : Nat) (place : Int) :
    (difference mantissa exponent other place * 2 ^ min exponent place : ℚ) =
      mantissa * 2 ^ exponent - other * 2 ^ place := by
  have first := two_pow_toNat_mul (min_le_left exponent place)
  have second := two_pow_toNat_mul (min_le_right exponent place)
  rw [difference, ← first, ← second]
  push_cast
  ring

/-- The difference of two positive floats is rounded from the whole number of units. -/
theorem sub_eq (left : Stands x false mantissa exponent) (right : Stands y false other place) :
    x - y = .ofModel (.pack (Float.Model.UnpackedFloat.normalize Format.binary64
      (difference mantissa exponent other place) (min exponent place) .positive)) := by
  obtain ⟨first, unpacked⟩ := left.unpack_eq
  obtain ⟨second, unpackedOther⟩ := right.unpack_eq
  show Float.ofModel (.pack (sub Format.binary64 x.toModel.unpack y.toModel.unpack)) = _
  rw [unpacked, unpackedOther, difference, ← Nat.shiftLeft_eq, ← Nat.shiftLeft_eq]
  rfl

/-- Two floats that differ have a difference that is nearest to the exact one. -/
theorem rounds_sub (left : Stands x false mantissa exponent)
    (right : Stands y false other place) (apart : difference mantissa exponent other place ≠ 0)
    (moderate : Moderate |(mantissa * 2 ^ exponent - other * 2 ^ place : ℚ)|) :
    Rounds (x - y) (decide (difference mantissa exponent other place < 0))
      |(mantissa * 2 ^ exponent - other * 2 ^ place : ℚ)| := by
  have unit : (0 : ℚ) < 2 ^ min exponent place := by positivity
  have size : |(mantissa * 2 ^ exponent - other * 2 ^ place : ℚ)| =
      (difference mantissa exponent other place).natAbs * 2 ^ min exponent place := by
    rw [← difference_mul, abs_mul, abs_of_pos unit, Nat.cast_natAbs, Int.cast_abs]
  rw [size] at moderate ⊢
  rw [sub_eq left right]
  exact rounds_normalize _ apart moderate

/-- The sum of two floats in units of the smaller exponent. -/
def total (mantissa : Nat) (exponent : Int) (other : Nat) (place : Int) : Nat :=
  mantissa * 2 ^ (exponent - min exponent place).toNat +
    other * 2 ^ (place - min exponent place).toNat

/-- In these units the sum of two floats is a whole number. -/
theorem total_mul (mantissa : Nat) (exponent : Int) (other : Nat) (place : Int) :
    (total mantissa exponent other place * 2 ^ min exponent place : ℚ) =
      mantissa * 2 ^ exponent + other * 2 ^ place := by
  have first := two_pow_toNat_mul (min_le_left exponent place)
  have second := two_pow_toNat_mul (min_le_right exponent place)
  rw [total, ← first, ← second]
  push_cast
  ring

/-- The sum of two positive floats is rounded from the whole number of units. -/
theorem add_eq (left : Stands x false mantissa exponent) (right : Stands y false other place) :
    x + y = .ofModel (.pack (Float.Model.UnpackedFloat.normalize Format.binary64
      (total mantissa exponent other place) (min exponent place) .positive)) := by
  obtain ⟨first, unpacked⟩ := left.unpack_eq
  obtain ⟨second, unpackedOther⟩ := right.unpack_eq
  show Float.ofModel (.pack (add Format.binary64 x.toModel.unpack y.toModel.unpack)) = _
  rw [unpacked, unpackedOther, total, ← Nat.shiftLeft_eq, ← Nat.shiftLeft_eq]
  rfl

/-- The sum of two positive floats is nearest to the exact one. -/
theorem rounds_add (left : Stands x false mantissa exponent)
    (right : Stands y false other place)
    (moderate : Moderate (mantissa * 2 ^ exponent + other * 2 ^ place)) :
    Rounds (x + y) false (mantissa * 2 ^ exponent + other * 2 ^ place) := by
  have some : 0 < total mantissa exponent other place := by
    have first : 0 < mantissa := lt_of_lt_of_le (by decide) left.least
    exact Nat.add_pos_left (Nat.mul_pos first (Nat.two_pow_pos _)) _
  have nonzero : (total mantissa exponent other place : Int) ≠ 0 := by omega
  have rounded := rounds_normalize (min exponent place) nonzero
    (by rw [Int.natAbs_natCast, total_mul]; exact moderate)
  rw [Int.natAbs_natCast, total_mul, decide_eq_false (by omega)] at rounded
  rw [add_eq left right]
  exact rounded

/-- A float with the other sign. -/
theorem stands_neg (stands : Stands x negative mantissa exponent) :
    Stands (-x) (!negative) mantissa exponent := by
  obtain ⟨positive, unpacked⟩ := stands.unpack_eq
  have sign : -signOf negative = signOf (!negative) := by cases negative <;> rfl
  have packed :=
    stands_pack (!negative) stands.least stands.most stands.exponent_bounds positive
  rw [← sign] at packed
  show Stands (.ofModel (.pack (neg x.toModel.unpack))) _ _ _
  rw [unpacked]
  exact packed

/-- Zero and the float of the number zero are the same. -/
theorem toFloat_zero : (0 : Nat).toUInt64.toFloat = 0.0 := by decide +kernel

/-- What zero is packed from. -/
theorem pack_zero : Float.ofModel (.pack (.zero .positive)) = 0.0 := by decide +kernel

/-- Zero is taken apart into itself. -/
theorem unpack_zero : (0.0 : Float).toModel.unpack = .zero .positive := by
  rw [← pack_zero]
  rfl

/-- Equal floats have no difference. -/
theorem sub_eq_zero (left : Stands x false mantissa exponent) (right : Stands y false other place)
    (same : difference mantissa exponent other place = 0) : x - y = 0.0 := by
  rw [sub_eq left right, same, ← pack_zero]
  rfl

/-- Zero less a float is the float with the other sign. -/
theorem stands_zero_sub (right : Stands y false other place) :
    Stands (0.0 - y) true other place := by
  obtain ⟨positive, unpacked⟩ := right.unpack_eq
  show Stands (.ofModel (.pack (sub Format.binary64 (0.0 : Float).toModel.unpack
    y.toModel.unpack))) _ _ _
  rw [unpack_zero, unpacked]
  exact stands_pack true right.least right.most right.exponent_bounds positive

/-- A float with zero added to it is the same. -/
theorem add_zero_eq (left : Stands x false mantissa exponent) : x + 0.0 = x := by
  obtain ⟨positive, unpacked⟩ := left.unpack_eq
  have packed : x + 0.0 =
      .ofModel (.pack (.finite (signOf false) mantissa exponent positive)) := by
    show Float.ofModel (.pack (add Format.binary64 x.toModel.unpack
      (0.0 : Float).toModel.unpack)) = _
    rw [unpack_zero, unpacked]
    rfl
  rw [packed]
  exact (stands_pack false left.least left.most left.exponent_bounds positive).unique left

/-- Zero with a float added to it is that float. -/
theorem zero_add_eq (right : Stands y false other place) : 0.0 + y = y := by
  obtain ⟨positive, unpacked⟩ := right.unpack_eq
  have packed : 0.0 + y = .ofModel (.pack (.finite (signOf false) other place positive)) := by
    show Float.ofModel (.pack (add Format.binary64 (0.0 : Float).toModel.unpack
      y.toModel.unpack)) = _
    rw [unpack_zero, unpacked]
    rfl
  rw [packed]
  exact (stands_pack false right.least right.most right.exponent_bounds positive).unique right

/-- A float divided by zero is infinite. -/
theorem ofFloat_div_zero (left : Stands x false mantissa exponent) :
    Binary.ofFloat (x / 0.0) = .infinite false := by
  obtain ⟨positive, unpacked⟩ := left.unpack_eq
  have packed : x / 0.0 = .ofModel (.pack (.infinity .positive)) := by
    show Float.ofModel (.pack (div Format.binary64 x.toModel.unpack
      (0.0 : Float).toModel.unpack)) = _
    rw [unpack_zero, unpacked]
    rfl
  rw [packed]
  decide +kernel

/-- Zero divided by a float is zero. -/
theorem zero_div_eq (right : Stands y false other place) : 0.0 / y = 0.0 := by
  obtain ⟨positive, unpacked⟩ := right.unpack_eq
  show Float.ofModel (.pack (div Format.binary64 (0.0 : Float).toModel.unpack
    y.toModel.unpack)) = _
  rw [unpack_zero, unpacked, ← pack_zero]
  rfl

end Operations

/-! ## Sizes -/

/-- Whether a float has a mantissa of 53 bits and its exponent lies between two others. -/
def Sized (low high : Int) (x : Float) (negative : Bool) : Prop :=
  ∃ mantissa exponent, Stands x negative mantissa exponent ∧ low ≤ exponent ∧ exponent ≤ high

/-- A float that is nearest to a number between two powers of two. -/
theorem Rounds.sized {x : Float} {negative : Bool} {value : ℚ}
    (rounds : Rounds x negative value) {low high : Int}
    (lower : 2 ^ (low + 52) ≤ value) (upper : value ≤ 2 ^ (high + 52)) :
    Sized low high x negative := by
  obtain ⟨mantissa, exponent, stands, nearest⟩ := rounds
  have least := nearest.le_exponent lower
  have most := nearest.exponent_le upper
  exact ⟨mantissa, exponent, stands, by omega, by omega⟩

/-- The float of a positive whole number of a word. -/
theorem sized_toFloat {number : Nat} (some : 0 < number) (fits : number < 2 ^ 64) :
    Sized (-52) 12 number.toUInt64.toFloat false := by
  have first : (2 : ℚ) ^ (-52 + 52 : Int) ≤ number := by
    norm_num
    exact some
  have last : (number : ℚ) ≤ 2 ^ (12 + 52 : Int) := by exact_mod_cast fits.le
  exact (rounds_toFloat some fits).sized first last

end AesTrials.Decimal
