import AesTrials.Json.Content
import AesTrials.Proofs.Arithmetic
import AesTrials.Proofs.ReportText
import AesTrials.Proofs.Shortest

/-!
# Floats read back from their numerals

The numeral of a float has all digits of its shortest decimal, with a point among them or behind
them, so the reader takes them as one whole number and is left with a power of ten. The float that
it makes is nearest to a product or a quotient of two floats, that of the digits and that of the
power. Each of these is itself rounded unless it is short, and each such rounding may lead to a
neighbour; so the float comes back as it was if both are short, and no more than two floats away
otherwise.
-/

namespace AesTrials

namespace Decimal

/-- Digits behind others move these to higher places. -/
theorem ofDigits_append (front back : List Nat) :
    ofDigits (front ++ back) = ofDigits front * 10 ^ back.length + ofDigits back := by
  have shift (digits : List Nat) (start : Nat) :
      digits.foldl (fun number digit => 10 * number + digit) start =
        start * 10 ^ digits.length + ofDigits digits := by
    induction digits generalizing start with
    | nil => simp [ofDigits]
    | cons digit digits ih =>
      rw [ofDigits, List.foldl_cons, List.foldl_cons, ih, ih (10 * 0 + digit), List.length_cons,
        Nat.pow_succ]
      ring
  rw [ofDigits, List.foldl_append]
  exact shift back (ofDigits front)

/-- Zeros stand for nothing. -/
theorem ofDigits_replicate (count : Nat) : ofDigits (List.replicate count 0) = 0 := by
  induction count with
  | zero => rfl
  | succ count ih =>
    rw [List.replicate_succ, ← List.singleton_append, ofDigits_append, ih]
    simp [ofDigits]

/-- The digits around the point are those of the number, with zeros for the places in front of the
point that are left open. -/
theorem ofDigits_place (number : Scientific) :
    ofDigits ((place number).1 ++ (place number).2) = number.digits * 10 ^ number.exponent.toNat ∧
      (place number).2.length = (-number.exponent).toNat := by
  obtain ⟨value, exponent⟩ := number
  match exponent with
  | .ofNat zeros =>
    constructor
    · rw [place, List.append_nil, ofDigits_append, ofDigits_replicate, ofDigits_digits,
        List.length_replicate, Nat.add_zero]
      rfl
    · simp only [place, List.length_nil, Int.ofNat_eq_natCast]
      omega
  | .negSucc n =>
    have none : (Int.negSucc n).toNat = 0 := rfl
    simp only [place]
    constructor
    · rw [List.take_append_drop, ofDigits_append, ofDigits_replicate, ofDigits_digits,
        Nat.zero_mul, Nat.zero_add, none, Nat.pow_zero, Nat.mul_one]
    · rw [List.length_drop, List.length_append, List.length_replicate]
      omega

/-- A number is smaller than the power of ten of its number of digits. -/
theorem lt_pow_length_digits (number : Nat) : number < 10 ^ (digits number).length := by
  have same : (digits number).length = digitCount number := List.length_map _
  obtain rfl | positive := Nat.eq_zero_or_pos number
  · exact Nat.pow_pos (by decide)
  · obtain ⟨more, count, _, upper⟩ := digitCount_bounds positive
    rwa [same, count]

end Decimal

namespace Json

namespace Number

/-- The digits of a number before and behind the point as one whole number. -/
def significand (number : Number) : Nat := Decimal.ofDigits (number.whole ++ number.behind)

/-- The power of ten of the last digit of a number. -/
def power (number : Number) : Int := number.exponent.getD 0 - number.behind.length

/-- The value of a number without its sign. -/
def value (number : Number) : ℚ := number.significand * 10 ^ number.power

/-- Digits are all taken if a word holds the number that they stand for. -/
theorem takeDigits_eq (digits : List Nat) (taken : Nat)
    (fits : taken * 10 ^ digits.length + Decimal.ofDigits digits < wholeLimit) :
    takeDigits taken digits = (taken * 10 ^ digits.length + Decimal.ofDigits digits, 0) := by
  induction digits generalizing taken with
  | nil => simp [takeDigits, Decimal.ofDigits]
  | cons digit digits ih =>
    have step : taken * 10 ^ (digit :: digits).length + Decimal.ofDigits (digit :: digits) =
        (10 * taken + digit) * 10 ^ digits.length + Decimal.ofDigits digits := by
      rw [← List.singleton_append, Decimal.ofDigits_append, List.length_append, Nat.pow_add]
      simp [Decimal.ofDigits]
      ring
    rw [step] at fits ⊢
    have positive : 0 < 10 ^ digits.length := Nat.pow_pos (by decide)
    have small : 10 * taken + digit < wholeLimit := by
      calc 10 * taken + digit ≤ (10 * taken + digit) * 10 ^ digits.length :=
            Nat.le_mul_of_pos_right _ positive
        _ ≤ _ := Nat.le_add_right _ _
        _ < wholeLimit := fits
    simp only [takeDigits, if_pos small]
    exact ih _ fits

/-- A number whose digits fit a word is made a float from its digits and its power. -/
theorem magnitude?_eq {number : Number} (fits : number.significand < wholeLimit) :
    number.magnitude? = scale? number.significand.toUInt64.toFloat number.power := by
  rw [significand, Decimal.ofDigits_append] at fits
  have front := takeDigits_eq number.whole 0 (by
    have positive : 0 < 10 ^ number.behind.length := Nat.pow_pos (by decide)
    calc 0 * 10 ^ number.whole.length + Decimal.ofDigits number.whole
        = Decimal.ofDigits number.whole := by rw [Nat.zero_mul, Nat.zero_add]
      _ ≤ Decimal.ofDigits number.whole * 10 ^ number.behind.length :=
        Nat.le_mul_of_pos_right _ positive
      _ ≤ _ := Nat.le_add_right _ _
      _ < wholeLimit := fits)
  have back := takeDigits_eq number.behind (Decimal.ofDigits number.whole) fits
  rw [Nat.zero_mul, Nat.zero_add] at front
  have place : ((0 : Nat) : Int) - ((number.behind.length : Int) - (0 : Nat)) +
      number.exponent.getD 0 = number.power := by
    rw [power]
    omega
  rw [significand, Decimal.ofDigits_append]
  simp only [magnitude?, front, back, place]

/-- A number laid out around a point stands for the same value, if need be with a zero behind the
point. -/
theorem value_place (negative : Bool) {number : Decimal.Scientific}
    (short : number.digits * 10 ^ number.exponent.toNat ≤ 10 ^ 17 + 1) {shown : Number}
    (laid : shown = ⟨negative, (Decimal.place number).1,
      if (Decimal.place number).2.isEmpty then [0] else (Decimal.place number).2, none⟩) :
    shown.value = number.value ∧ shown.significand < wholeLimit := by
  have limit : wholeLimit = 2 ^ 64 := rfl
  obtain ⟨front, back⟩ := Decimal.ofDigits_place number
  have quotient : number.value =
      (number.digits * 10 ^ number.exponent.toNat : Nat) / 10 ^ (-number.exponent).toNat := by
    rw [Decimal.Scientific.value, Decimal.zpow_eq_div, mul_div_assoc']
    push_cast
    rfl
  rw [quotient, laid]
  generalize number.digits * 10 ^ number.exponent.toNat = figure at front short
  generalize Decimal.place number = parts at front back
  obtain ⟨whole, behind⟩ := parts
  simp only at front back
  cases behind with
  | nil =>
    rw [List.append_nil] at front
    have digits : Decimal.ofDigits (whole ++ [0]) = figure * 10 := by
      rw [Decimal.ofDigits_append, front]
      rfl
    constructor
    · show (Decimal.ofDigits (whole ++ [0]) * 10 ^ (0 - ((1 : Nat) : Int)) : ℚ) = _
      rw [digits, ← back]
      push_cast
      norm_num
      ring
    · show Decimal.ofDigits (whole ++ [0]) < wholeLimit
      omega
  | cons digit more =>
    constructor
    · show (Decimal.ofDigits (whole ++ digit :: more) *
        10 ^ (0 - ((digit :: more).length : Int)) : ℚ) = _
      rw [front, back, zero_sub, zpow_neg, zpow_natCast, ← div_eq_mul_inv]
    · show Decimal.ofDigits (whole ++ digit :: more) < wholeLimit
      omega

/-- A number laid out with one digit in front of the point and an exponent stands for the same
value. -/
theorem value_spread (negative : Bool) (number : Decimal.Scientific) {shown : Number}
    (laid : shown = ⟨negative, (Decimal.digits number.digits).take 1,
      (Decimal.digits number.digits).drop 1,
      some ((Decimal.digits number.digits).length + number.exponent - 1)⟩) :
    shown.value = number.value ∧ shown.significand = number.digits := by
  have long := List.length_pos_of_ne_nil (Decimal.digits_ne_nil number.digits)
  have all : shown.significand = number.digits := by
    rw [laid]
    show Decimal.ofDigits (List.take 1 _ ++ List.drop 1 _) = _
    rw [List.take_append_drop, Decimal.ofDigits_digits]
  have place : shown.power = number.exponent := by
    rw [laid]
    show (Decimal.digits number.digits).length + number.exponent - 1 - (List.drop 1 _).length = _
    rw [List.length_drop]
    omega
  rw [value, all, place]
  exact ⟨rfl, rfl⟩

/-- The numeral of a float stands for its shortest decimal, and its digits fit a word. -/
theorem value_ofFinite (negative : Bool) (mantissa : Nat) (exponent : Int)
    (some : (Decimal.shortest Decimal.roundHalfEven mantissa exponent).digits ≠ 0)
    (short : (Decimal.shortest Decimal.roundHalfEven mantissa exponent).digits ≤ 10 ^ 17 + 1) :
    (ofFinite negative mantissa exponent).value =
        (Decimal.shortest Decimal.roundHalfEven mantissa exponent).value ∧
      (ofFinite negative mantissa exponent).significand < wholeLimit := by
  unfold ofFinite
  extract_lets number digits leading
  split
  next plain =>
    obtain nothing | ⟨_, below⟩ := plain
    · contradiction
    · have bound : number.digits * 10 ^ number.exponent.toNat ≤ 10 ^ 17 + 1 := by
        obtain whole | part : 0 ≤ number.exponent ∨ number.exponent < 0 := by omega
        · have places : digits.length + number.exponent.toNat ≤ 16 := by
            rw [plainBelow] at below
            omega
          calc number.digits * 10 ^ number.exponent.toNat
              ≤ 10 ^ digits.length * 10 ^ number.exponent.toNat :=
              Nat.mul_le_mul_right _ (Decimal.lt_pow_length_digits number.digits).le
            _ = 10 ^ (digits.length + number.exponent.toNat) := (Nat.pow_add ..).symm
            _ ≤ 10 ^ 16 := Nat.pow_le_pow_right (by decide) places
            _ ≤ 10 ^ 17 + 1 := by decide
        · have none : number.exponent.toNat = 0 := by omega
          rw [none, Nat.pow_zero, Nat.mul_one]
          exact short
      exact value_place negative bound rfl
  next =>
    obtain ⟨same, all⟩ := value_spread negative number rfl
    have fits : number.digits < wholeLimit := short.trans_lt (by decide)
    exact ⟨same, all ▸ fits⟩

/-! ## Powers of ten -/

open Decimal (Binary Close Moderate Nearest Rounds Stands)

/-- The first powers of ten are floats. -/
theorem ofFloat_powerOfTen_short : ∀ power < 23,
    Binary.ofFloat (powerOfTen power) =
        .finite false (10 ^ power * 2 ^ 52 / 2 ^ (10 ^ power).log2) ((10 ^ power).log2 - 52) ∧
      2 ^ 52 ≤ 10 ^ power * 2 ^ 52 / 2 ^ (10 ^ power).log2 ∧
      10 ^ power * 2 ^ 52 / 2 ^ (10 ^ power).log2 < 2 ^ 53 ∧
      2 ^ (10 ^ power).log2 ∣ 10 ^ power * 2 ^ 52 := by
  decide +kernel

/-- A power of ten as a float, which is the power itself if it is one of the first. -/
theorem exists_powerOfTen {power : Nat} (bounded : power ≤ 300) :
    ∃ mantissa exponent, Stands (powerOfTen power) false mantissa exponent ∧
      Nearest (10 ^ power) mantissa exponent ∧
      (power ≤ 22 → (mantissa * 2 ^ exponent : ℚ) = 10 ^ power) := by
  by_cases short : power ≤ 22
  · obtain ⟨kind, least, most, divides⟩ := ofFloat_powerOfTen_short power (by omega)
    have whole := Nat.div_mul_cancel divides
    generalize 10 ^ power * 2 ^ 52 / 2 ^ (10 ^ power).log2 = mantissa at kind least most whole
    generalize (10 ^ power).log2 = bits at kind whole
    have value : (mantissa * 2 ^ ((bits : Int) - 52) : ℚ) = 10 ^ power := by
      have counted : (mantissa * 2 ^ bits : ℚ) = 10 ^ power * 2 ^ 52 := by exact_mod_cast whole
      rw [zpow_sub₀ (by norm_num), zpow_natCast, ← mul_div_assoc, counted]
      norm_num
    have self := Nearest.refl least most ((bits : Int) - 52)
    rw [value] at self
    exact ⟨mantissa, _, ⟨kind, least, most⟩, self, fun _ => value⟩
  · have value : ((1 * 2 ^ 53 * 10 ^ power : Nat) / (1 : Nat) * 2 ^ (-53 : Int) : ℚ) =
        10 ^ power := by
      push_cast
      norm_num
      ring
    have moderate : Moderate (10 ^ power) := by
      constructor
      · calc (2 : ℚ) ^ (-1000 : Int) ≤ 2 ^ (0 : Int) :=
            zpow_le_zpow_right₀ (by norm_num) (by norm_num)
          _ = 1 := zpow_zero _
          _ ≤ 10 ^ power := one_le_pow₀ (by norm_num)
      · calc (10 : ℚ) ^ power ≤ 10 ^ (3 * 100) := pow_le_pow_right₀ (by norm_num) bounded
          _ = (10 ^ 3) ^ 100 := pow_mul ..
          _ ≤ (2 ^ 10) ^ 100 := pow_le_pow_left₀ (by norm_num) (by norm_num) 100
          _ = 2 ^ (1000 : Int) := by
            rw [← pow_mul]
            rfl
    have long : 2 ^ 52 ≤ 1 * 2 ^ 53 * 10 ^ power := by
      have positive : 0 < 10 ^ power := Nat.pow_pos (by decide)
      omega
    obtain ⟨mantissa, exponent, positive, rounded, nearest⟩ :=
      Decimal.roundWithAccuracy_nearest .positive (-53) Nat.one_pos (.whole _) long
        (value.symm ▸ moderate)
    rw [value] at nearest
    obtain ⟨own, place, kind, own_nearest⟩ := Decimal.rounds_pack false nearest moderate positive
    have packed : powerOfTen power = .ofModel (.pack (.finite (Decimal.signOf false) mantissa
        exponent positive)) := by
      rw [powerOfTen, Decimal.ofScientific_eq (by decide) (by omega) (by omega), rounded]
      rfl
    rw [packed]
    exact ⟨own, place, kind, own_nearest, fun few => absurd few short⟩

/-- Scaling multiplies by a power of ten or divides by one, whichever is at least one. -/
theorem exists_scale {x : Float} {mantissa : Nat} {exponent : Int}
    (stands : Stands x false mantissa exponent) {power : Int} (bounded : power.natAbs ≤ 300) :
    ∃ factor : ℚ, 0 < factor ∧ Close (10 ^ power) factor ∧
      (power.natAbs ≤ 22 → (10 : ℚ) ^ power = factor) ∧
      (Moderate (mantissa * 2 ^ exponent * factor) →
        ∃ y, scale? x power = some y ∧ Rounds y false (mantissa * 2 ^ exponent * factor)) := by
  obtain ⟨other, place, parts, nearest, exact⟩ := exists_powerOfTen bounded
  have positive := parts.self.value_pos
  have limit : ((largestPower : Nat) : Int) = 308 := rfl
  obtain up | down : 0 ≤ power ∨ power < 0 := by omega
  · have size : (10 : ℚ) ^ power = 10 ^ power.natAbs := by
      rw [← zpow_natCast]
      congr 1
      omega
    have count : power.toNat = power.natAbs := by omega
    refine ⟨other * 2 ^ place, positive, size ▸ nearest.close, fun few => ?_, fun moderate => ?_⟩
    · rw [size, exact few]
    · have product := Decimal.rounds_mul stands parts moderate
      obtain ⟨result, target, finite, rounded⟩ := product
      refine ⟨x * powerOfTen power.natAbs, ?_, result, target, finite, rounded⟩
      rw [scale?, if_pos up, if_pos (by omega), count]
      simp only [finite.isInf_eq_false, Bool.false_eq_true, if_false]
  · have size : (10 : ℚ) ^ power = 1 / 10 ^ power.natAbs := by
      rw [one_div, ← zpow_natCast, ← zpow_neg]
      congr 1
      omega
    have count : (-power).toNat = power.natAbs := by omega
    have ten : (0 : ℚ) < 10 ^ power.natAbs := by positivity
    refine ⟨1 / (other * 2 ^ place), by positivity, ?_, fun few => ?_, fun moderate => ?_⟩
    · rw [size]
      exact nearest.close.div zero_le_one ten positive
    · rw [size, exact few]
    · rw [mul_one_div] at moderate ⊢
      have quotient := Decimal.rounds_div stands parts moderate
      refine ⟨x / powerOfTen power.natAbs, ?_, quotient⟩
      rw [scale?, if_neg (by omega), if_pos (by omega), count]

/-! ## Numbers -/

variable {number : Number} {mantissa : Nat} {exponent : Int}

/-- How many of the digits and the power of ten of a number may be rounded when they become floats.
Digits up to two to the power of 53 and powers up to the 22nd never are. -/
def roundings (number : Number) : Nat :=
  (if number.significand ≤ 2 ^ 53 then 0 else 1) + (if number.power.natAbs ≤ 22 then 0 else 1)

/-- A number that is neither very large nor very small has no large power of ten. -/
theorem natAbs_power_le (fits : number.significand < wholeLimit)
    (lower : 2 ^ (-200 : Int) ≤ number.value) (upper : number.value ≤ 2 ^ (200 : Int)) :
    number.power.natAbs ≤ 300 := by
  have bound : (number.significand : ℚ) ≤ 2 ^ (64 : Int) := by
    have limit : wholeLimit = 2 ^ 64 := rfl
    rw [limit] at fits
    exact_mod_cast fits.le
  have positive : (0 : ℚ) < 2 ^ (-200 : Int) := by positivity
  have ten : (0 : ℚ) < 10 ^ number.power := by positivity
  have some : (1 : ℚ) ≤ number.significand := by
    have above := pos_of_mul_pos_left (positive.trans_le lower) ten.le
    exact_mod_cast above
  rw [value] at lower upper
  -- Eight is a power of two below ten.
  have eight (count : Nat) : (2 : ℚ) ^ (3 * count : Int) ≤ 10 ^ count := by
    rw [zpow_mul, zpow_natCast]
    exact pow_le_pow_left₀ (by norm_num) (by norm_num) count
  have one_lt : (1 : ℚ) < 2 := by norm_num
  obtain up | down : 0 ≤ number.power ∨ number.power < 0 := by omega
  · have size : (10 : ℚ) ^ number.power = 10 ^ number.power.natAbs := by
      rw [← zpow_natCast]
      congr 1
      omega
    have few : (2 : ℚ) ^ (3 * number.power.natAbs : Int) ≤ 2 ^ (200 : Int) := by
      calc (2 : ℚ) ^ (3 * number.power.natAbs : Int) ≤ 10 ^ number.power.natAbs := eight _
        _ = 10 ^ number.power := size.symm
        _ ≤ number.significand * 10 ^ number.power := le_mul_of_one_le_left ten.le some
        _ ≤ 2 ^ (200 : Int) := upper
    have less := (zpow_le_zpow_iff_right₀ one_lt).mp few
    omega
  · have size : (10 : ℚ) ^ number.power * 10 ^ number.power.natAbs = 1 := by
      rw [← zpow_natCast, ← zpow_add₀ (by norm_num), show number.power + number.power.natAbs = 0 by
        omega, zpow_zero]
    have few : (2 : ℚ) ^ (-200 + 3 * number.power.natAbs : Int) ≤ 2 ^ (64 : Int) := by
      calc (2 : ℚ) ^ (-200 + 3 * number.power.natAbs : Int)
          = 2 ^ (-200 : Int) * 2 ^ (3 * number.power.natAbs : Int) := zpow_add₀ (by norm_num) _ _
        _ ≤ number.significand * 10 ^ number.power * 10 ^ number.power.natAbs :=
          mul_le_mul lower (eight _) (by positivity) (by positivity)
        _ = number.significand := by rw [mul_assoc, size, mul_one]
        _ ≤ 2 ^ (64 : Int) := bound
    have less := (zpow_le_zpow_iff_right₀ one_lt).mp few
    omega

/-- A number is read as a float that is no more floats away from the nearest one than there are
factors that may be rounded. -/
theorem exists_magnitude (fits : number.significand < wholeLimit)
    (nearest : Nearest number.value mantissa exponent) (low : -200 ≤ exponent)
    (high : exponent ≤ 100) :
    ∃ y other place, number.magnitude? = some y ∧ Stands y false other place ∧
      |Decimal.rank other place - Decimal.rank mantissa exponent| ≤ number.roundings := by
  have limit : wholeLimit = 2 ^ 64 := rfl
  have lower : 2 ^ (-200 : Int) ≤ number.value :=
    (zpow_le_zpow_right₀ (by norm_num) (by omega)).trans nearest.two_zpow_lt.le
  have upper : number.value ≤ 2 ^ (200 : Int) :=
    nearest.lt_two_zpow.le.trans (zpow_le_zpow_right₀ (by norm_num) (by omega))
  have ten : (0 : ℚ) < 10 ^ number.power := by positivity
  have some : 0 < number.significand := by
    have above := pos_of_mul_pos_left nearest.value_pos ten.le
    exact_mod_cast above
  obtain ⟨first, firstPlace, stands, digits⟩ := Decimal.rounds_toFloat some (limit ▸ fits)
  obtain ⟨factor, positive, close, exact, scaled⟩ :=
    exists_scale stands (natAbs_power_le fits lower upper)
  have part := stands.self.value_pos
  -- The digits are rounded first, then the power, and last of all the product.
  have firstClose : Close number.value (first * 2 ^ firstPlace * 10 ^ number.power) := by
    have moved := digits.close.mul ten.le
    rwa [mul_comm, mul_comm _ (first * 2 ^ firstPlace : ℚ)] at moved
  have secondClose : Close (first * 2 ^ firstPlace * 10 ^ number.power)
      (first * 2 ^ firstPlace * factor) := close.mul part.le
  have halfway : (0 : ℚ) < first * 2 ^ firstPlace * 10 ^ number.power := by positivity
  have moderate : Moderate (first * 2 ^ firstPlace * factor) :=
    .of_close lower upper firstClose secondClose halfway (by positivity)
  obtain ⟨y, scaling, other, place, finite, last⟩ := scaled moderate
  obtain ⟨middle, middlePlace, between⟩ := Decimal.exists_nearest halfway
  have firstStep := nearest.rank_near between firstClose
    fun short : number.significand ≤ 2 ^ 53 => by rw [digits.eq_of_short short, value]
  have secondStep := between.rank_near last secondClose
    fun short : number.power.natAbs ≤ 22 => by rw [exact short]
  refine ⟨y, other, place, by rw [magnitude?_eq fits, scaling], finite, ?_⟩
  have sum := abs_sub_le (Decimal.rank other place) (Decimal.rank middle middlePlace)
    (Decimal.rank mantissa exponent)
  rw [roundings, Nat.cast_add, Nat.cast_ite, Nat.cast_ite, Nat.cast_zero, Nat.cast_one]
  linarith

end Number

/-! ## Floats -/

open Decimal (Stands)

/-- How many of the digits and the power of ten in the numeral of a float may be rounded. -/
def roundings (x : Float) : Nat :=
  match ofFloat x with
  | .number shown => shown.roundings
  | _ => 0

/-- A float that is neither very large nor very small is read back from its numeral as a float that
is no more floats away than factors are rounded. -/
theorem exists_reread {x : Float} {negative : Bool} {mantissa : Nat} {exponent : Int}
    (stands : Stands x negative mantissa exponent) (low : -200 ≤ exponent)
    (high : exponent ≤ 100) :
    ∃ y, reread? x = some y ∧ |(y.toBits.toNat : Int) - x.toBits.toNat| ≤ roundings x := by
  have written : ofFloat x = .number (.ofFinite negative mantissa exponent) := by
    simp only [ofFloat, stands.kind]
  have signed : (Number.ofFinite negative mantissa exponent).negative = negative := by
    unfold Number.ofFinite
    extract_lets
    split <;> rfl
  obtain ⟨nearest, short⟩ :=
    Decimal.shortest_nearest stands.least stands.most (by omega : exponent ≠ -1074)
  have some : (Decimal.shortest Decimal.roundHalfEven mantissa exponent).digits ≠ 0 := by
    intro none
    have positive := nearest.value_pos
    rw [Decimal.Scientific.value, none, Nat.cast_zero, zero_mul] at positive
    exact absurd positive (lt_irrefl 0)
  obtain ⟨value, fits⟩ := Number.value_ofFinite negative mantissa exponent some short
  rw [← value] at nearest
  obtain ⟨size, other, place, read, finite, near⟩ :=
    Number.exists_magnitude fits nearest low high
  rw [reread?_eq, roundings, written]
  simp only [float?, Number.toFloat?, read, signed, Option.map_some]
  refine ⟨_, rfl, ?_⟩
  have back : Stands (if negative then -size else size) negative other place := by
    cases negative with
    | false => exact finite
    | true => exact Decimal.stands_neg finite
  have apart : (negative.toNat : Int) * 2 ^ 63 + (Decimal.rank other place + 1074 * 2 ^ 52) -
      (negative.toNat * 2 ^ 63 + (Decimal.rank mantissa exponent + 1074 * 2 ^ 52)) =
      Decimal.rank other place - Decimal.rank mantissa exponent := by ring
  rw [back.toBits_eq, stands.toBits_eq, apart]
  exact near

/-- Zero is read back as it was. -/
theorem reread?_zero : reread? 0.0 = some 0.0 := by
  rw [reread?_eq]
  decide +kernel

end Json

end AesTrials
