import AesTrials.Duration
import AesTrials.Proofs.Arithmetic

/-!
# Means of measured times

A mean passes through floats: the seconds and the fraction of a second are converted and added up,
the sum is divided by the number of cycles, and the quotient is rounded to nanoseconds. For a time
that a clock has measured each of these floats is zero or of moderate size, so that the mean of any
number of cycles is a duration, no longer than the time itself, and but for roundings it is the
exact quotient. The mean of no cycles is no quotient: that division would have no answer.
-/

namespace AesTrials

namespace Decimal

/-! ## The numbers of floats -/

/-- The size of a finite float as a number. -/
def size (x : Float) : ℚ :=
  match Binary.ofFloat x with
  | .finite _ mantissa exponent => mantissa * 2 ^ exponent
  | .nan | .infinite _ => 0

/-- Whether a float is zero or lies, without a sign, between two exponents. -/
def Within (low high : Int) (x : Float) : Prop := x = 0.0 ∨ Sized low high x false

/-- Whether a float is the nearest one to a number that is not negative. -/
def Tracks (x : Float) (value : ℚ) : Prop := x = 0.0 ∧ value = 0 ∨ Rounds x false value

variable {x y : Float} {value number : ℚ}

theorem ofFloat_zero : Binary.ofFloat 0.0 = .finite false 0 (-1074) := by decide +kernel

theorem size_zero : size 0.0 = 0 := by
  rw [size, ofFloat_zero]
  norm_num

theorem size_nonneg (x : Float) : 0 ≤ size x := by
  unfold size
  split <;> positivity

section Stands

variable {negative : Bool} {mantissa other : Nat} {exponent place low high : Int}

theorem Stands.size_eq (stands : Stands x negative mantissa exponent) :
    size x = mantissa * 2 ^ exponent := by
  rw [size, stands.kind]

/-- Floats are in the order of the numbers that they are nearest to. -/
theorem Nearest.value_le (nearest : Nearest value mantissa exponent)
    (again : Nearest number other place) (ordered : value ≤ number) :
    (mantissa * 2 ^ exponent : ℚ) ≤ other * 2 ^ place := by
  obtain less | same := (nearest.rank_le again ordered).lt_or_eq
  · have apart := (high_le_low nearest.least nearest.most again.least again.most less).1
    exact ((lt_high mantissa exponent).le.trans apart).trans (low_lt other place).le
  · obtain ⟨rfl, rfl⟩ := nearest.eq_of_rank_eq again same
    exact le_rfl

theorem Sized.bounds (sized : Sized low high x negative) :
    2 ^ (low + 52) ≤ size x ∧ size x ≤ 2 ^ (high + 53) := by
  obtain ⟨mantissa, exponent, stands, least, most⟩ := sized
  have first : (2 ^ 52 : ℚ) ≤ mantissa := by exact_mod_cast stands.least
  have below := stands.self.lt_two_zpow
  rw [stands.size_eq]
  constructor
  · calc (2 : ℚ) ^ (low + 52) ≤ 2 ^ (exponent + 52) :=
          zpow_le_zpow_right₀ (by norm_num) (by omega)
      _ = 2 ^ 52 * 2 ^ exponent := by
          rw [zpow_add₀ (by norm_num), mul_comm]
          norm_num
      _ ≤ mantissa * 2 ^ exponent := mul_le_mul_of_nonneg_right first (by positivity)
  · exact below.le.trans (zpow_le_zpow_right₀ (by norm_num) (by omega))

end Stands

namespace Within

variable {low high : Int}

/-- A sum of floats is zero or no smaller than the least of them that is not. -/
theorem add_eq_zero_or (left : Within low high x) (right : Within low high y) :
    size x + size y = 0 ∨ 2 ^ (low + 52) ≤ size x + size y := by
  obtain rfl | first := left
  · rw [size_zero, zero_add]
    obtain rfl | second := right
    · exact .inl size_zero
    · exact .inr second.bounds.1
  · exact .inr (first.bounds.1.trans (le_add_of_nonneg_right (size_nonneg y)))

end Within

namespace Tracks

/-- A number is close to its float. -/
theorem close (tracks : Tracks x value) : Close value (size x) := by
  obtain ⟨rfl, rfl⟩ | ⟨mantissa, exponent, stands, nearest⟩ := tracks
  · rw [size_zero]
    constructor <;> simp
  · rw [stands.size_eq]
    exact nearest.close

/-- A larger number has no smaller float. -/
theorem size_le (tracks : Tracks x value) (again : Tracks y number) (ordered : value ≤ number) :
    size x ≤ size y := by
  obtain ⟨rfl, rfl⟩ | ⟨mantissa, exponent, stands, nearest⟩ := tracks
  · obtain ⟨rfl, rfl⟩ | ⟨_, _, stands, _⟩ := again
    · exact le_rfl
    · rw [size_zero, stands.size_eq]
      positivity
  · obtain ⟨rfl, rfl⟩ | ⟨other, place, parts, nearestOther⟩ := again
    · exact absurd nearest.value_pos (not_lt.mpr ordered)
    · rw [stands.size_eq, parts.size_eq]
      exact nearest.value_le nearestOther ordered

/-- A number that is no more than a float has no larger float. -/
theorem size_le_of_le (tracks : Tracks x value) {mantissa : Nat} {exponent : Int}
    (least : 2 ^ 52 ≤ mantissa) (most : mantissa < 2 ^ 53)
    (ordered : value ≤ mantissa * 2 ^ exponent) : size x ≤ mantissa * 2 ^ exponent := by
  obtain ⟨rfl, _⟩ | ⟨other, place, stands, nearest⟩ := tracks
  · rw [size_zero]
    positivity
  · rw [stands.size_eq]
    exact nearest.value_le (.refl least most exponent) ordered

/-- The float of a number that is zero or between two powers of two. -/
theorem within (tracks : Tracks x value) {low high : Int}
    (lower : value = 0 ∨ 2 ^ (low + 52) ≤ value) (upper : value ≤ 2 ^ (high + 52)) :
    Within low high x := by
  obtain ⟨rfl, _⟩ | rounds := tracks
  · exact .inl rfl
  · obtain rfl | lower := lower
    · obtain ⟨_, _, _, nearest⟩ := rounds
      exact absurd nearest.value_pos (lt_irrefl 0)
    · exact .inr (rounds.sized lower upper)

end Tracks

/-- A float without a sign tracks its own size. -/
theorem Within.tracks {low high : Int} (inside : Within low high x) : Tracks x (size x) := by
  obtain rfl | ⟨mantissa, exponent, stands, _⟩ := inside
  · exact .inl ⟨rfl, size_zero⟩
  · refine .inr ⟨mantissa, exponent, stands, ?_⟩
    rw [stands.size_eq]
    exact stands.self

/-- The float of a whole number that a word holds. -/
theorem tracks_toFloat {number : Nat} (fits : number < 2 ^ 64) :
    Tracks number.toUInt64.toFloat number := by
  obtain rfl | some := Nat.eq_zero_or_pos number
  · exact .inl ⟨toFloat_zero, Nat.cast_zero⟩
  · exact .inr (rounds_toFloat some fits)

/-- The float of a number that is one or more is one or more. -/
theorem Tracks.sized_of_one_le (tracks : Tracks x value) (some : 1 ≤ value)
    (fits : value ≤ 2 ^ 64) : Sized (-200) 100 x false ∧ 1 ≤ size x := by
  obtain ⟨_, rfl⟩ | rounds := tracks
  · exact absurd some (by norm_num)
  · have lower : (2 : ℚ) ^ (-200 + 52 : Int) ≤ value := le_trans (by norm_num) some
    have upper : value ≤ (2 : ℚ) ^ (100 + 52 : Int) := fits.trans (by norm_num)
    refine ⟨rounds.sized lower upper, ?_⟩
    obtain ⟨mantissa, exponent, stands, nearest⟩ := rounds
    have one : Nearest ((2 ^ 52 : Nat) * 2 ^ (-52 : Int)) (2 ^ 52) (-52) :=
      .refl le_rfl (by decide) (-52)
    have unit : ((2 ^ 52 : Nat) * 2 ^ (-52 : Int) : ℚ) = 1 := by norm_num
    rw [unit] at one
    rw [stands.size_eq, ← unit]
    exact one.value_le nearest some

/-- A whole number of no more bits than a mantissa is its own float. -/
theorem Tracks.size_of_short {number : Nat} (tracks : Tracks x number) (short : number ≤ 2 ^ 53) :
    size x = number := by
  obtain ⟨rfl, none⟩ | ⟨mantissa, exponent, stands, nearest⟩ := tracks
  · rw [size_zero, none]
  · rw [stands.size_eq, nearest.eq_of_short short]

/-- The sum of floats of moderate size. -/
theorem tracks_add (left : Within (-200) 100 x) (right : Within (-200) 100 y) :
    Tracks (x + y) (size x + size y) := by
  obtain rfl | first := left
  · obtain rfl | ⟨other, place, parts, _⟩ := right
    · refine .inl ⟨?_, by rw [size_zero, add_zero]⟩
      decide +kernel
    · rw [zero_add_eq parts, size_zero, zero_add]
      exact .inr ⟨other, place, parts, parts.size_eq ▸ parts.self⟩
  · have second := size_nonneg y
    obtain rfl | sized := right
    · obtain ⟨mantissa, exponent, stands, _⟩ := first
      rw [add_zero_eq stands, size_zero, add_zero]
      exact .inr ⟨mantissa, exponent, stands, stands.size_eq ▸ stands.self⟩
    · obtain ⟨lower, upper⟩ := first.bounds
      have upperOther := sized.bounds.2
      have moderate : Moderate (size x + size y) := by
        refine .of_between (-200 + 52) 154 (lower.trans (le_add_of_nonneg_right second)) ?_
          (by omega) (by omega)
        calc size x + size y ≤ 2 ^ (100 + 53 : Int) + 2 ^ (100 + 53 : Int) :=
              add_le_add upper upperOther
          _ = 2 ^ (154 : Int) := by norm_num
      obtain ⟨mantissa, exponent, stands, _⟩ := first
      obtain ⟨other, place, parts, _⟩ := sized
      rw [stands.size_eq, parts.size_eq] at moderate ⊢
      exact .inr (rounds_add stands parts moderate)

/-- The quotient of floats of moderate size. -/
theorem tracks_div (left : Within (-200) 100 x) (right : Sized (-200) 100 y false) :
    Tracks (x / y) (size x / size y) := by
  obtain ⟨lowerOther, upperOther⟩ := right.bounds
  have above : 0 < size y := lt_of_lt_of_le (by positivity) lowerOther
  obtain rfl | first := left
  · obtain ⟨other, place, parts, _⟩ := right
    exact .inl ⟨zero_div_eq parts, by rw [size_zero, zero_div]⟩
  · obtain ⟨lower, upper⟩ := first.bounds
    have moderate : Moderate (size x / size y) := by
      refine .of_between (-301) 301 ?_ ?_ (by omega) (by omega)
      · rw [le_div_iff₀ above]
        calc (2 : ℚ) ^ (-301 : Int) * size y ≤ 2 ^ (-301 : Int) * 2 ^ (100 + 53 : Int) :=
              mul_le_mul_of_nonneg_left upperOther (by positivity)
          _ = 2 ^ (-200 + 52 : Int) := by
              rw [← zpow_add₀ (by norm_num)]
              norm_num
          _ ≤ size x := lower
      · rw [div_le_iff₀ above]
        calc size x ≤ 2 ^ (100 + 53 : Int) := upper
          _ = 2 ^ (301 : Int) * 2 ^ (-200 + 52 : Int) := by
              rw [← zpow_add₀ (by norm_num)]
              norm_num
          _ ≤ 2 ^ (301 : Int) * size y :=
              mul_le_mul_of_nonneg_left lowerOther (by positivity)
    obtain ⟨mantissa, exponent, stands, _⟩ := first
    obtain ⟨other, place, parts, _⟩ := right
    rw [stands.size_eq, parts.size_eq] at moderate ⊢
    exact .inr (rounds_div stands parts moderate)

namespace Close

variable {first second third fourth fifth : ℚ}

/-- Sums of numbers that are close are close. -/
theorem add (one : Close first second) (other : Close third fourth) :
    Close (first + third) (second + fourth) := by
  obtain ⟨left, right⟩ := one
  obtain ⟨left', right'⟩ := other
  constructor <;> linarith

/-- Four steps one after the other make no more than one part in two to the power of 50. -/
theorem four (one : Close first second) (two : Close second third) (three : Close third fourth)
    (four : Close fourth fifth) (positive : 0 ≤ first) (last : 0 ≤ fifth) :
    |fifth - first| ≤ first / 2 ^ 50 := by
  have power : ((1 + 1 / 2 ^ 53) ^ 4 : ℚ) ≤ 1 + 1 / 2 ^ 50 := by norm_num
  have above : fifth ≤ first * (1 + 1 / 2 ^ 50) := by
    calc fifth ≤ fourth * (1 + 1 / 2 ^ 53) := four.right_le
      _ ≤ third * (1 + 1 / 2 ^ 53) * (1 + 1 / 2 ^ 53) :=
        mul_le_mul_of_nonneg_right three.right_le (by positivity)
      _ ≤ second * (1 + 1 / 2 ^ 53) * (1 + 1 / 2 ^ 53) * (1 + 1 / 2 ^ 53) := by
        gcongr
        exact two.right_le
      _ ≤ first * (1 + 1 / 2 ^ 53) * (1 + 1 / 2 ^ 53) * (1 + 1 / 2 ^ 53) * (1 + 1 / 2 ^ 53) := by
        gcongr
        exact one.right_le
      _ = first * (1 + 1 / 2 ^ 53) ^ 4 := by ring
      _ ≤ first * (1 + 1 / 2 ^ 50) := mul_le_mul_of_nonneg_left power positive
  have below : first ≤ fifth * (1 + 1 / 2 ^ 50) := by
    calc first ≤ second * (1 + 1 / 2 ^ 53) := one.left_le
      _ ≤ third * (1 + 1 / 2 ^ 53) * (1 + 1 / 2 ^ 53) :=
        mul_le_mul_of_nonneg_right two.left_le (by positivity)
      _ ≤ fourth * (1 + 1 / 2 ^ 53) * (1 + 1 / 2 ^ 53) * (1 + 1 / 2 ^ 53) := by
        gcongr
        exact three.left_le
      _ ≤ fifth * (1 + 1 / 2 ^ 53) * (1 + 1 / 2 ^ 53) * (1 + 1 / 2 ^ 53) * (1 + 1 / 2 ^ 53) := by
        gcongr
        exact four.left_le
      _ = fifth * (1 + 1 / 2 ^ 53) ^ 4 := by ring
      _ ≤ fifth * (1 + 1 / 2 ^ 50) := mul_le_mul_of_nonneg_left power last
  rw [abs_le]
  constructor <;> linarith

end Close

/-- A larger fraction is not rounded to a smaller number. -/
theorem roundHalfEven_mono {numerator denominator other divisor : Nat} (positive : 0 < denominator)
    (too : 0 < divisor) (ordered : numerator * divisor ≤ other * denominator) :
    roundHalfEven numerator denominator ≤ roundHalfEven other divisor := by
  -- On a common denominator only the numerators differ.
  rw [← roundHalfEven_mul numerator denominator too, ← roundHalfEven_mul other divisor positive,
    Nat.mul_comm divisor denominator]
  have above : 0 < denominator * divisor := Nat.mul_pos positive too
  generalize denominator * divisor = common at *
  generalize numerator * divisor = first at *
  generalize other * denominator = second at *
  obtain rfl | less := Nat.eq_or_lt_of_le ordered
  · exact le_rfl
  · have near := (roundHalfEven_near first above).1
    have far := (roundHalfEven_near second above).2
    by_contra greater
    have next : common * (roundHalfEven second common + 1) ≤
        common * roundHalfEven first common :=
      Nat.mul_le_mul_left common (by omega)
    rw [Nat.mul_add] at next
    omega

/-- A mantissa at an exponent as a fraction. -/
theorem fraction_eq (mantissa : Nat) (exponent : Int) :
    0 < (fraction mantissa exponent).2 ∧ (mantissa * 2 ^ exponent : ℚ) =
      (fraction mantissa exponent).1 / (fraction mantissa exponent).2 := by
  refine ⟨Nat.two_pow_pos _, ?_⟩
  have split : exponent = (exponent.toNat : Int) - ((-exponent).toNat : Int) := by omega
  simp only [fraction, Nat.pow_eq]
  conv_lhs => rw [split]
  rw [zpow_sub₀ (by norm_num), zpow_natCast, zpow_natCast]
  push_cast
  ring

end Decimal

open Decimal (Sized Within Tracks size)

/-! ## Seconds as floats -/

namespace Duration

/-- A float that is no more than the seconds of a duration is a duration. -/
theorem exists_ofSeconds? {x : Float} {value : ℚ} (tracks : Tracks x value)
    (small : size x < 2 ^ 64) :
    ∃ numerator denominator : Nat, 0 < denominator ∧ size x = numerator / denominator ∧
      ofSeconds? x = some ⟨Decimal.roundHalfEven (numerator * perSecond) denominator⟩ := by
  have finite : ∃ mantissa exponent,
      Decimal.Binary.ofFloat x = .finite false mantissa exponent := by
    obtain ⟨rfl, _⟩ | ⟨mantissa, exponent, stands, _⟩ := tracks
    · exact ⟨0, -1074, Decimal.ofFloat_zero⟩
    · exact ⟨mantissa, exponent, stands.kind⟩
  obtain ⟨mantissa, exponent, kind⟩ := finite
  obtain ⟨above, value⟩ := Decimal.fraction_eq mantissa exponent
  have same : size x = (Decimal.fraction mantissa exponent).1 /
      (Decimal.fraction mantissa exponent).2 := by
    rw [size, kind]
    exact value
  refine ⟨_, _, above, same, ?_⟩
  have counted : (0 : ℚ) < (Decimal.fraction mantissa exponent).2 := by exact_mod_cast above
  have less : ¬ secondsLimit * (Decimal.fraction mantissa exponent).2 ≤
      (Decimal.fraction mantissa exponent).1 := by
    rw [same, div_lt_iff₀ counted] at small
    rw [not_le]
    exact_mod_cast small
  have unsigned : ¬ (false = true ∧ mantissa ≠ 0) := fun both => Bool.false_ne_true both.1
  simp only [ofSeconds?, kind]
  rw [if_neg unsigned, if_neg less]

end Duration

namespace Elapsed

variable (elapsed : Elapsed)

/-- The float of a time is the sum of those of its whole seconds and of the fraction of a second. -/
theorem toSeconds_parts :
    ∃ whole part : Float, elapsed.duration.toSeconds = whole + part ∧
      Within (-200) 100 whole ∧ Within (-200) 100 part ∧
      Tracks whole elapsed.duration.seconds ∧
      Tracks part (elapsed.duration.nanos / Duration.perSecond) := by
  have seconds : elapsed.duration.seconds < 2 ^ 64 := elapsed.bounded.trans (by decide)
  have nanos : elapsed.duration.nanos < 2 ^ 64 := elapsed.duration.nanos_lt.trans (by decide)
  have short : elapsed.duration.nanos ≤ 2 ^ 53 :=
    elapsed.duration.nanos_lt.le.trans (by decide)
  have moderate {number : Nat} (fits : number < 2 ^ 64) :
      Within (-200) 100 number.toUInt64.toFloat := by
    refine (Decimal.tracks_toFloat fits).within ?_ ?_
    · obtain none | some := Nat.eq_zero_or_pos number
      · exact .inl (by exact_mod_cast none)
      · have one : (1 : ℚ) ≤ number := by exact_mod_cast some
        exact .inr (le_trans (by norm_num) one)
    · have most : (number : ℚ) ≤ 2 ^ 64 := by exact_mod_cast fits.le
      exact most.trans (by norm_num)
  have billion : Tracks 1000000000.0 Duration.perSecond := by
    have same : Duration.perSecond.toUInt64.toFloat = 1000000000.0 := by decide +kernel
    exact same ▸ Decimal.tracks_toFloat (by decide)
  have divisor : size 1000000000.0 = Duration.perSecond := billion.size_of_short (by decide)
  have sized := (billion.sized_of_one_le (by norm_num [Duration.perSecond])
    (by norm_num [Duration.perSecond])).1
  have part := Decimal.tracks_div (moderate nanos) sized
  rw [divisor, (Decimal.tracks_toFloat nanos).size_of_short short] at part
  refine ⟨_, _, rfl, moderate seconds, ?_, Decimal.tracks_toFloat seconds, part⟩
  refine part.within ?_ ?_
  · obtain none | some := Nat.eq_zero_or_pos elapsed.duration.nanos
    · rw [none, Nat.cast_zero, zero_div]
      exact .inl rfl
    · right
      have one : (1 : ℚ) ≤ elapsed.duration.nanos := by exact_mod_cast some
      rw [le_div_iff₀ (by norm_num [Duration.perSecond])]
      exact le_trans (by norm_num [Duration.perSecond]) one
  · have less : (elapsed.duration.nanos : ℚ) ≤ Duration.perSecond := by
      exact_mod_cast elapsed.duration.nanos_lt.le
    rw [div_le_iff₀ (by norm_num [Duration.perSecond])]
    exact less.trans (by norm_num [Duration.perSecond])

/-- The float of a time is far below the seconds that no duration can count. -/
theorem toSeconds_bounds :
    Within (-200) 100 elapsed.duration.toSeconds ∧ size elapsed.duration.toSeconds < 2 ^ 64 := by
  obtain ⟨whole, part, sum, inside, insideToo, tracks, tracksToo⟩ := elapsed.toSeconds_parts
  have wholes : size whole ≤ (2 ^ 52 : Nat) * 2 ^ (11 : Int) := by
    refine tracks.size_le_of_le le_rfl (by decide) ?_
    have most : (elapsed.duration.seconds : ℚ) ≤ 2 ^ 63 := by exact_mod_cast elapsed.bounded.le
    exact most.trans (by norm_num)
  have parts : size part ≤ (2 ^ 52 : Nat) * 2 ^ (-52 : Int) := by
    refine tracksToo.size_le_of_le le_rfl (by decide) ?_
    have less : (elapsed.duration.nanos : ℚ) ≤ Duration.perSecond := by
      exact_mod_cast elapsed.duration.nanos_lt.le
    rw [div_le_iff₀ (by norm_num [Duration.perSecond])]
    exact less.trans (by norm_num [Duration.perSecond])
  have most : size whole + size part ≤ (2 ^ 53 - 1 : Nat) * 2 ^ (11 : Int) := by
    norm_num at wholes parts ⊢
    linarith
  have total := Decimal.tracks_add inside insideToo
  rw [← sum] at total
  refine ⟨total.within (inside.add_eq_zero_or insideToo) (most.trans (by norm_num)), ?_⟩
  exact (total.size_le_of_le (by decide) (by decide) most).trans_lt (by norm_num)

/-- The number of cycles as a float. -/
theorem divisor_bounds {count : Nat} (positive : 0 < count) :
    ∃ number : Nat, Tracks (UInt64.ofNatClamp count).toFloat number ∧
      (count < 2 ^ 64 → number = count) ∧
      Sized (-200) 100 (UInt64.ofNatClamp count).toFloat false ∧
      1 ≤ size (UInt64.ofNatClamp count).toFloat := by
  have fits : (UInt64.ofNatClamp count).toNat < 2 ^ 64 := (UInt64.ofNatClamp count).toNat_lt
  have tracks := Decimal.tracks_toFloat fits
  rw [Nat.toUInt64, UInt64.ofNat_toNat] at tracks
  have same (less : count < 2 ^ 64) : (UInt64.ofNatClamp count).toNat = count :=
    UInt64.toNat_ofNatClamp_of_lt less
  have some : 1 ≤ (UInt64.ofNatClamp count).toNat := by
    by_cases less : count < 2 ^ 64
    · rw [same less]
      exact positive
    · rw [UInt64.toNat_ofNatClamp_of_le (not_lt.mp less)]
      decide
  have one : (1 : ℚ) ≤ (UInt64.ofNatClamp count).toNat := by exact_mod_cast some
  have most : ((UInt64.ofNatClamp count).toNat : ℚ) ≤ 2 ^ 64 := by exact_mod_cast fits.le
  exact ⟨_, tracks, same, tracks.sized_of_one_le one most⟩

/-- The seconds of a time divided by a number of cycles. -/
def quotient (count : Nat) : Float :=
  elapsed.duration.toSeconds / (UInt64.ofNatClamp count).toFloat

/-- The quotient is nearest to the exact one of the two floats, and no larger than the seconds. -/
theorem quotient_bounds {count : Nat} (positive : 0 < count) :
    Tracks (elapsed.quotient count)
        (size elapsed.duration.toSeconds / size (UInt64.ofNatClamp count).toFloat) ∧
      size (elapsed.quotient count) ≤ size elapsed.duration.toSeconds := by
  obtain ⟨inside, _⟩ := elapsed.toSeconds_bounds
  obtain ⟨_, _, _, sized, one⟩ := divisor_bounds positive
  have tracks := Decimal.tracks_div inside sized
  refine ⟨tracks, tracks.size_le inside.tracks ?_⟩
  exact div_le_self (Decimal.size_nonneg _) one

/-- The mean of some cycles is their quotient, rounded to nanoseconds. -/
theorem average?_eq {count : Nat} (positive : 0 < count) :
    ∃ numerator denominator : Nat, 0 < denominator ∧
      size (elapsed.quotient count) = numerator / denominator ∧
      elapsed.duration.average? count =
        some ⟨Decimal.roundHalfEven (numerator * Duration.perSecond) denominator⟩ := by
  obtain ⟨tracks, less⟩ := elapsed.quotient_bounds positive
  obtain ⟨numerator, denominator, above, value, rounded⟩ :=
    Duration.exists_ofSeconds? tracks (less.trans_lt elapsed.toSeconds_bounds.2)
  refine ⟨numerator, denominator, above, value, ?_⟩
  rw [Duration.average?, if_neg (by omega), Duration.divide?]
  exact rounded

/-- The mean of any number of cycles of a time is a duration. -/
theorem average?_eq_some (count : Nat) :
    elapsed.duration.average? count = some (elapsed.average count) := by
  obtain rfl | positive := Nat.eq_zero_or_pos count
  · rfl
  · obtain ⟨_, _, _, _, mean⟩ := elapsed.average?_eq positive
    rw [average, mean, Option.getD_some]

/-- Without cycles nothing is divided. A division by no cycles would have no answer. -/
theorem average_zero :
    elapsed.average 0 = .zero ∧ elapsed.duration.divide? (UInt64.ofNatClamp 0).toFloat = none := by
  refine ⟨rfl, ?_⟩
  have none : (UInt64.ofNatClamp 0).toFloat = 0.0 := by decide +kernel
  rw [none, Duration.divide?, Duration.ofSeconds?]
  obtain ⟨zero | ⟨_, _, stands, _⟩, _⟩ := elapsed.toSeconds_bounds
  · have invalid : Decimal.Binary.ofFloat (0.0 / 0.0) = .nan := by decide +kernel
    simp only [zero, invalid]
  · simp only [Decimal.ofFloat_div_zero stands]

/-- The mean of more cycles than one is no longer than that of one. -/
theorem average_le {count : Nat} (positive : 0 < count) :
    (elapsed.average count).nanoseconds ≤ (elapsed.average 1).nanoseconds := by
  obtain ⟨numerator, denominator, above, value, mean⟩ := elapsed.average?_eq positive
  obtain ⟨other, divisor, aboveToo, whole, first⟩ := elapsed.average?_eq Nat.one_pos
  have single : size (UInt64.ofNatClamp 1).toFloat = 1 := by
    obtain ⟨number, tracks, same, _⟩ := divisor_bounds Nat.one_pos
    obtain rfl := same (by decide)
    simpa using tracks.size_of_short (by decide)
  have ordered : size (elapsed.quotient count) ≤ size (elapsed.quotient 1) := by
    refine (elapsed.quotient_bounds positive).2.trans ?_
    have tracks := (elapsed.quotient_bounds Nat.one_pos).1
    rw [single, div_one] at tracks
    exact elapsed.toSeconds_bounds.1.tracks.size_le tracks le_rfl
  have counted : (0 : ℚ) < denominator := by exact_mod_cast above
  have countedToo : (0 : ℚ) < divisor := by exact_mod_cast aboveToo
  rw [value, whole, div_le_div_iff₀ counted countedToo] at ordered
  have crossed : numerator * divisor ≤ other * denominator := by exact_mod_cast ordered
  rw [average, average, mean, first, Option.getD_some, Option.getD_some]
  refine Decimal.roundHalfEven_mono above aboveToo ?_
  rw [Nat.mul_right_comm, Nat.mul_right_comm other]
  exact Nat.mul_le_mul_right _ crossed

/-- The seconds of a time, and a number of cycles, are close to their floats. -/
theorem quotient_near {count : Nat} (positive : 0 < count) (fits : count < 2 ^ 64) :
    |size (elapsed.quotient count) -
        elapsed.duration.nanoseconds / Duration.perSecond / count| ≤
      elapsed.duration.nanoseconds / Duration.perSecond / count / 2 ^ 50 := by
  obtain ⟨whole, part, sum, inside, insideToo, tracks, tracksToo⟩ := elapsed.toSeconds_parts
  obtain ⟨number, divisor, same, sized, one⟩ := divisor_bounds positive
  obtain rfl := same fits
  have total := Decimal.tracks_add inside insideToo
  rw [← sum] at total
  have quotient := (elapsed.quotient_bounds positive).1
  have exact : (elapsed.duration.seconds + elapsed.duration.nanos / Duration.perSecond : ℚ) =
      elapsed.duration.nanoseconds / Duration.perSecond := by
    have parts := Nat.div_add_mod elapsed.duration.nanoseconds Duration.perSecond
    have counted : (Duration.perSecond : ℚ) ≠ 0 := by norm_num [Duration.perSecond]
    rw [Duration.seconds, Duration.nanos, eq_div_iff counted, add_mul, div_mul_cancel₀ _ counted]
    exact_mod_cast (Nat.mul_comm _ _ ▸ parts)
  have cycles : (0 : ℚ) < number := by exact_mod_cast positive
  have above : 0 < size (UInt64.ofNatClamp number).toFloat := lt_of_lt_of_le one_pos one
  have inverse : 0 ≤ 1 / size (UInt64.ofNatClamp number).toFloat := by positivity
  have sums := (tracks.close.add tracksToo.close).mul inverse
  have floats := total.close.mul inverse
  rw [exact] at sums
  rw [one_div_mul_eq_div, one_div_mul_eq_div] at sums floats
  refine Decimal.Close.four (divisor.close.div (by positivity) cycles above) sums floats
    quotient.close (by positivity) (Decimal.size_nonneg _)

/-- The mean of some cycles is their exact quotient but for half a nanosecond and one part in two to
the power of 50. -/
theorem average_near {count : Nat} (positive : 0 < count) (fits : count < 2 ^ 64) :
    |((elapsed.average count).nanoseconds - elapsed.duration.nanoseconds / count : ℚ)| ≤
      1 / 2 + elapsed.duration.nanoseconds / count / 2 ^ 50 := by
  obtain ⟨numerator, denominator, above, value, mean⟩ := elapsed.average?_eq positive
  have near := elapsed.quotient_near positive fits
  have rounded := Decimal.abs_sub_roundHalfEven_le (numerator * Duration.perSecond) above
  have result : (elapsed.average count).nanoseconds =
      Decimal.roundHalfEven (numerator * Duration.perSecond) denominator := by
    rw [average, mean, Option.getD_some]
  rw [Nat.cast_mul, mul_div_right_comm, ← value, ← result] at rounded
  have scale : (Duration.perSecond : ℚ) = 10 ^ 9 := by norm_num [Duration.perSecond]
  rw [scale] at near rounded
  generalize size (elapsed.quotient count) = quotient at near rounded
  have units : (elapsed.duration.nanoseconds / 10 ^ 9 / count : ℚ) =
      elapsed.duration.nanoseconds / count / 10 ^ 9 := div_right_comm _ _ _
  rw [units] at near
  generalize (elapsed.duration.nanoseconds / count : ℚ) = exact at near ⊢
  rw [abs_le] at near rounded ⊢
  constructor <;> linarith

/-- Two nanoseconds over three cycles are one. -/
example : (ofNanoseconds 2).average 3 = ⟨1⟩ := by decide +kernel

end Elapsed

end AesTrials
