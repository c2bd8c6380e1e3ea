import AesTrials.Proofs.Nearest

/-!
# The shortest decimal reads back

The decimal that is found for a float is a number that the float is the nearest one to. The interval
that the search looks at holds just these numbers; on the grid of the seventeenth digit the step is
narrower than the interval, so one of the two points next to the float lies in it; and taking zeros
off the end leaves the number as it is.
-/

namespace AesTrials.Decimal

/-! ## Powers as fractions -/

/-- A power with any exponent is a fraction of two powers, one of which is one. -/
theorem zpow_eq_div (base : ℚ) (exponent : Int) :
    base ^ exponent = base ^ exponent.toNat / base ^ (-exponent).toNat := by
  obtain nonneg | neg : 0 ≤ exponent ∨ exponent < 0 := by omega
  · have up : exponent = exponent.toNat := by omega
    have down : (-exponent).toNat = 0 := by omega
    rw [down, pow_zero, div_one]
    conv_lhs => rw [up]
    rw [zpow_natCast]
  · have down : exponent = -((-exponent).toNat : Int) := by omega
    have up : exponent.toNat = 0 := by omega
    rw [up, pow_zero, one_div]
    conv_lhs => rw [down]
    rw [zpow_neg, zpow_natCast]

/-- The value of a decimal. -/
def Scientific.value (number : Scientific) : ℚ := number.digits * 10 ^ number.exponent

/-- Zeros at the end of the digits may be taken off. -/
theorem Scientific.value_strip (fuel : Nat) (number : Scientific) :
    (number.strip fuel).value = number.value := by
  induction fuel generalizing number with
  | zero => rfl
  | succ fuel ih =>
    rw [strip]
    split
    next tens =>
      have whole : number.digits / 10 * 10 = number.digits := by omega
      have count : (number.digits : ℚ) = (number.digits / 10 : Nat) * 10 := by
        exact_mod_cast whole.symm
      rw [ih, value, value, zpow_add_one₀ (by norm_num), count]
      ring
    next => rfl

/-- Taking zeros off does not make the digits longer. -/
theorem Scientific.digits_strip_le (fuel : Nat) (number : Scientific) :
    (number.strip fuel).digits ≤ number.digits := by
  induction fuel generalizing number with
  | zero => exact le_rfl
  | succ fuel ih =>
    rw [strip]
    split
    next => exact (ih _).trans (Nat.div_le_self _ _)
    next => exact le_rfl

/-! ## The magnitude -/

/-- The number of digits bounds a number on both sides. -/
theorem digitCount_bounds {number : Nat} (positive : 0 < number) :
    ∃ more, digitCount number = more + 1 ∧ 10 ^ more ≤ number ∧ number < 10 ^ (more + 1) := by
  have some : digitCount number ≠ 0 := by
    rw [digitCount, ne_eq, List.length_eq_zero_iff]
    exact Nat.toDigits_ne_nil
  obtain ⟨more, count⟩ := Nat.exists_eq_succ_of_ne_zero some
  refine ⟨more, count, ?_, ?_⟩
  · by_cases zero : more = 0
    · rw [zero]
      exact positive
    · have long : ¬ digitCount number ≤ more := by omega
      rw [digitCount, Nat.length_toDigits_le_iff (by decide) (by omega)] at long
      exact Nat.le_of_not_lt long
  · have short : digitCount number ≤ more + 1 := count.le
    rwa [digitCount, Nat.length_toDigits_le_iff (by decide) (by omega)] at short

/-- The power of ten that is found for a fraction is below it, and the next one is not. -/
theorem magnitude_bounds {numerator denominator : Nat} (some : 0 < numerator)
    (above : 0 < denominator) :
    (10 : ℚ) ^ magnitude numerator denominator ≤ numerator / denominator ∧
      (numerator / denominator : ℚ) ≤ 10 ^ (magnitude numerator denominator + 1) := by
  have top : (0 : ℚ) < numerator := by exact_mod_cast some
  have bottom : (0 : ℚ) < denominator := by exact_mod_cast above
  rw [magnitude]
  split
  next large =>
    obtain ⟨more, count, lower, upper⟩ := digitCount_bounds (Nat.div_pos large above)
    have place : ((digitCount (numerator / denominator) : Nat) : Int) - 1 = (more : Int) := by omega
    rw [Nat.le_div_iff_mul_le above] at lower
    rw [Nat.div_lt_iff_lt_mul above] at upper
    rw [place, le_div_iff₀ bottom, div_le_iff₀ bottom]
    constructor
    · rw [zpow_natCast]
      exact_mod_cast lower
    · rw [show (more : Int) + 1 = (more + 1 : Nat) by omega, zpow_natCast]
      exact_mod_cast upper.le
  next small =>
    have order : numerator ≤ denominator := by omega
    obtain ⟨more, count, lower, upper⟩ := digitCount_bounds (Nat.div_pos order some)
    have place : -((digitCount (denominator / numerator) : Nat) : Int) =
        -((more + 1 : Nat) : Int) := by omega
    have next : -((more + 1 : Nat) : Int) + 1 = -(more : Int) := by omega
    rw [Nat.le_div_iff_mul_le some] at lower
    rw [Nat.div_lt_iff_lt_mul some] at upper
    rw [place, next, zpow_neg, zpow_neg, zpow_natCast, zpow_natCast]
    constructor
    · rw [inv_eq_one_div, div_le_div_iff₀ (by positivity) bottom, one_mul, mul_comm]
      exact_mod_cast upper.le
    · rw [inv_eq_one_div, div_le_div_iff₀ bottom (by positivity), one_mul, mul_comm]
      exact_mod_cast lower

/-! ## The interval -/

section Interval

variable {mantissa : Nat} {exponent : Int}

/-- A point of a grid is compared with a fraction in whole numbers. -/
theorem point_le_iff (steps edge : Nat) {denominator : Nat} (above : 0 < denominator) (grid : Int) :
    (steps * 10 ^ grid : ℚ) ≤ edge / denominator ↔
      steps * 10 ^ grid.toNat * denominator ≤ edge * 10 ^ (-grid).toNat := by
  have bottom : (0 : ℚ) < denominator := by exact_mod_cast above
  rw [zpow_eq_div, mul_div_assoc', div_le_div_iff₀ (by positivity) bottom]
  exact_mod_cast Iff.rfl

/-- A fraction is compared with a point of a grid in whole numbers. -/
theorem le_point_iff (steps edge : Nat) {denominator : Nat} (above : 0 < denominator) (grid : Int) :
    (edge / denominator : ℚ) ≤ steps * 10 ^ grid ↔
      edge * 10 ^ (-grid).toNat ≤ steps * 10 ^ grid.toNat * denominator := by
  have bottom : (0 : ℚ) < denominator := by exact_mod_cast above
  rw [zpow_eq_div, mul_div_assoc', div_le_div_iff₀ bottom (by positivity)]
  exact_mod_cast Iff.rfl

/-- The denominator of the interval of a float is not zero. -/
theorem denominator_pos (mantissa : Nat) (exponent : Int) :
    0 < (Interval.ofBinary mantissa exponent).denominator := Nat.pow_pos (by decide)

/-- Quarters of a unit are a fraction of the two scales of the interval. -/
theorem quarters_ofBinary (count : Nat) (mantissa : Nat) (exponent : Int) :
    ((count * Nat.pow 2 (exponent - 2).toNat : Nat) /
      (Interval.ofBinary mantissa exponent).denominator : ℚ) = count * 2 ^ (exponent - 2) := by
  have flipped : -(exponent - 2) = 2 - exponent := by omega
  rw [zpow_eq_div, flipped, Interval.ofBinary]
  simp only [Nat.pow_eq]
  push_cast
  rw [mul_div_assoc']

/-- The lower end of the interval. -/
theorem lower_ofBinary (least : 2 ^ 52 ≤ mantissa) (normal : exponent ≠ -1074) :
    ((Interval.ofBinary mantissa exponent).lower /
      (Interval.ofBinary mantissa exponent).denominator : ℚ) = low mantissa exponent := by
  have power : Binary.leastNormal = 2 ^ 52 := rfl
  have smallest : Binary.leastExponent = -1074 := rfl
  have reach : (if mantissa = Binary.leastNormal ∧ exponent ≠ Binary.leastExponent then 1 else 2) =
      down mantissa := by
    rw [down, power, smallest]
    simp only [ne_eq, normal, not_false_eq_true, and_true]
  have lower : (Interval.ofBinary mantissa exponent).lower =
      (4 * mantissa - down mantissa) * Nat.pow 2 (exponent - 2).toNat := by
    rw [← reach]
    rfl
  have bound := (down_bounds mantissa).2
  rw [lower, quarters_ofBinary, low, Nat.cast_sub (by omega)]
  push_cast
  rfl

/-- The upper end of the interval. -/
theorem upper_ofBinary (mantissa : Nat) (exponent : Int) :
    ((Interval.ofBinary mantissa exponent).upper /
      (Interval.ofBinary mantissa exponent).denominator : ℚ) = high mantissa exponent := by
  have upper : (Interval.ofBinary mantissa exponent).upper =
      (4 * mantissa + 2) * Nat.pow 2 (exponent - 2).toNat := rfl
  rw [upper, quarters_ofBinary, high]
  push_cast
  rfl

/-- The middle of the interval is the float. -/
theorem middle_ofBinary (mantissa : Nat) (exponent : Int) :
    ((Interval.ofBinary mantissa exponent).middle /
      (Interval.ofBinary mantissa exponent).denominator : ℚ) = mantissa * 2 ^ exponent := by
  have middle : (Interval.ofBinary mantissa exponent).middle =
      4 * mantissa * Nat.pow 2 (exponent - 2).toNat := rfl
  rw [middle, quarters_ofBinary]
  push_cast
  exact (Nearest.quarters mantissa exponent).symm

/-- The interval holds the points that the float is nearest to. -/
theorem holds_iff (least : 2 ^ 52 ≤ mantissa) (most : mantissa < 2 ^ 53) (normal : exponent ≠ -1074)
    (grid : Int) (steps : Nat) :
    (Interval.ofBinary mantissa exponent).holds (Nat.pow 10 grid.toNat) (Nat.pow 10 (-grid).toNat)
      steps = true ↔ Nearest (steps * 10 ^ grid) mantissa exponent := by
  have above := denominator_pos mantissa exponent
  have lower := le_point_iff steps (Interval.ofBinary mantissa exponent).lower above grid
  have upper := point_le_iff steps (Interval.ofBinary mantissa exponent).upper above grid
  have outer := point_le_iff steps (Interval.ofBinary mantissa exponent).lower above grid
  have beyond := le_point_iff steps (Interval.ofBinary mantissa exponent).upper above grid
  rw [lower_ofBinary least normal] at lower outer
  rw [upper_ofBinary] at upper beyond
  have closed : (Interval.ofBinary mantissa exponent).closed = decide (mantissa % 2 = 0) := rfl
  rw [Interval.holds, closed]
  simp only [Nat.pow_eq, decide_eq_true_eq]
  by_cases even : mantissa % 2 = 0
  · rw [if_pos even, Bool.and_eq_true, decide_eq_true_eq, decide_eq_true_eq, ← lower, ← upper]
    constructor
    · rintro ⟨first, last⟩
      exact ⟨least, most, first, last, fun odd => absurd odd (by omega)⟩
    · exact fun nearest => ⟨nearest.lower, nearest.upper⟩
  · rw [if_neg even, Bool.and_eq_true, decide_eq_true_eq, decide_eq_true_eq, ← not_le, ← not_le,
      ← outer, ← beyond, not_le, not_le]
    constructor
    · rintro ⟨first, last⟩
      exact ⟨least, most, first.le, last.le, fun _ => ⟨first, last⟩⟩
    · exact fun nearest => nearest.inside (by omega)

/-- What is found on a grid is a point that the float is nearest to, at most one step above it. -/
theorem nearest_of_onGrid (least : 2 ^ 52 ≤ mantissa) (most : mantissa < 2 ^ 53)
    (normal : exponent ≠ -1074) {grid : Int} {digits : Nat}
    (found : (Interval.ofBinary mantissa exponent).onGrid? roundHalfEven grid = some digits) :
    Nearest (digits * 10 ^ grid) mantissa exponent ∧
      ((digits : ℚ) - 1) * 10 ^ grid ≤ mantissa * 2 ^ exponent := by
  have above := denominator_pos mantissa exponent
  unfold Interval.onGrid? at found
  extract_lets stepNumerator stepDenominator unit scaled below next at found
  have under : (below * 10 ^ grid : ℚ) ≤ mantissa * 2 ^ exponent := by
    rw [← middle_ofBinary, point_le_iff _ _ above, Nat.mul_assoc]
    exact Nat.div_mul_le_self scaled unit
  have step : (0 : ℚ) < 10 ^ grid := by positivity
  have reach (near : digits ≤ below + 1) : ((digits : ℚ) - 1) * 10 ^ grid ≤
      mantissa * 2 ^ exponent := by
    have counted : (digits : ℚ) ≤ below + 1 := by exact_mod_cast near
    exact (mul_le_mul_of_nonneg_right (by linarith) step.le).trans under
  have lower := le_roundHalfEven scaled unit
  have upper := roundHalfEven_le scaled unit
  split at found
  next first second =>
    have chosen : roundHalfEven scaled unit = digits := Option.some.inj found
    have inside := (holds_iff least most normal grid digits).mp
    obtain same | one : digits = below ∨ digits = next := by omega
    · rw [same] at inside ⊢
      exact ⟨inside first, same ▸ reach (by omega)⟩
    · rw [one] at inside ⊢
      exact ⟨inside second, one ▸ reach (by omega)⟩
  next first _ =>
    obtain rfl := Option.some.inj found
    exact ⟨(holds_iff least most normal grid below).mp first, reach (Nat.le_succ below)⟩
  next _ second =>
    obtain rfl := Option.some.inj found
    exact ⟨(holds_iff least most normal grid next).mp second, reach le_rfl⟩
  next => contradiction

/-- A grid whose step is narrower than the interval has a point in it next to the float. -/
theorem onGrid_ne_none (least : 2 ^ 52 ≤ mantissa) (most : mantissa < 2 ^ 53)
    (normal : exponent ≠ -1074) {grid : Int}
    (narrow : (10 : ℚ) ^ grid < high mantissa exponent - low mantissa exponent) :
    (Interval.ofBinary mantissa exponent).onGrid? roundHalfEven grid ≠ none := by
  have above := denominator_pos mantissa exponent
  have start := Nearest.low_lt mantissa exponent
  have stop := Nearest.lt_high mantissa exponent
  intro missed
  unfold Interval.onGrid? at missed
  extract_lets stepNumerator stepDenominator unit scaled below next at missed
  have positive : 0 < unit := Nat.mul_pos (Nat.pow_pos (by decide)) above
  have under : (below * 10 ^ grid : ℚ) ≤ mantissa * 2 ^ exponent := by
    rw [← middle_ofBinary, point_le_iff _ _ above, Nat.mul_assoc]
    exact Nat.div_mul_le_self scaled unit
  have beyond : (mantissa * 2 ^ exponent : ℚ) ≤ next * 10 ^ grid := by
    rw [← middle_ofBinary, le_point_iff _ _ above, Nat.mul_assoc]
    exact (Nat.lt_mul_of_div_lt (Nat.lt_succ_self below) positive).le
  -- If neither point is in the interval, it lies between the two.
  have outside : (below * 10 ^ grid : ℚ) ≤ low mantissa exponent ∧
      high mantissa exponent ≤ next * 10 ^ grid := by
    split at missed
    next => contradiction
    next => contradiction
    next => contradiction
    next first second =>
      constructor
      · by_contra inside
        have nearest := Nearest.of_inside least most (not_le.mp inside) (under.trans_lt stop)
        rw [(holds_iff least most normal grid below).mpr nearest] at first
        contradiction
      · by_contra inside
        have nearest := Nearest.of_inside least most (start.trans_le beyond) (not_le.mp inside)
        rw [(holds_iff least most normal grid next).mpr nearest] at second
        contradiction
  have apart : (next * 10 ^ grid : ℚ) = below * 10 ^ grid + 10 ^ grid := by
    have succ : next = below + 1 := rfl
    rw [succ]
    push_cast
    ring
  linarith [outside.1, outside.2]

/-- The grid of the seventeenth digit is narrower than the interval. -/
theorem narrow_of_magnitude (most : mantissa < 2 ^ 53) {leading : Int}
    (lower : (10 : ℚ) ^ leading ≤ mantissa * 2 ^ exponent) :
    (10 : ℚ) ^ (leading - 16) < high mantissa exponent - low mantissa exponent := by
  have unit : (0 : ℚ) < 2 ^ (exponent - 2) := by positivity
  have wide : high mantissa exponent - low mantissa exponent =
      (2 + down mantissa) * 2 ^ (exponent - 2) := by
    rw [high, low]
    ring
  have step : (10 : ℚ) ^ (leading - 16) ≤ 4 * mantissa / 10 ^ 16 * 2 ^ (exponent - 2) := by
    rw [zpow_sub₀ (by norm_num), div_le_iff₀ (by positivity)]
    calc (10 : ℚ) ^ leading ≤ mantissa * 2 ^ exponent := lower
      _ = 4 * mantissa * 2 ^ (exponent - 2) := Nearest.quarters mantissa exponent
      _ = 4 * mantissa / 10 ^ 16 * 2 ^ (exponent - 2) * 10 ^ (16 : Int) := by
        norm_num
        ring
  have quarters : (4 * mantissa / 10 ^ 16 : ℚ) < 2 + down mantissa := by
    rw [div_lt_iff₀ (by norm_num)]
    by_cases first : mantissa = 2 ^ 52
    · have one : down mantissa = 1 := if_pos first
      rw [one, first]
      norm_num
    · have two : down mantissa = 2 := if_neg first
      have bound : (mantissa : ℚ) < 2 ^ 53 := by exact_mod_cast most
      rw [two]
      push_cast
      linarith
  rw [wide]
  exact step.trans_lt (mul_lt_mul_of_pos_right quarters unit)

end Interval

/-! ## The search -/

/-- The search finds something if it gets to a grid with a point in the interval. -/
theorem search_ne_none {interval : Interval} {round : Nat → Nat → Nat} (more : Nat)
    {grid : Int} (hit : interval.onGrid? round (grid - more) ≠ none) :
    interval.search round (more + 1) grid ≠ none := by
  induction more generalizing grid with
  | zero =>
    rw [Interval.search]
    split
    next => exact Option.some_ne_none _
    next missed =>
      rw [Int.ofNat_zero, Int.sub_zero] at hit
      contradiction
  | succ more ih =>
    rw [Interval.search]
    split
    next => exact Option.some_ne_none _
    next =>
      apply ih
      rwa [show grid - 1 - (more : Int) = grid - (more + 1 : Nat) by omega]

/-- What the search finds is found on one of its grids. -/
theorem onGrid_of_search {interval : Interval} {round : Nat → Nat → Nat} {grids : Nat} {grid : Int}
    {found : Scientific} (hit : interval.search round grids grid = some found) :
    interval.onGrid? round found.exponent = some found.digits ∧ grid - grids < found.exponent := by
  induction grids generalizing grid with
  | zero => contradiction
  | succ grids ih =>
    rw [Interval.search] at hit
    split at hit
    next digits first =>
      obtain rfl := Option.some.inj hit
      exact ⟨first, by simp only; omega⟩
    next =>
      obtain ⟨later, within⟩ := ih hit
      exact ⟨later, by omega⟩

/-- A normal float is the nearest one to its shortest decimal, whose digits are no larger a number
than 17 digits and a step more. -/
theorem shortest_nearest {mantissa : Nat} {exponent : Int} (least : 2 ^ 52 ≤ mantissa)
    (most : mantissa < 2 ^ 53) (normal : exponent ≠ -1074) :
    Nearest (shortest roundHalfEven mantissa exponent).value mantissa exponent ∧
      (shortest roundHalfEven mantissa exponent).digits ≤ 10 ^ 17 + 1 := by
  have nonzero : mantissa ≠ 0 := by omega
  have above := denominator_pos mantissa exponent
  have some : 0 < (Interval.ofBinary mantissa exponent).middle :=
    Nat.mul_pos (by omega) (Nat.pow_pos (by decide))
  obtain ⟨lower, upper⟩ := magnitude_bounds some above
  rw [middle_ofBinary] at lower upper
  simp only [shortest, if_neg nonzero]
  generalize magnitude (Interval.ofBinary mantissa exponent).middle
    (Interval.ofBinary mantissa exponent).denominator = leading at lower upper ⊢
  have narrow := narrow_of_magnitude most lower
  have hit := search_ne_none 16 (onGrid_ne_none least most normal narrow)
  split
  next found search =>
    obtain ⟨onGrid, within⟩ := onGrid_of_search search
    obtain ⟨nearest, reach⟩ := nearest_of_onGrid least most normal onGrid
    rw [Scientific.value_strip]
    refine ⟨nearest, (Scientific.digits_strip_le _ found).trans ?_⟩
    have step : (0 : ℚ) < 10 ^ found.exponent := by positivity
    have count : ((found.digits : ℚ) - 1) * 10 ^ found.exponent ≤
        10 ^ (17 : Int) * 10 ^ found.exponent := by
      have places : leading + 1 ≤ 17 + found.exponent := by
        have fuel : ((enoughDigits : Nat) : Int) = 17 := rfl
        omega
      calc ((found.digits : ℚ) - 1) * 10 ^ found.exponent ≤ mantissa * 2 ^ exponent := reach
        _ ≤ 10 ^ (leading + 1) := upper
        _ ≤ 10 ^ (17 + found.exponent) := zpow_le_zpow_right₀ (by norm_num) places
        _ = 10 ^ (17 : Int) * 10 ^ found.exponent := zpow_add₀ (by norm_num) _ _
    have digits : (found.digits : ℚ) ≤ 10 ^ 17 + 1 := by
      have bound := le_of_mul_le_mul_right count step
      norm_num at bound ⊢
      linarith
    exact_mod_cast digits
  next missed => exact absurd missed hit

end AesTrials.Decimal
