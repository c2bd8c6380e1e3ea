import AesTrials.Proofs.Rounding
import Mathlib.Algebra.Order.Archimedean.Basic
import Mathlib.Algebra.Order.Field.Power
import Mathlib.Data.Rat.Floor
import Mathlib.Tactic.FieldSimp
import Mathlib.Tactic.Linarith
import Mathlib.Tactic.NormNum
import Mathlib.Tactic.Positivity
import Mathlib.Tactic.Ring

/-!
# The nearest float

A float of 53 bits is nearest to the numbers that are at most half a unit of its last bit away from
it, where a half is only enough for an even mantissa; below the least mantissa of an exponent floats
are twice as dense, so it reaches down by a quarter only. Floats are numbered in the order of their
size. A larger number has no smaller float, and a number that is larger by one part in two to the
power of 53 at most has the same float or the next one.
-/

namespace AesTrials.Decimal

/-- How many quarters of a unit a mantissa reaches down: two, or one for the least. -/
def down (mantissa : Nat) : Nat := if mantissa = 2 ^ 52 then 1 else 2

/-- The smallest number that a float may be nearest to. -/
def low (mantissa : Nat) (exponent : Int) : ℚ :=
  (4 * mantissa - down mantissa) * 2 ^ (exponent - 2)

/-- The largest number that a float may be nearest to. -/
def high (mantissa : Nat) (exponent : Int) : ℚ := (4 * mantissa + 2) * 2 ^ (exponent - 2)

/-- Whether a float of 53 bits is the nearest one to a number, a half going to an even neighbour. -/
structure Nearest (value : ℚ) (mantissa : Nat) (exponent : Int) : Prop where
  /-- The mantissa has its leading bit. -/
  least : 2 ^ 52 ≤ mantissa
  /-- The mantissa has no further bit in front. -/
  most : mantissa < 2 ^ 53
  /-- The number is not further below. -/
  lower : low mantissa exponent ≤ value
  /-- The number is not further above. -/
  upper : value ≤ high mantissa exponent
  /-- An odd mantissa leaves halves to its neighbours. -/
  inside : mantissa % 2 = 1 → low mantissa exponent < value ∧ value < high mantissa exponent

/-- The number of a float in the order of their sizes. -/
def rank (mantissa : Nat) (exponent : Int) : Int := exponent * 2 ^ 52 + mantissa

section Order

variable {mantissa other : Nat} {exponent place : Int}

/-- What a mantissa reaches down. -/
theorem down_bounds (mantissa : Nat) : 1 ≤ down mantissa ∧ down mantissa ≤ 2 := by
  rw [down]
  split <;> omega

/-- A quarter of a unit of an exponent is not more than half of one of a larger exponent. -/
theorem quarter_le (less : exponent < place) : 2 * (2 : ℚ) ^ (exponent - 2) ≤ 2 ^ (place - 2) := by
  have doubled : 2 * (2 : ℚ) ^ (exponent - 2) = 2 ^ (exponent - 1) := by
    rw [← zpow_one_add₀ (by norm_num)]
    congr 1
    omega
  rw [doubled]
  exact zpow_le_zpow_right₀ (by norm_num) (by omega)

/-- At the same exponent the numbers of a larger mantissa begin where those of a smaller one end, or
behind. -/
theorem high_le_low_of_mantissa (exponent : Int) (lower : 2 ^ 52 ≤ mantissa)
    (less : mantissa < other) :
    high mantissa exponent ≤ low other exponent ∧
      (high mantissa exponent = low other exponent → mantissa + 1 = other) := by
  have unit : (0 : ℚ) < 2 ^ (exponent - 2) := by positivity
  have half : down other = 2 := if_neg (by omega)
  have counted : (mantissa + 1 : ℚ) ≤ other := by exact_mod_cast less
  have step : (4 * mantissa + 2 : ℚ) ≤ 4 * other - (2 : Nat) := by
    push_cast
    linarith
  rw [high, low, half]
  refine ⟨mul_le_mul_of_nonneg_right step unit.le, fun meet => ?_⟩
  have quarters : (4 * mantissa + 2 : ℚ) = 4 * other - (2 : Nat) :=
    mul_right_cancel₀ unit.ne' meet
  have next : (mantissa + 1 : ℚ) = other := by
    push_cast at quarters
    linarith
  exact_mod_cast next

/-- At a larger exponent the numbers of a float begin where those of a smaller end, or behind. -/
theorem high_le_low_of_exponent (upper : mantissa < 2 ^ 53) (lowerOther : 2 ^ 52 ≤ other)
    (less : exponent < place) :
    high mantissa exponent ≤ low other place ∧
      (high mantissa exponent = low other place → mantissa + 1 = 2 ^ 53) := by
  have unit : (0 : ℚ) < 2 ^ (exponent - 2) := by positivity
  have last : (4 * mantissa + 2 : ℚ) ≤ 2 ^ 55 - 2 := by
    have bound : (mantissa + 1 : ℚ) ≤ 2 ^ 53 := by exact_mod_cast upper
    linarith
  have first : (2 ^ 54 - 1 : ℚ) ≤ 4 * other - down other := by
    have counted : 2 ^ 54 + down other ≤ 4 * other + 1 := by
      rw [down]
      split <;> omega
    have bound : (2 ^ 54 + down other : ℚ) ≤ 4 * other + 1 := by exact_mod_cast counted
    linarith
  have middle : (2 ^ 55 - 2 : ℚ) * 2 ^ (exponent - 2) ≤ low other place := by
    calc (2 ^ 55 - 2 : ℚ) * 2 ^ (exponent - 2)
        = (2 ^ 54 - 1) * (2 * 2 ^ (exponent - 2)) := by ring
      _ ≤ (2 ^ 54 - 1) * 2 ^ (place - 2) :=
        mul_le_mul_of_nonneg_left (quarter_le less) (by norm_num)
      _ ≤ low other place := mul_le_mul_of_nonneg_right first (by positivity)
  have front : high mantissa exponent ≤ (2 ^ 55 - 2) * 2 ^ (exponent - 2) :=
    mul_le_mul_of_nonneg_right last unit.le
  refine ⟨front.trans middle, fun meet => ?_⟩
  have reached : (4 * mantissa + 2 : ℚ) * 2 ^ (exponent - 2) =
      (2 ^ 55 - 2) * 2 ^ (exponent - 2) := le_antisymm front (middle.trans meet.ge)
  have quarters : (4 * mantissa + 2 : ℚ) = 2 ^ 55 - 2 := mul_right_cancel₀ unit.ne' reached
  have next : (mantissa + 1 : ℚ) = 2 ^ 53 := by linarith
  exact_mod_cast next

/-- Where the numbers of a float end, those of the next float begin, and one of the two is odd. -/
theorem high_le_low (lower : 2 ^ 52 ≤ mantissa) (upper : mantissa < 2 ^ 53)
    (lowerOther : 2 ^ 52 ≤ other) (upperOther : other < 2 ^ 53)
    (less : rank mantissa exponent < rank other place) :
    high mantissa exponent ≤ low other place ∧
      (high mantissa exponent = low other place → mantissa % 2 = 1 ∨ other % 2 = 1) := by
  rw [rank, rank] at less
  obtain rfl | before : exponent = place ∨ exponent < place := by omega
  · obtain ⟨apart, meets⟩ := high_le_low_of_mantissa exponent lower (by omega : mantissa < other)
    refine ⟨apart, fun meet => ?_⟩
    have next := meets meet
    omega
  · obtain ⟨apart, meets⟩ := high_le_low_of_exponent upper lowerOther before
    refine ⟨apart, fun meet => .inl ?_⟩
    have last := meets meet
    omega

/-- Every float has a next one, whose numbers end a whole unit of the first one later at least. -/
theorem exists_next (exponent : Int) (lower : 2 ^ 52 ≤ mantissa) (upper : mantissa < 2 ^ 53) :
    ∃ next place, 2 ^ 52 ≤ next ∧ next < 2 ^ 53 ∧
      rank next place = rank mantissa exponent + 1 ∧
      (4 * mantissa + 6) * 2 ^ (exponent - 2) ≤ high next place := by
  by_cases last : mantissa + 1 = 2 ^ 53
  · refine ⟨2 ^ 52, exponent + 1, le_rfl, by norm_num, ?_, ?_⟩
    · rw [rank, rank]
      push_cast
      omega
    · have unit : (0 : ℚ) < 2 ^ (exponent - 2) := by positivity
      have counted : (mantissa + 1 : ℚ) = 2 ^ 53 := by exact_mod_cast last
      have quarters : (4 * mantissa + 6 : ℚ) ≤ (4 * (2 ^ 52 : Nat) + 2) * 2 := by
        push_cast
        linarith
      calc (4 * mantissa + 6 : ℚ) * 2 ^ (exponent - 2)
          ≤ (4 * (2 ^ 52 : Nat) + 2) * 2 * 2 ^ (exponent - 2) :=
            mul_le_mul_of_nonneg_right quarters unit.le
        _ = (4 * (2 ^ 52 : Nat) + 2) * (2 * 2 ^ (exponent - 2)) := mul_assoc ..
        _ ≤ high (2 ^ 52) (exponent + 1) :=
          mul_le_mul_of_nonneg_left (quarter_le (by omega)) (by positivity)
  · refine ⟨mantissa + 1, exponent, by omega, by omega, ?_, ?_⟩
    · rw [rank, rank]
      push_cast
      ring
    · rw [high]
      push_cast
      exact le_of_eq (by ring)

end Order

namespace Nearest

variable {value number : ℚ} {mantissa other : Nat} {exponent place : Int}

/-- A larger number has no smaller float. -/
theorem rank_le (nearest : Nearest value mantissa exponent) (again : Nearest number other place)
    (ordered : value ≤ number) : rank mantissa exponent ≤ rank other place := by
  by_contra less
  obtain ⟨apart, parity⟩ := high_le_low again.least again.most nearest.least nearest.most
    (not_le.mp less)
  have first := nearest.lower
  have second := again.upper
  have meet : high other place = low mantissa exponent := by linarith
  obtain odd | odd := parity meet
  · have strict := (again.inside odd).2
    linarith
  · have strict := (nearest.inside odd).1
    linarith

/-- A number that is below the numbers that a float ends with has no larger float. -/
theorem rank_le_of_lt_high (nearest : Nearest value mantissa exponent) (lower : 2 ^ 52 ≤ other)
    (upper : other < 2 ^ 53) (less : value < high other place) :
    rank mantissa exponent ≤ rank other place := by
  by_contra greater
  have apart := (high_le_low lower upper nearest.least nearest.most (not_le.mp greater)).1
  have above := nearest.lower
  linarith

/-- Floats with the same number are the same. -/
theorem eq_of_rank_eq (nearest : Nearest value mantissa exponent)
    (again : Nearest number other place) (same : rank mantissa exponent = rank other place) :
    mantissa = other ∧ exponent = place := by
  have bounds := And.intro nearest.least nearest.most
  have others := And.intro again.least again.most
  rw [rank, rank] at same
  omega

/-- A number has one nearest float at most. -/
theorem unique (nearest : Nearest value mantissa exponent) (again : Nearest value other place) :
    mantissa = other ∧ exponent = place := by
  have up := nearest.rank_le again le_rfl
  have down := again.rank_le nearest le_rfl
  exact nearest.eq_of_rank_eq again (le_antisymm up down)

/-- A number that is larger by one part in two to the power of 53 has the same float or the next
one. -/
theorem rank_le_succ (nearest : Nearest value mantissa exponent)
    (again : Nearest number other place) (close : number ≤ value * (1 + 1 / 2 ^ 53)) :
    rank other place ≤ rank mantissa exponent + 1 := by
  have unit : (0 : ℚ) < 2 ^ (exponent - 2) := by positivity
  -- The part that is added is less than one unit, so the number is below where the next float ends.
  have factor : (4 * mantissa + 2 : ℚ) * (1 + 1 / 2 ^ 53) < 4 * mantissa + 6 := by
    have bound : (mantissa + 1 : ℚ) ≤ 2 ^ 53 := by exact_mod_cast nearest.most
    have part : (4 * mantissa + 2 : ℚ) / 2 ^ 53 < 4 := by
      rw [div_lt_iff₀ (by positivity)]
      linarith
    linarith
  obtain ⟨next, target, least, most, succ, reach⟩ :=
    exists_next exponent nearest.least nearest.most
  have below : number < high next target := by
    calc number ≤ value * (1 + 1 / 2 ^ 53) := close
      _ ≤ (4 * mantissa + 2) * 2 ^ (exponent - 2) * (1 + 1 / 2 ^ 53) :=
        mul_le_mul_of_nonneg_right nearest.upper (by positivity)
      _ = (4 * mantissa + 2) * (1 + 1 / 2 ^ 53) * 2 ^ (exponent - 2) := by ring
      _ < (4 * mantissa + 6) * 2 ^ (exponent - 2) := mul_lt_mul_of_pos_right factor unit
      _ ≤ high next target := reach
  rw [← succ]
  exact again.rank_le_of_lt_high least most below

end Nearest

/-! ## Floats that are near -/

/-- Whether two numbers differ by one part in two to the power of 53 at most. -/
structure Close (left right : ℚ) : Prop where
  /-- The first is not too large. -/
  left_le : left ≤ right * (1 + 1 / 2 ^ 53)
  /-- The second is not too large. -/
  right_le : right ≤ left * (1 + 1 / 2 ^ 53)

namespace Close

variable {left right factor : ℚ}

/-- Close numbers differ by less than a factor of two. -/
theorem le_double (close : Close left right) (positive : 0 ≤ right) : left ≤ 2 * right := by
  calc left ≤ right * (1 + 1 / 2 ^ 53) := close.left_le
    _ ≤ right * 2 := mul_le_mul_of_nonneg_left (by norm_num) positive
    _ = 2 * right := mul_comm _ _

theorem symm (close : Close left right) : Close right left := ⟨close.right_le, close.left_le⟩

theorem mul (close : Close left right) (positive : 0 ≤ factor) :
    Close (factor * left) (factor * right) := by
  have up := mul_le_mul_of_nonneg_left close.left_le positive
  have down := mul_le_mul_of_nonneg_left close.right_le positive
  exact ⟨by rwa [mul_assoc], by rwa [mul_assoc]⟩

/-- Quotients by numbers that are close are close. -/
theorem div (close : Close left right) (positive : 0 ≤ factor) (first : 0 < left)
    (second : 0 < right) : Close (factor / left) (factor / right) := by
  constructor
  · rw [div_mul_eq_mul_div, div_le_div_iff₀ first second]
    have up := mul_le_mul_of_nonneg_left close.right_le positive
    linarith
  · rw [div_mul_eq_mul_div, div_le_div_iff₀ second first]
    have down := mul_le_mul_of_nonneg_left close.left_le positive
    linarith

end Close

namespace Nearest

variable {value number : ℚ} {mantissa other : Nat} {exponent place : Int}

/-- Numbers that are close have the same float or neighbours. -/
theorem rank_le_of_close (nearest : Nearest value mantissa exponent)
    (again : Nearest number other place) (close : Close value number) :
    rank mantissa exponent ≤ rank other place + 1 ∧
      rank other place ≤ rank mantissa exponent + 1 :=
  ⟨again.rank_le_succ nearest close.left_le, nearest.rank_le_succ again close.right_le⟩

/-- A float is in units of its exponent what it is in quarters. -/
theorem quarters (mantissa : Nat) (exponent : Int) :
    (mantissa * 2 ^ exponent : ℚ) = 4 * mantissa * 2 ^ (exponent - 2) := by
  have unit : (2 : ℚ) ^ exponent = 4 * 2 ^ (exponent - 2) := by
    rw [zpow_sub₀ (by norm_num)]
    norm_num
    ring
  rw [unit]
  ring

/-- A number is close to its nearest float. -/
theorem close (nearest : Nearest value mantissa exponent) :
    Close value (mantissa * 2 ^ exponent) := by
  have unit : (0 : ℚ) < 2 ^ (exponent - 2) := by positivity
  have least : (2 ^ 52 : ℚ) ≤ mantissa := by exact_mod_cast nearest.least
  rw [quarters]
  constructor
  · have factor : (4 * mantissa + 2 : ℚ) ≤ 4 * mantissa * (1 + 1 / 2 ^ 53) := by
      linarith
    calc value ≤ (4 * mantissa + 2) * 2 ^ (exponent - 2) := nearest.upper
      _ ≤ 4 * mantissa * (1 + 1 / 2 ^ 53) * 2 ^ (exponent - 2) :=
        mul_le_mul_of_nonneg_right factor unit.le
      _ = 4 * mantissa * 2 ^ (exponent - 2) * (1 + 1 / 2 ^ 53) := by ring
  · have factor : (4 * mantissa : ℚ) ≤ (4 * mantissa - down mantissa) * (1 + 1 / 2 ^ 53) := by
      by_cases first : mantissa = 2 ^ 52
      · have one : down mantissa = 1 := if_pos first
        rw [one, first]
        norm_num
      · have two : down mantissa = 2 := if_neg first
        have counted : 2 ^ 52 + 1 ≤ mantissa := by
          have bound := nearest.least
          omega
        have next : (2 ^ 52 + 1 : ℚ) ≤ mantissa := by exact_mod_cast counted
        rw [two]
        push_cast
        linarith
    calc (4 * mantissa * 2 ^ (exponent - 2) : ℚ)
        ≤ (4 * mantissa - down mantissa) * (1 + 1 / 2 ^ 53) * 2 ^ (exponent - 2) :=
        mul_le_mul_of_nonneg_right factor unit.le
      _ = (4 * mantissa - down mantissa) * 2 ^ (exponent - 2) * (1 + 1 / 2 ^ 53) := by ring
      _ ≤ value * (1 + 1 / 2 ^ 53) :=
        mul_le_mul_of_nonneg_right nearest.lower (by positivity)

/-- A float is above the numbers where those that it is nearest to begin. -/
theorem low_lt (mantissa : Nat) (exponent : Int) :
    low mantissa exponent < mantissa * 2 ^ exponent := by
  have unit : (0 : ℚ) < 2 ^ (exponent - 2) := by positivity
  have reach : (1 : ℚ) ≤ down mantissa := by exact_mod_cast (down_bounds mantissa).1
  rw [quarters, low]
  exact mul_lt_mul_of_pos_right (by linarith) unit

/-- A float is below the numbers where those that it is nearest to end. -/
theorem lt_high (mantissa : Nat) (exponent : Int) :
    (mantissa * 2 ^ exponent : ℚ) < high mantissa exponent := by
  have unit : (0 : ℚ) < 2 ^ (exponent - 2) := by positivity
  rw [quarters, high]
  exact mul_lt_mul_of_pos_right (by linarith) unit

/-- A number inside those that a float is nearest to. -/
theorem of_inside (least : 2 ^ 52 ≤ mantissa) (most : mantissa < 2 ^ 53)
    (lower : low mantissa exponent < value) (upper : value < high mantissa exponent) :
    Nearest value mantissa exponent :=
  ⟨least, most, lower.le, upper.le, fun _ => ⟨lower, upper⟩⟩

/-- A float is nearest to itself. -/
theorem refl (least : 2 ^ 52 ≤ mantissa) (most : mantissa < 2 ^ 53) (exponent : Int) :
    Nearest (mantissa * 2 ^ exponent) mantissa exponent :=
  of_inside least most (low_lt mantissa exponent) (lt_high mantissa exponent)

/-- Powers of two do not matter to what is nearest. -/
theorem scale (nearest : Nearest value mantissa exponent) (shift : Int) :
    Nearest (value * 2 ^ shift) mantissa (exponent + shift) := by
  have unit : (0 : ℚ) < 2 ^ shift := by positivity
  have split : (2 : ℚ) ^ (exponent + shift - 2) = 2 ^ (exponent - 2) * 2 ^ shift := by
    rw [← zpow_add₀ (by norm_num)]
    congr 1
    omega
  have lowest : low mantissa (exponent + shift) = low mantissa exponent * 2 ^ shift := by
    rw [low, low, split, mul_assoc]
  have highest : high mantissa (exponent + shift) = high mantissa exponent * 2 ^ shift := by
    rw [high, high, split, mul_assoc]
  refine ⟨nearest.least, nearest.most, ?_, ?_, fun odd => ?_⟩
  · rw [lowest]
    exact mul_le_mul_of_nonneg_right nearest.lower unit.le
  · rw [highest]
    exact mul_le_mul_of_nonneg_right nearest.upper unit.le
  · obtain ⟨below, above⟩ := nearest.inside odd
    rw [lowest, highest]
    exact ⟨mul_lt_mul_of_pos_right below unit, mul_lt_mul_of_pos_right above unit⟩

/-- A number is below the power of two behind its float. -/
theorem lt_two_zpow (nearest : Nearest value mantissa exponent) : value < 2 ^ (exponent + 53) := by
  have unit : (0 : ℚ) < 2 ^ (exponent - 2) := by positivity
  have most : (mantissa + 1 : ℚ) ≤ 2 ^ 53 := by exact_mod_cast nearest.most
  calc value ≤ (4 * mantissa + 2) * 2 ^ (exponent - 2) := nearest.upper
    _ < 2 ^ 55 * 2 ^ (exponent - 2) := mul_lt_mul_of_pos_right (by linarith) unit
    _ = 2 ^ (exponent + 53) := by
      rw [← zpow_natCast, ← zpow_add₀ (by norm_num)]
      congr 1
      push_cast
      omega

/-- A number is above half the power of two in front of its float. -/
theorem two_zpow_lt (nearest : Nearest value mantissa exponent) : 2 ^ (exponent + 51) < value := by
  have unit : (0 : ℚ) < 2 ^ (exponent - 2) := by positivity
  have least : (2 ^ 52 : ℚ) ≤ mantissa := by exact_mod_cast nearest.least
  have reach : (down mantissa : ℚ) ≤ 2 := by exact_mod_cast (down_bounds mantissa).2
  calc (2 : ℚ) ^ (exponent + 51) = 2 ^ 53 * 2 ^ (exponent - 2) := by
        rw [← zpow_natCast, ← zpow_add₀ (by norm_num)]
        congr 1
        push_cast
        omega
    _ < (4 * mantissa - down mantissa) * 2 ^ (exponent - 2) :=
      mul_lt_mul_of_pos_right (by linarith) unit
    _ ≤ value := nearest.lower

/-- A number that has a nearest float is positive. -/
theorem value_pos (nearest : Nearest value mantissa exponent) : 0 < value := by
  have positive : (0 : ℚ) < 2 ^ (exponent + 51) := by positivity
  exact positive.trans nearest.two_zpow_lt

/-- A number that is not small has no small exponent. -/
theorem le_exponent (nearest : Nearest value mantissa exponent) {power : Int}
    (large : 2 ^ power ≤ value) : power - 52 ≤ exponent := by
  have less := (zpow_lt_zpow_iff_right₀ (by norm_num : (1 : ℚ) < 2)).mp
    (large.trans_lt nearest.lt_two_zpow)
  omega

/-- A number that is not large has no large exponent. -/
theorem exponent_le (nearest : Nearest value mantissa exponent) {power : Int}
    (small : value ≤ 2 ^ power) : exponent ≤ power - 52 := by
  have less := (zpow_lt_zpow_iff_right₀ (by norm_num : (1 : ℚ) < 2)).mp
    (nearest.two_zpow_lt.trans_le small)
  omega

/-- A whole number of no more bits than a mantissa is a float. -/
theorem eq_of_short {number : Nat} (nearest : Nearest number mantissa exponent)
    (short : number ≤ 2 ^ 53) : (mantissa * 2 ^ exponent : ℚ) = number := by
  have some : 0 < number := by exact_mod_cast nearest.value_pos
  obtain ⟨own, place, least, most, value⟩ : ∃ (own : Nat) (place : Int),
      2 ^ 52 ≤ own ∧ own < 2 ^ 53 ∧ (own * 2 ^ place : ℚ) = number := by
    by_cases full : number = 2 ^ 53
    · refine ⟨2 ^ 52, 1, by norm_num, by norm_num, ?_⟩
      rw [full]
      norm_num
    · obtain ⟨lower, upper⟩ := (Nat.log2_eq_iff (by omega : number ≠ 0)).mp rfl
      have leading : number.log2 ≤ 52 := by
        have less : number.log2 < 53 := (Nat.log2_lt (by omega)).mpr (by omega)
        omega
      refine ⟨number * 2 ^ (52 - number.log2), -((52 - number.log2 : Nat) : Int), ?_, ?_, ?_⟩
      · calc 2 ^ 52 = 2 ^ number.log2 * 2 ^ (52 - number.log2) := by
              rw [← Nat.pow_add, Nat.add_sub_cancel' leading]
          _ ≤ number * 2 ^ (52 - number.log2) := Nat.mul_le_mul_right _ lower
      · calc number * 2 ^ (52 - number.log2) < 2 ^ (number.log2 + 1) * 2 ^ (52 - number.log2) :=
              Nat.mul_lt_mul_of_pos_right upper (Nat.two_pow_pos _)
          _ = 2 ^ 53 := by
            rw [← Nat.pow_add]
            congr 1
            omega
      · rw [zpow_neg, zpow_natCast]
        push_cast
        field_simp
  have self := refl least most place
  rw [value] at self
  obtain ⟨rfl, rfl⟩ := nearest.unique self
  exact value

/-- Rounding by one step leads to a neighbour at most, and to the float itself if it does not change
the number. -/
theorem rank_near (nearest : Nearest value mantissa exponent)
    (again : Nearest number other place) (close : Close value number) {exact : Prop}
    [Decidable exact] (same : exact → value = number) :
    |rank other place - rank mantissa exponent| ≤ if exact then 0 else 1 := by
  split
  next short =>
    rw [← same short] at again
    obtain ⟨rfl, rfl⟩ := nearest.unique again
    rw [sub_self, abs_zero]
  next =>
    obtain ⟨up, down⟩ := nearest.rank_le_of_close again close
    rw [abs_le]
    omega

end Nearest

/-! ## Rounding to the nearest float -/

section Rounded

variable {numerator denominator mantissa : Nat}

/-- A fraction is rounded by a half at most. -/
theorem abs_sub_roundHalfEven_le (numerator : Nat) (positive : 0 < denominator) :
    |(numerator / denominator - roundHalfEven numerator denominator : ℚ)| ≤ 1 / 2 := by
  have above : (0 : ℚ) < denominator := by exact_mod_cast positive
  obtain ⟨near, far⟩ := roundHalfEven_near numerator positive
  generalize roundHalfEven numerator denominator = result at near far ⊢
  have down : (2 * (denominator * result) : ℚ) ≤ 2 * numerator + denominator := by
    exact_mod_cast near
  have up : (2 * numerator : ℚ) ≤ 2 * (denominator * result) + denominator := by
    exact_mod_cast far
  have least : (result - 1 / 2 : ℚ) ≤ numerator / denominator := by
    rw [le_div_iff₀ above]
    linarith
  have most : (numerator / denominator : ℚ) ≤ result + 1 / 2 := by
    rw [div_le_iff₀ above]
    linarith
  rw [abs_le]
  constructor <;> linarith

/-- A fraction is rounded to an odd number only by less than a half. -/
theorem abs_sub_roundHalfEven_lt (numerator : Nat) (positive : 0 < denominator)
    (odd : roundHalfEven numerator denominator % 2 = 1) :
    |(numerator / denominator - roundHalfEven numerator denominator : ℚ)| < 1 / 2 := by
  have above : (0 : ℚ) < denominator := by exact_mod_cast positive
  obtain ⟨near, far⟩ := roundHalfEven_odd numerator positive odd
  generalize roundHalfEven numerator denominator = result at near far ⊢
  have down : (2 * (denominator * result) : ℚ) < 2 * numerator + denominator := by
    exact_mod_cast near
  have up : (2 * numerator : ℚ) < 2 * (denominator * result) + denominator := by
    exact_mod_cast far
  have least : (result - 1 / 2 : ℚ) < numerator / denominator := by
    rw [lt_div_iff₀ above]
    linarith
  have most : (numerator / denominator : ℚ) < result + 1 / 2 := by
    rw [div_lt_iff₀ above]
    linarith
  rw [abs_lt]
  constructor <;> linarith

/-- The least mantissa is nearest to what is not below it and less than a half above it. -/
theorem nearest_least {value : ℚ} (lower : 2 ^ 52 ≤ value) (upper : value ≤ 2 ^ 52 + 1 / 2) :
    Nearest value (2 ^ 52) 0 := by
  have quarter : down (2 ^ 52) = 1 := if_pos rfl
  refine ⟨le_rfl, by norm_num, ?_, ?_, fun odd => by contradiction⟩
  · rw [low, quarter]
    norm_num
    linarith
  · rw [high]
    norm_num
    linarith

/-- A mantissa is nearest to what is less than a half away from it, and an even one to what is a
half away. -/
theorem nearest_mantissa {value : ℚ} (least : 2 ^ 52 < mantissa) (most : mantissa < 2 ^ 53)
    (near : |value - mantissa| ≤ 1 / 2) (odd : mantissa % 2 = 1 → |value - mantissa| < 1 / 2) :
    Nearest value mantissa 0 := by
  have unit : (2 : ℚ) ^ ((0 : Int) - 2) = 1 / 4 := by norm_num
  have half : down mantissa = 2 := if_neg (by omega)
  have lowest : low mantissa 0 = mantissa - 1 / 2 := by
    rw [low, unit, half]
    push_cast
    ring
  have highest : high mantissa 0 = mantissa + 1 / 2 := by
    rw [high, unit]
    ring
  obtain ⟨below, above⟩ := abs_le.mp near
  refine ⟨least.le, most, by linarith, by linarith, fun parity => ?_⟩
  obtain ⟨below, above⟩ := abs_lt.mp (odd parity)
  constructor <;> linarith

/-- A fraction is nearest to the mantissa that it is rounded to, which is twice the least one if
rounding has made it longer by a bit. -/
theorem nearest_of_rounded {carry : Nat} (positive : 0 < denominator)
    (lower : 2 ^ 52 * denominator ≤ numerator) (upper : numerator < 2 ^ 53 * denominator)
    (least : 2 ^ 52 ≤ mantissa) (most : mantissa < 2 ^ 53) (one : carry ≤ 1)
    (rounded : mantissa * 2 ^ carry = roundHalfEven numerator denominator) :
    Nearest (numerator / denominator) mantissa carry := by
  have above : (0 : ℚ) < denominator := by exact_mod_cast positive
  have first : (2 ^ 52 : ℚ) ≤ numerator / denominator := by
    rw [le_div_iff₀ above]
    exact_mod_cast lower
  have last : (numerator / denominator : ℚ) < 2 ^ 53 := by
    rw [div_lt_iff₀ above]
    exact_mod_cast upper
  have near := abs_sub_roundHalfEven_le numerator positive
  have odd := abs_sub_roundHalfEven_lt numerator positive
  rw [← rounded] at near odd
  obtain ⟨below, beyond⟩ := abs_le.mp near
  obtain rfl | rfl : carry = 0 ∨ carry = 1 := by omega
  · rw [Nat.pow_zero, Nat.mul_one] at near odd beyond
    obtain rfl | more := Nat.eq_or_lt_of_le least
    · have bound : (numerator / denominator : ℚ) ≤ 2 ^ 52 + 1 / 2 := by
        push_cast at beyond
        linarith
      exact nearest_least first bound
    · exact nearest_mantissa more most near odd
  · -- Only the least mantissa is reached by a carry, and its numbers begin a half below it.
    have small : mantissa ≤ 2 ^ 52 := by
      push_cast at below
      have bound : (mantissa : ℚ) < 2 ^ 52 + 1 := by linarith
      have counted : mantissa < 2 ^ 52 + 1 := by exact_mod_cast bound
      omega
    obtain rfl : mantissa = 2 ^ 52 := le_antisymm small least
    have quarter : down (2 ^ 52) = 1 := if_pos rfl
    refine ⟨least, most, ?_, ?_, fun parity => by contradiction⟩
    · rw [low, quarter]
      norm_num at below ⊢
      linarith
    · rw [high]
      norm_num at last ⊢
      linarith

/-- A fraction between the least mantissa and twice as much has a nearest float. -/
theorem exists_nearest_fraction (positive : 0 < denominator)
    (lower : 2 ^ 52 * denominator ≤ numerator) (upper : numerator < 2 ^ 53 * denominator) :
    ∃ mantissa exponent, Nearest (numerator / denominator) mantissa exponent := by
  have least := le_roundHalfEven numerator denominator
  have most := roundHalfEven_le numerator denominator
  have low : 2 ^ 52 ≤ numerator / denominator := (Nat.le_div_iff_mul_le positive).mpr lower
  have high : numerator / denominator < 2 ^ 53 := (Nat.div_lt_iff_lt_mul positive).mpr upper
  obtain ⟨mantissa, carry, first, last, one, rounded⟩ :=
    exists_carry (low.trans least) (most.trans high)
  exact ⟨mantissa, carry, nearest_of_rounded positive lower upper first last one rounded⟩

/-- A number that is not negative is a fraction of natural numbers. -/
theorem exists_fraction {value : ℚ} (nonneg : 0 ≤ value) :
    ∃ numerator denominator : Nat, 0 < denominator ∧ value = numerator / denominator := by
  refine ⟨value.num.toNat, value.den, value.den_pos, ?_⟩
  have whole : ((value.num.toNat : Int) : ℚ) = value.num := by
    rw [Int.toNat_of_nonneg (Rat.num_nonneg.mpr nonneg)]
  rw [Int.cast_natCast] at whole
  rw [whole, Rat.num_div_den]

/-- Every positive number has a nearest float. -/
theorem exists_nearest {value : ℚ} (positive : 0 < value) :
    ∃ mantissa exponent, Nearest value mantissa exponent := by
  obtain ⟨power, reached, beyond⟩ := exists_mem_Ico_zpow positive (by norm_num : (1 : ℚ) < 2)
  have unit : (0 : ℚ) < 2 ^ (52 - power) := by positivity
  have split (bits : Int) : (2 : ℚ) ^ bits * 2 ^ (52 - power) = 2 ^ (bits - power + 52) := by
    rw [← zpow_add₀ (by norm_num)]
    congr 1
    omega
  obtain ⟨numerator, denominator, above, fraction⟩ :=
    exists_fraction (mul_pos positive unit).le
  have counted : (0 : ℚ) < denominator := by exact_mod_cast above
  have lower : 2 ^ 52 * denominator ≤ numerator := by
    have scaled := mul_le_mul_of_nonneg_right reached unit.le
    rw [split, sub_self, zero_add, fraction, le_div_iff₀ counted] at scaled
    exact_mod_cast scaled
  have upper : numerator < 2 ^ 53 * denominator := by
    have scaled := mul_lt_mul_of_pos_right beyond unit
    rw [split, add_sub_cancel_left, fraction, div_lt_iff₀ counted] at scaled
    exact_mod_cast scaled
  obtain ⟨mantissa, exponent, nearest⟩ := exists_nearest_fraction above lower upper
  have scaled := nearest.scale (power - 52)
  have back : (numerator / denominator : ℚ) * 2 ^ (power - 52) = value := by
    rw [← fraction, mul_assoc, ← zpow_add₀ (by norm_num)]
    norm_num
  rw [back] at scaled
  exact ⟨mantissa, exponent + (power - 52), scaled⟩

end Rounded

end AesTrials.Decimal
