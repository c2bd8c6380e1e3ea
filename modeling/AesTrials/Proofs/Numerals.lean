import AesTrials.Json.Content
import AesTrials.Json.Parser
import AesTrials.Json.Printer

/-!
# Numbers as JSON text

A number in proper form has digits before its point that do not begin with an idle zero; this is
the form that JSON asks for, and the one in which whole numbers and floats are written. The reader
takes the digits of such a number back one for one, whatever follows that is no part of a number.
-/

namespace AesTrials

namespace Decimal

/-- A digit is written as its own character. -/
theorem digitChar_toNat : ∀ digit < 10, (digitChar digit).toNat - 48 = digit := by decide

theorem isDigit_digitChar : ∀ digit < 10, isDigit (digitChar digit) = true := by decide

/-- A character of a numeral is the character of a digit below ten. -/
theorem mem_write {number : Nat} {c : Char} (h : c ∈ write number) :
    ∃ digit < 10, c = digitChar digit := by
  have bounds := Nat.isDigit_of_mem_toDigits (by decide) (by decide) h
  rw [Char.isDigit_iff_toNat] at bounds
  obtain ⟨atLeast, atMost⟩ := bounds
  have bound : 48 ≤ c.toNat ∧ c.toNat ≤ 57 := ⟨atLeast, atMost⟩
  refine ⟨c.toNat - 48, by omega, ?_⟩
  rw [digitChar, show 48 + (c.toNat - 48) = c.toNat by omega, Char.ofNat_toNat]

/-- The characters of a numeral are those of its digits. -/
theorem map_digitChar_digits (number : Nat) : (digits number).map digitChar = write number := by
  rw [digits, List.map_map]
  refine (List.map_congr_left fun c member => ?_).trans (List.map_id _)
  obtain ⟨digit, small, rfl⟩ := mem_write member
  simp [digitChar_toNat digit small]

theorem lt_of_mem_digits {number digit : Nat} (h : digit ∈ digits number) : digit < 10 := by
  obtain ⟨c, member, rfl⟩ := List.mem_map.mp h
  obtain ⟨value, small, rfl⟩ := mem_write member
  simpa [digitChar_toNat value small] using small

theorem digits_ne_nil (number : Nat) : digits number ≠ [] := by
  simp [digits, Nat.toDigits_ne_nil]

/-- The digits of a number stand for it. -/
theorem ofDigits_digits (number : Nat) : ofDigits (digits number) = number := by
  simpa [ofDigits, digits, List.foldl_map, Nat.ofDigitChars] using
    Nat.ofDigitChars_ten_toDigits (n := number)

theorem digits_of_lt {number : Nat} (h : number < 10) : digits number = [number] := by
  have write : ∀ digit < 10, (Nat.digitChar digit).toNat - 48 = digit := by decide
  rw [digits, Nat.toDigits_of_lt_base h, List.map_singleton, write number h]

/-- The digits of a number are those of its tenth and one more. -/
theorem digits_of_ge {number : Nat} (h : 10 ≤ number) :
    ∃ last, digits number = digits (number / 10) ++ [last] := by
  rw [digits, Nat.toDigits_of_base_le (by decide) h, List.map_append]
  exact ⟨_, rfl⟩

/-- Only the digits of zero begin with a zero. -/
theorem eq_zero_of_digits {number : Nat} {more : List Nat} (h : digits number = 0 :: more) :
    number = 0 := by
  by_cases small : number < 10
  · rw [digits_of_lt small] at h
    exact (List.cons.inj h).1
  · -- A zero in front of the digits of the tenth would make the tenth zero.
    obtain ⟨last, split⟩ := digits_of_ge (Nat.le_of_not_lt small)
    rw [split] at h
    obtain ⟨nothing, _⟩ | ⟨tenth, front, _⟩ := List.append_eq_cons_iff.mp h
    · exact absurd nothing (digits_ne_nil _)
    · have none : number / 10 = 0 := eq_zero_of_digits front
      omega
termination_by number

end Decimal

namespace Json

/-- Whether a text begins with no digit. -/
def NoDigit (text : List Char) : Prop := ∀ c ∈ text.head?, Decimal.isDigit c = false

/-- Whether a text begins with nothing that continues a number. -/
structure NoNumber (text : List Char) : Prop where
  /-- No digit. -/
  digit : NoDigit text
  /-- No point and no letter of an exponent. -/
  mark : ∀ c ∈ text.head?, c ≠ '.' ∧ c ≠ 'e' ∧ c ≠ 'E'

/-- Digits that are written are read back up to the first character that is none. -/
theorem readDigits_map {digits : List Nat} {rest : List Char}
    (small : ∀ digit ∈ digits, digit < 10) (ends : NoDigit rest) :
    readDigits (digits.map Decimal.digitChar ++ rest) = (digits, rest) := by
  have all : ∀ c ∈ digits.map Decimal.digitChar, Decimal.isDigit c = true := by
    intro c member
    obtain ⟨digit, among, rfl⟩ := List.mem_map.mp member
    exact Decimal.isDigit_digitChar digit (small digit among)
  have values : (digits.map Decimal.digitChar).map (fun c => c.toNat - 48) = digits := by
    rw [List.map_map]
    refine (List.map_congr_left fun digit member => ?_).trans (List.map_id _)
    exact Decimal.digitChar_toNat digit (small digit member)
  have taken : rest.takeWhile Decimal.isDigit = [] ∧ rest.dropWhile Decimal.isDigit = rest := by
    cases rest with
    | nil => exact ⟨rfl, rfl⟩
    | cons c rest => simp [ends c rfl]
  rw [readDigits, List.takeWhile_append_of_pos all, List.dropWhile_append_of_pos all, taken.1,
    taken.2, List.append_nil, values]

/-- A power is read back from its numeral, which ends at the first character that is no digit. -/
theorem readPower_write (negative : Bool) (power : Nat) {rest : List Char} (ends : NoDigit rest) :
    readPower negative (Decimal.write power ++ rest) =
      some (some (if negative then -(power : Int) else power), rest) := by
  have small : ∀ digit ∈ Decimal.digits power, digit < 10 := fun _ => Decimal.lt_of_mem_digits
  have read := readDigits_map small ends
  rw [Decimal.map_digitChar_digits] at read
  rw [readPower, read]
  split
  next nothing => exact absurd (congrArg Prod.fst nothing) (Decimal.digits_ne_nil power)
  next digits found =>
    obtain ⟨rfl, rfl⟩ := Prod.mk.inj found
    simp [Decimal.ofDigits_digits]

theorem readExponent_write (exponent : Option Int) {rest : List Char} (ends : NoNumber rest) :
    readExponent (writeExponent exponent ++ rest) = some (exponent, rest) := by
  match exponent with
  | none =>
    cases rest with
    | nil => rfl
    | cons c rest => simp [writeExponent, readExponent, ends.mark c rfl]
  | some (.ofNat power) =>
    simp [writeExponent, readExponent, readPower_write false power ends.digit]
  | some (.negSucc power) =>
    have read := readPower_write true (power + 1) ends.digit
    simp [writeExponent, readExponent, read, Int.negSucc_eq]

/-- A number as JSON has it: at least one digit in front of the point, the first of several no
zero. -/
structure Number.Proper (number : Number) : Prop where
  /-- There is a digit in front of the point. -/
  some_whole : number.whole ≠ []
  /-- A zero in front stands alone. -/
  lone_zero : ∀ digit more, number.whole ≠ 0 :: digit :: more
  /-- Digits in front of the point are below ten. -/
  whole_lt : ∀ digit ∈ number.whole, digit < 10
  /-- Digits behind the point are below ten. -/
  behind_lt : ∀ digit ∈ number.behind, digit < 10

/-- The point and the digits behind it, if there are any. -/
def writeBehind (behind : List Nat) : List Char :=
  if behind.isEmpty then [] else '.' :: behind.map Decimal.digitChar

theorem point_eq (whole behind : List Nat) :
    Decimal.point (whole, behind) = whole.map Decimal.digitChar ++ writeBehind behind := by
  cases behind <;> simp [Decimal.point, writeBehind]

theorem noDigit_cons {c : Char} {text : List Char} (h : Decimal.isDigit c = false) :
    NoDigit (c :: text) := by
  intro head first
  obtain rfl : c = head := by simpa using first
  exact h

/-- An exponent begins with its letter, so it ends the digits in front of it. -/
theorem noDigit_exponent (exponent : Option Int) {rest : List Char} (ends : NoNumber rest) :
    NoDigit (writeExponent exponent ++ rest) := by
  match exponent with
  | none => exact ends.digit
  | some (.ofNat _) => exact noDigit_cons (by decide)
  | some (.negSucc _) => exact noDigit_cons (by decide)

theorem noDigit_behind (behind : List Nat) {rest : List Char} (ends : NoDigit rest) :
    NoDigit (writeBehind behind ++ rest) := by
  cases behind with
  | nil => exact ends
  | cons => exact noDigit_cons (by decide)

theorem readBehind_write {behind : List Nat} {rest : List Char}
    (small : ∀ digit ∈ behind, digit < 10) (ends : NoDigit rest) (mark : rest.head? ≠ some '.') :
    readBehind (writeBehind behind ++ rest) = some (behind, rest) := by
  cases behind with
  | nil =>
    cases rest with
    | nil => rfl
    | cons c rest =>
      have other : c ≠ '.' := by simpa using mark
      simp [writeBehind, readBehind, other]
  | cons digit more =>
    have read := readDigits_map small ends
    rw [List.map_cons, List.cons_append] at read
    simp [writeBehind, readBehind, read]

theorem readWhole_write {number : Number} (proper : number.Proper) {rest : List Char}
    (ends : NoDigit rest) :
    readWhole (number.whole.map Decimal.digitChar ++ rest) = some (number.whole, rest) := by
  rw [readWhole, readDigits_map proper.whole_lt ends]
  split
  next nothing => exact absurd (congrArg Prod.fst nothing) proper.some_whole
  next digit more _ zero => exact absurd (congrArg Prod.fst zero) (proper.lone_zero digit more)
  next => rfl

/-- A number in proper form is read back behind its sign, whatever follows that does not continue
it. -/
theorem readNumber_write {number : Number} (proper : number.Proper) {rest : List Char}
    (ends : NoNumber rest) :
    readNumber number.negative (Decimal.point (number.whole, number.behind) ++
      (writeExponent number.exponent ++ rest)) = some (.number number, rest) := by
  have power := noDigit_exponent number.exponent ends
  have mark : (writeExponent number.exponent ++ rest).head? ≠ some '.' := by
    cases shape : number.exponent with
    | none => exact fun point => (ends.mark '.' point).1 rfl
    | some power => cases power <;> simp [writeExponent]
  rw [point_eq, List.append_assoc, readNumber,
    readWhole_write proper (noDigit_behind number.behind power)]
  simp [readBehind_write proper.behind_lt power mark, readExponent_write number.exponent ends]

/-- The numeral of a proper number begins with a digit. -/
theorem Number.Proper.head {number : Number} (proper : number.Proper) :
    ∃ digit < 10, ∃ more, Decimal.point (number.whole, number.behind) =
      Decimal.digitChar digit :: more := by
  rw [point_eq]
  cases shape : number.whole with
  | nil => exact absurd shape proper.some_whole
  | cons digit more =>
    exact ⟨digit, proper.whole_lt digit (by simp [shape]), _, rfl⟩

/-! ## Whole numbers and floats are written properly -/

/-- The digits of a number are the front part of a proper number. -/
theorem digits_lone_zero (number digit : Nat) (more : List Nat) :
    Decimal.digits number ≠ 0 :: digit :: more := by
  intro shape
  obtain rfl := Decimal.eq_zero_of_digits shape
  simp [Decimal.digits_of_lt] at shape

theorem Number.ofNat_proper (number : Nat) : (Number.ofNat number).Proper where
  some_whole := Decimal.digits_ne_nil number
  lone_zero := digits_lone_zero number
  whole_lt _ := Decimal.lt_of_mem_digits
  behind_lt := by simp [Number.ofNat]

/-- A whole number that a 64-bit word holds is read from its own numeral. -/
theorem Number.toNat?_ofNat {number : Nat} (h : number < wholeLimit) :
    (Number.ofNat number).toNat? = some number := by
  simp [Number.toNat?, Number.ofNat, Decimal.ofDigits_digits, h]

/-! ## The shortest decimal of a float -/

end Json

namespace Decimal

/-- An interval above zero holds no point zero of a grid. -/
theorem Interval.holds_zero {interval : Interval} (above : 0 < interval.lower) (numerator : Nat)
    {denominator : Nat} (scale : 0 < denominator) :
    interval.holds numerator denominator 0 = false := by
  have outside : ¬ interval.lower * denominator ≤ 0 := Nat.not_le_of_lt (Nat.mul_pos above scale)
  simp [holds, outside]

/-- A number found on a grid is not zero if the rounding does not fall below the quotient. -/
theorem Interval.onGrid?_ne_zero {interval : Interval} (above : 0 < interval.lower)
    {round : Nat → Nat → Nat} (atLeast : ∀ n d, n / d ≤ round n d) {exponent : Int} {digits : Nat}
    (found : interval.onGrid? round exponent = some digits) : digits ≠ 0 := by
  have scale : 0 < Nat.pow 10 (-exponent).toNat := Nat.pow_pos (by decide)
  have zero := Interval.holds_zero above (Nat.pow 10 exponent.toNat) scale
  unfold onGrid? at found
  extract_lets stepNumerator stepDenominator unit scaled below above at found
  rintro rfl
  split at found
  next lower _ =>
    have least : below ≤ 0 := Option.some.inj found ▸ atLeast scaled unit
    rw [Nat.le_zero.mp least, zero] at lower
    contradiction
  next lower _ =>
    rw [Option.some.inj found, zero] at lower
    contradiction
  next => exact absurd (Option.some.inj found) (Nat.succ_ne_zero below)
  next => contradiction

theorem Interval.search_ne_zero {interval : Interval} (above : 0 < interval.lower)
    {round : Nat → Nat → Nat} (atLeast : ∀ n d, n / d ≤ round n d) {grids : Nat} {exponent : Int}
    {number : Scientific} (found : interval.search round grids exponent = some number) :
    number.digits ≠ 0 := by
  induction grids generalizing exponent with
  | zero => simp [search] at found
  | succ grids hyp =>
    rw [search] at found
    split at found
    next digits hit =>
      obtain rfl := Option.some.inj found
      exact onGrid?_ne_zero above atLeast hit
    next => exact hyp found

theorem Scientific.strip_ne_zero {number : Scientific} (positive : number.digits ≠ 0)
    (fuel : Nat) : (number.strip fuel).digits ≠ 0 := by
  induction fuel generalizing number with
  | zero => exact positive
  | succ fuel hyp =>
    rw [strip]
    split
    next tens => exact hyp (by simp only; omega)
    next => exact positive

theorem le_roundHalfEven (numerator denominator : Nat) :
    numerator / denominator ≤ roundHalfEven numerator denominator := by
  unfold roundHalfEven
  grind

/-- A decimal whose digits are zero has no power of ten beside them: only zero itself is written
so. -/
theorem shortest_zero (mantissa : Nat) (exponent : Int) :
    (shortest roundHalfEven mantissa exponent).digits = 0 →
      (shortest roundHalfEven mantissa exponent).exponent = 0 := by
  by_cases zero : mantissa = 0
  · simp [shortest, zero]
  · have above : 0 < (Interval.ofBinary mantissa exponent).lower := by
      refine Nat.mul_pos ?_ (Nat.pow_pos (by decide))
      split <;> omega
    simp only [shortest, if_neg zero]
    split
    next number found =>
      have positive := Interval.search_ne_zero above le_roundHalfEven found
      exact fun none => absurd none (Scientific.strip_ne_zero positive _)
    next => exact fun _ => rfl

/-- The digits before the point are at least one, and the first of several is no zero, if zero has
no power of ten. -/
theorem place_whole {number : Scientific} (zero : number.digits = 0 → number.exponent = 0) :
    (place number).1 ≠ [] ∧ ∀ digit more, (place number).1 ≠ 0 :: digit :: more := by
  obtain ⟨value, exponent⟩ := number
  have some_digit := digits_ne_nil value
  match exponent with
  | .ofNat zeros =>
    refine ⟨by simp [place, some_digit], fun digit more shape => ?_⟩
    obtain ⟨nothing, _⟩ | ⟨rest, front, _⟩ := List.append_eq_cons_iff.mp shape
    · exact absurd nothing some_digit
    · -- Digits that begin with a zero are those of zero, which no further zeros follow.
      obtain rfl := eq_zero_of_digits front
      obtain rfl : zeros = 0 := by simpa using zero rfl
      simp [place, digits_of_lt] at shape
  | .negSucc n =>
    have nonzero : value ≠ 0 := fun none => by simpa using zero none
    simp only [place]
    by_cases short : (digits value).length ≤ n + 1
    · -- A point in front of all digits is filled up with zeros, one of them before it.
      obtain ⟨fill, count⟩ : ∃ fill, n + 1 + 1 - (digits value).length = fill + 1 :=
        ⟨n + 1 - (digits value).length, by omega⟩
      have one : fill + 1 + (digits value).length - (n + 1) = 1 := by omega
      rw [count, List.length_append, List.length_replicate, one, List.replicate_succ]
      simp
    · rw [show n + 1 + 1 - (digits value).length = 0 by omega, List.replicate_zero, List.nil_append]
      refine ⟨?_, fun digit more shape => ?_⟩
      · simp only [ne_eq, List.take_eq_nil_iff, some_digit, or_false]
        omega
      · have whole := List.take_append_drop ((digits value).length - (n + 1)) (digits value)
        rw [shape, List.cons_append] at whole
        exact nonzero (eq_zero_of_digits whole.symm)

theorem place_lt (number : Scientific) :
    (∀ digit ∈ (place number).1, digit < 10) ∧ ∀ digit ∈ (place number).2, digit < 10 := by
  obtain ⟨value, exponent⟩ := number
  have shown : ∀ digit ∈ digits value, digit < 10 := fun _ => lt_of_mem_digits
  have zeros (count : Nat) : ∀ digit ∈ List.replicate count 0, digit < 10 := by
    intro digit member
    simp [List.eq_of_mem_replicate member]
  match exponent with
  | .ofNat count => exact ⟨List.forall_mem_append.mpr ⟨shown, zeros count⟩, by simp [place]⟩
  | .negSucc n =>
    have filled (count : Nat) := List.forall_mem_append.mpr ⟨zeros count, shown⟩
    exact ⟨fun digit member => filled _ digit (List.mem_of_mem_take member),
      fun digit member => filled _ digit (List.mem_of_mem_drop member)⟩

end Decimal

namespace Json

/-- A finite float is written as a proper number. -/
theorem Number.ofFinite_proper (negative : Bool) (mantissa : Nat) (exponent : Int) :
    (Number.ofFinite negative mantissa exponent).Proper := by
  have whole := Decimal.place_whole (Decimal.shortest_zero mantissa exponent)
  have small := Decimal.place_lt (Decimal.shortest Decimal.roundHalfEven mantissa exponent)
  unfold ofFinite
  extract_lets number digits leading
  split
  · exact
      { some_whole := whole.1
        lone_zero := whole.2
        whole_lt := small.1
        behind_lt := by
          simp only
          split
          · simp
          · exact small.2 }
  · have below : ∀ digit ∈ digits, digit < 10 := fun _ => Decimal.lt_of_mem_digits
    exact
      { some_whole := by simp [digits, Decimal.digits_ne_nil]
        lone_zero := fun digit more shape => by
          have count := congrArg List.length shape
          simp at count
          omega
        whole_lt := fun digit member => below digit (List.mem_of_mem_take member)
        behind_lt := fun digit member => below digit (List.mem_of_mem_drop member) }

end Json

end AesTrials
