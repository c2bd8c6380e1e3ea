import AesTrials.Decimal.Binary

/-!
# Durations

A duration is a whole number of nanoseconds, stated as seconds and the nanoseconds beyond them. It
is divided as a float of seconds, and the quotient is rounded to nanoseconds again; where that is no
duration there is no answer. A time that was measured is short enough for every mean of it.
-/

namespace AesTrials

/-- A span of time. -/
structure Duration where
  /-- Its length in nanoseconds. -/
  nanoseconds : Nat
deriving DecidableEq, Repr, Inhabited

namespace Duration

/-- Nanoseconds in a second. -/
def perSecond : Nat := 1000000000

/-- The empty span. -/
def zero : Duration := ⟨0⟩

/-- The span of some seconds and some nanoseconds. -/
def ofParts (seconds nanos : Nat) : Duration := ⟨seconds * perSecond + nanos⟩

/-- Whole seconds. -/
def seconds (duration : Duration) : Nat := duration.nanoseconds / perSecond

/-- Nanoseconds beyond the whole seconds. -/
def nanos (duration : Duration) : Nat := duration.nanoseconds % perSecond

/-- The span in seconds: the whole ones and the fraction of one added up as floats. -/
def toSeconds (duration : Duration) : Float :=
  duration.seconds.toUInt64.toFloat + duration.nanos.toUInt64.toFloat / 1000000000.0

/-- The span in milliseconds: its seconds scaled. -/
def toMilliseconds (duration : Duration) : Float := duration.toSeconds * 1000.0

/-- As many seconds as no duration can count: they are held in 64 bits. -/
def secondsLimit : Nat := Nat.pow 2 64

/-- The span of a number of seconds, to the nearest nanosecond, a half to the even neighbour. There
is none if the number is negative or no number, or too large. -/
def ofSeconds? (seconds : Float) : Option Duration :=
  match Decimal.Binary.ofFloat seconds with
  | .nan | .infinite _ => none
  | .finite negative mantissa exponent =>
    let (numerator, denominator) := Decimal.fraction mantissa exponent
    if negative = true ∧ mantissa ≠ 0 then none
    else if secondsLimit * denominator ≤ numerator then none
    else some ⟨Decimal.roundHalfEven (numerator * perSecond) denominator⟩

/-- The span divided by a float, if that is a span. -/
def divide? (duration : Duration) (divisor : Float) : Option Duration :=
  ofSeconds? (duration.toSeconds / divisor)

/-- The mean of a number of cycles that take the duration together, if it is a span. Without cycles
nothing is divided, and it is the empty span. -/
def average? (duration : Duration) (count : Nat) : Option Duration :=
  if count = 0 then some zero else duration.divide? (UInt64.ofNatClamp count).toFloat

/-- Seconds and nanoseconds make up the duration. -/
theorem ofParts_seconds_nanos (duration : Duration) :
    ofParts duration.seconds duration.nanos = duration := by
  simp only [ofParts, seconds, nanos, perSecond]
  congr 1
  omega

/-- Nanoseconds beyond the whole seconds do not make a second. -/
theorem nanos_lt (duration : Duration) : duration.nanos < perSecond :=
  Nat.mod_lt _ (by decide)

end Duration

/-- A span of time that a clock has measured, whose seconds it counts in 63 bits. -/
structure Elapsed where
  /-- The span. -/
  duration : Duration
  /-- It is one that the clock can count. -/
  bounded : duration.seconds < Nat.pow 2 63
deriving DecidableEq, Repr

namespace Elapsed

/-- No time at all. -/
def zero : Elapsed := ⟨.zero, by decide⟩

instance : Inhabited Elapsed := ⟨zero⟩

/-- A number of nanoseconds on a clock that stops when it can count no further. -/
def ofNanoseconds (nanoseconds : Nat) : Elapsed where
  duration := ⟨min nanoseconds (Nat.pow 2 63 * Duration.perSecond - 1)⟩
  bounded := by
    have most := Nat.min_le_right nanoseconds (Nat.pow 2 63 * Duration.perSecond - 1)
    rw [Duration.seconds, Nat.div_lt_iff_lt_mul (by decide)]
    exact Nat.lt_of_le_of_lt most (by decide)

/-- The mean of a number of cycles that take the time together. It is always a span. -/
def average (elapsed : Elapsed) (count : Nat) : Duration :=
  (elapsed.duration.average? count).getD .zero

end Elapsed

end AesTrials
