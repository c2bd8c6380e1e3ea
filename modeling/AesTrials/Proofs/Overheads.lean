import AesTrials.Proofs.Rereading

/-!
# Overheads in a report that is read back

An overhead is a quotient of floats of whole numbers, so it is zero or neither very large nor very
small, and its numeral is always taken back. It comes back as it was if its digits and its power of
ten are both short; otherwise it may come back as a float next to it or one further, and then the
report that is read is not the one that was written.
-/

namespace AesTrials

namespace Decimal

/-! ## The size of an overhead -/

variable {x y : Float} {negative : Bool}

/-- The difference of two floats of whole numbers is zero, or no smaller than the last place that
they may have. -/
theorem sub_sized (left : Sized (-52) 12 x false) (right : Sized (-52) 12 y false) :
    x - y = 0.0 ∨ ∃ negative, Sized (-104) 13 (x - y) negative := by
  obtain ⟨mantissa, exponent, stands, low, high⟩ := left
  obtain ⟨other, place, parts, lowOther, highOther⟩ := right
  by_cases same : difference mantissa exponent other place = 0
  · exact .inl (sub_eq_zero stands parts same)
  · have unit : (0 : ℚ) < 2 ^ min exponent place := by positivity
    have some : (1 : ℚ) ≤ |(difference mantissa exponent other place : ℚ)| := by
      exact_mod_cast Int.one_le_abs same
    have lower : 2 ^ (-104 + 52 : Int) ≤ |(mantissa * 2 ^ exponent - other * 2 ^ place : ℚ)| := by
      calc (2 : ℚ) ^ (-104 + 52 : Int) ≤ 2 ^ min exponent place :=
            zpow_le_zpow_right₀ (by norm_num) (by omega)
        _ ≤ |(difference mantissa exponent other place : ℚ)| * 2 ^ min exponent place :=
          le_mul_of_one_le_left unit.le some
        _ = |(mantissa * 2 ^ exponent - other * 2 ^ place : ℚ)| := by
          rw [← difference_mul, abs_mul, abs_of_pos unit]
    have upper : |(mantissa * 2 ^ exponent - other * 2 ^ place : ℚ)| ≤ 2 ^ (13 + 52 : Int) := by
      have first := stands.self
      have second := parts.self
      have small {power : Int} (bound : power ≤ 12) :
          (2 : ℚ) ^ (power + 53) ≤ 2 ^ (13 + 52 : Int) :=
        zpow_le_zpow_right₀ (by norm_num) (by omega)
      have one := first.lt_two_zpow.le.trans (small high)
      have two := second.lt_two_zpow.le.trans (small highOther)
      exact abs_sub_le_of_nonneg_of_le first.value_pos.le one second.value_pos.le two
    have moderate := Moderate.of_between _ _ lower upper (by omega) (by omega)
    exact .inr ⟨_, (rounds_sub stands parts same moderate).sized lower upper⟩

/-- The quotient of two floats has about the difference of their exponents. -/
theorem div_sized (left : Sized (-104) 13 x negative) (right : Sized (-52) 12 y false) :
    Sized (-200) 100 (x / y) negative := by
  obtain ⟨mantissa, exponent, stands, low, high⟩ := left
  obtain ⟨other, place, parts, lowOther, highOther⟩ := right
  have first := stands.self
  have second := parts.self
  have lower : (2 : ℚ) ^ (-200 + 52 : Int) ≤ mantissa * 2 ^ exponent / (other * 2 ^ place) := by
    rw [le_div_iff₀ second.value_pos]
    calc (2 : ℚ) ^ (-200 + 52 : Int) * (other * 2 ^ place)
        ≤ 2 ^ (-200 + 52 : Int) * 2 ^ (place + 53) :=
          mul_le_mul_of_nonneg_left second.lt_two_zpow.le (by positivity)
      _ = 2 ^ (-200 + 52 + (place + 53)) := (zpow_add₀ (by norm_num) _ _).symm
      _ ≤ 2 ^ (exponent + 51) := zpow_le_zpow_right₀ (by norm_num) (by omega)
      _ ≤ mantissa * 2 ^ exponent := first.two_zpow_lt.le
  have upper : (mantissa * 2 ^ exponent / (other * 2 ^ place) : ℚ) ≤ 2 ^ (100 + 52 : Int) := by
    rw [div_le_iff₀ second.value_pos]
    calc (mantissa * 2 ^ exponent : ℚ) ≤ 2 ^ (exponent + 53) := first.lt_two_zpow.le
      _ ≤ 2 ^ (100 + 52 + (place + 51)) := zpow_le_zpow_right₀ (by norm_num) (by omega)
      _ = 2 ^ (100 + 52 : Int) * 2 ^ (place + 51) := zpow_add₀ (by norm_num) _ _
      _ ≤ 2 ^ (100 + 52 : Int) * (other * 2 ^ place) :=
        mul_le_mul_of_nonneg_left second.two_zpow_lt.le (by positivity)
  have moderate := Moderate.of_between _ _ lower upper (by omega) (by omega)
  have quotient := rounds_div stands parts moderate
  rw [Bool.xor_false] at quotient
  exact quotient.sized lower upper

end Decimal

open Decimal (Sized)

/-- An overhead is zero or neither very large nor very small. -/
theorem exists_overheadRatio {plainSize aadSize encryptedSize : Nat}
    (nonempty : 0 < plainSize + aadSize) (fits : plainSize + aadSize < 2 ^ 64)
    (encryptedFits : encryptedSize < 2 ^ 64) :
    ∃ x, overheadRatio plainSize aadSize encryptedSize = some x ∧
      (x = 0.0 ∨ ∃ negative, Sized (-200) 100 x negative) := by
  have input := Decimal.sized_toFloat nonempty fits
  have nonzero : plainSize + aadSize ≠ 0 := by omega
  have difference : encryptedSize.toUInt64.toFloat - (plainSize + aadSize).toUInt64.toFloat = 0.0 ∨
      ∃ negative, Sized (-104) 13
        (encryptedSize.toUInt64.toFloat - (plainSize + aadSize).toUInt64.toFloat) negative := by
    obtain rfl | positive := Nat.eq_zero_or_pos encryptedSize
    · obtain ⟨mantissa, exponent, stands, low, high⟩ := input
      rw [Decimal.toFloat_zero]
      exact .inr ⟨true, mantissa, exponent, Decimal.stands_zero_sub stands, by omega, by omega⟩
    · exact Decimal.sub_sized (Decimal.sized_toFloat positive encryptedFits) input
  refine ⟨_, by rw [overheadRatio, if_neg nonzero], ?_⟩
  obtain none | ⟨negative, sized⟩ := difference
  · obtain ⟨mantissa, exponent, stands, _⟩ := input
    rw [none]
    exact .inl (Decimal.zero_div_eq stands)
  · exact .inr ⟨negative, Decimal.div_sized sized input⟩

/-! ## Results that are read back -/

/-- Whether a result has the overhead of its own sizes, of which a word holds the sum of those that
were put in, and not all of these are empty. -/
structure Result.Measured (result : Result) : Prop where
  /-- There is plaintext or additional data. -/
  nonempty : 0 < result.plainSize + result.aadSize
  /-- Both together have a length that a word holds. -/
  fits : result.plainSize + result.aadSize < Json.Number.wholeLimit
  /-- The overhead is that of the sizes. -/
  ratio : result.overheadRatio =
    AesTrials.overheadRatio result.plainSize result.aadSize result.encryptedSize

/-- Whether a result is read back as another one, which may only have another overhead, no more
floats away than there are factors in its numeral that are rounded. -/
structure Result.ReadAs (result back : Result) (x y : Float) : Prop where
  /-- The overhead that was written. -/
  written : result.overheadRatio = some x
  /-- All that is read. -/
  read : back = { result with overheadRatio := some y }
  /-- How far the two are apart. -/
  near : |(y.toBits.toNat : Int) - x.toBits.toNat| ≤ Json.roundings x

namespace Result

variable {result : Result}

/-- A measured overhead is read back from its numeral. -/
theorem Measured.exists_reread (measured : result.Measured) (fits : result.Fits) :
    ∃ x y, result.overheadRatio = some x ∧ Decimal.isFinite x = true ∧ Json.reread? x = some y ∧
      |(y.toBits.toNat : Int) - x.toBits.toNat| ≤ Json.roundings x := by
  obtain ⟨x, ratio, zero | ⟨negative, mantissa, exponent, stands, low, high⟩⟩ :=
    exists_overheadRatio measured.nonempty measured.fits fits.encryptedSize
  · rw [← measured.ratio, zero] at ratio
    refine ⟨0.0, 0.0, ratio, by decide +kernel, Json.reread?_zero, ?_⟩
    rw [sub_self, abs_zero]
    exact Int.natCast_nonneg _
  · rw [← measured.ratio] at ratio
    obtain ⟨y, back, near⟩ := Json.exists_reread stands low high
    have finite : Decimal.isFinite x = true := by
      rw [Decimal.isFinite, stands.kind]
      rfl
    exact ⟨x, y, ratio, finite, back, near⟩

/-- The numeral of a measured overhead is taken back. -/
theorem Measured.accepted (measured : result.Measured) (fits : result.Fits) :
    result.Accepted := by
  obtain ⟨x, y, ratio, _, back, _⟩ := measured.exists_reread fits
  intro other same _
  rw [ratio] at same
  obtain rfl := Option.some.inj same
  exact ⟨y, back⟩

/-- A measured result is read back with an overhead that is near its own. -/
theorem Measured.readAs (measured : result.Measured) (fits : result.Fits) :
    ∃ x y, result.ReadAs { result with overheadRatio := result.overheadBack } x y := by
  obtain ⟨x, y, ratio, finite, back, near⟩ := measured.exists_reread fits
  refine ⟨x, y, ratio, ?_, near⟩
  rw [overheadBack, ratio, Option.bind_some, if_pos finite, back]

/-- A result is read back as it was if the factors in its numeral are floats. -/
theorem ReadAs.eq_of_short {back : Result} {x y : Float} (readAs : result.ReadAs back x y)
    (short : Json.roundings x = 0) : back = result := by
  have near := readAs.near
  rw [short, Nat.cast_zero, abs_nonpos_iff] at near
  have same : y = x := by
    apply Decimal.eq_of_toBits_eq
    apply UInt64.toNat_inj.mp
    omega
  rw [readAs.read, same, ← readAs.written]

end Result

namespace Report

variable {report : Report}

/-- What is read of a report is what is read of its results. -/
theorem read?_writeJson_eq (fits : report.params.Fits) :
    Report.read? report.writeJson =
      ((report.results.map Result.toJson).mapM Result.ofJson?).map
        fun results => { report with results } := by
  have text : Json.read? report.writeJson.toList = some report.toJson := by
    rw [writeJson, String.toList_ofList]
    exact Json.read?_compact report.proper_toJson
  have fields : report.toJson.record? false ["config", "results"] =
      some [some report.params.toJson, some (.array (report.results.map Result.toJson))] := by
    rw [toJson, Json.record?_ofFields]
    simp [Json.field?]
  rw [Report.read?, text, Option.bind_some, ofJson?, fields]
  simp only [Option.bind_eq_bind, Option.bind_some, Params.ofJson?_toJson fits, Json.items?]
  cases (report.results.map Result.toJson).mapM Result.ofJson? <;> rfl

/-- A report of measured results is always read back, with each overhead as the same float or one
that is two floats away at most: one for digits that are more than a float has, and one for a power
of ten that is no float. So it is read back as it was if the numerals of its overheads are short. -/
theorem read?_writeJson_near (fits : report.Fits)
    (measured : ∀ result ∈ report.results, result.Measured) :
    ∃ results, Report.read? report.writeJson = some { report with results } ∧
      List.Forall₂ (fun result back => ∃ x y, result.ReadAs back x y) report.results results ∧
      ((∀ result ∈ report.results, ∀ x, result.overheadRatio = some x → Json.roundings x = 0) →
        results = report.results) := by
  have accepted : ∀ result ∈ report.results, result.Accepted := fun result member =>
    (measured result member).accepted (fits.results result member)
  have readAs : ∀ result ∈ report.results, ∃ x y,
      result.ReadAs { result with overheadRatio := result.overheadBack } x y :=
    fun result member => (measured result member).readAs (fits.results result member)
  refine ⟨report.results.map fun result => { result with overheadRatio := result.overheadBack },
    ?_, ?_, fun short => ?_⟩
  · rw [read?_writeJson_eq fits.params, Result.mapM_ofJson?_toJson fits.results accepted]
    rfl
  · rw [List.forall₂_map_right_iff, List.forall₂_same]
    exact readAs
  · refine (List.map_congr_left fun result member => ?_).trans (List.map_id _)
    obtain ⟨x, y, near⟩ := readAs result member
    exact near.eq_of_short (short result member x near.written)

/-- A report with an overhead whose numeral has 17 digits, too many for a float, and another with a
single digit behind the point. -/
def uneven : Report where
  params := ⟨62, 0, 1⟩
  results :=
    [{ name := "AES128-GCM", plainSize := 62, aadSize := 0, encryptedSize := 90
       overheadRatio := overheadRatio 62 0 90, averageDuration := ⟨1500000⟩, passed := true
       failure := none },
     { name := "AES256-GCM", plainSize := 15, aadSize := 20, encryptedSize := 63
       overheadRatio := overheadRatio 15 20 63, averageDuration := ⟨1500000⟩, passed := true
       failure := none }]

theorem fits_uneven : uneven.Fits :=
  ⟨⟨by decide, by decide, by decide⟩, List.forall_mem_cons.mpr
    ⟨⟨by decide, by decide, by decide, by decide⟩,
      List.forall_mem_singleton.mpr ⟨by decide, by decide, by decide, by decide⟩⟩⟩

theorem measured_uneven : ∀ result ∈ uneven.results, result.Measured :=
  List.forall_mem_cons.mpr ⟨⟨by decide, by decide, rfl⟩,
    List.forall_mem_singleton.mpr ⟨by decide, by decide, rfl⟩⟩

/-- The first overhead may come back as a neighbour of what it was, the second is not rounded. -/
theorem read?_writeJson_near_uneven :
    uneven.Fits ∧ (∀ result ∈ uneven.results, result.Measured) ∧
      uneven.results.map (fun result => result.overheadRatio.map Json.roundings) =
        [some 1, some 0] ∧
      ∃ results, Report.read? uneven.writeJson = some { uneven with results } ∧
        List.Forall₂ (fun result back => ∃ x y, result.ReadAs back x y) uneven.results results := by
  have roundings : uneven.results.map (fun result => result.overheadRatio.map Json.roundings) =
      [some 1, some 0] := by decide +kernel
  obtain ⟨results, read, near, _⟩ := read?_writeJson_near fits_uneven measured_uneven
  exact ⟨fits_uneven, measured_uneven, roundings, results, read, near⟩

/-- Not every report of measured results is read back as it was: the first overhead here comes back
as another float. -/
theorem not_read?_writeJson_measured :
    ¬ ∀ report : Report, report.Fits → (∀ result ∈ report.results, result.Measured) →
      Report.read? report.writeJson = some report := by
  intro survives
  have same := survives uneven fits_uneven measured_uneven
  have accepted : ∀ result ∈ uneven.results, result.Accepted := fun result member =>
    (measured_uneven result member).accepted (fits_uneven.results result member)
  rw [read?_writeJson_eq fits_uneven.params,
    Result.mapM_ofJson?_toJson fits_uneven.results accepted] at same
  have back : uneven.results.map Result.overheadBack = uneven.results.map Result.overheadRatio := by
    have overheads := congrArg (fun report : Report => report.results.map Result.overheadRatio)
      (Option.some.inj same)
    rwa [List.map_map] at overheads
  have numerals : Result.overheadBack = fun result => result.overheadRatio.bind fun x =>
      if Decimal.isFinite x then (Json.ofFloat x).float? else none := by
    funext result
    simp only [Result.overheadBack, Json.reread?_eq]
  rw [numerals] at back
  have changed : uneven.results.map (fun result => result.overheadRatio.bind fun x =>
      if Decimal.isFinite x then (Json.ofFloat x).float? else none) ≠
      uneven.results.map Result.overheadRatio := by decide +kernel
  exact changed back

end Report

end AesTrials
