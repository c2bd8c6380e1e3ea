import AesTrials.Proofs.JsonLines
import AesTrials.Report.Json

/-!
# Reports as text

A report is read back from its full form. Texts, sizes, durations and failures come back as they
were; an overhead comes back as the float that its own numeral is read as.
-/

namespace AesTrials

open Json

/-! ## The parts of a report -/

theorem Failure.proper_toJson (failure : Failure) : Proper failure.toJson := by
  refine proper_ofFields ?_
  simp [proper_ofText]

/-- A failure is read back from its value. -/
theorem Failure.ofJson?_toJson (failure : Failure) : ofJson? failure.toJson = some failure := by
  have kind : FailureKind.ofJson? (ofText failure.kind.code) = some failure.kind := by
    simp [FailureKind.ofJson?, ofText, text?_unitsOf, FailureKind.ofCode?_code]
  simp [ofJson?, toJson, record?_ofFields, field?, kind, string?_ofText]

theorem Duration.proper_toJson (duration : Duration) : Proper duration.toJson := by
  refine proper_ofFields ?_
  simp [proper_ofNat]

/-- A duration is read back from its value if a 64-bit word holds its seconds. -/
theorem Duration.ofJson?_toJson {duration : Duration}
    (fits : duration.seconds < Number.wholeLimit) :
    ofJson? duration.toJson = some duration := by
  have small : duration.nanos < Nat.pow 2 32 :=
    Nat.lt_trans duration.nanos_lt (by decide)
  have nanos := nat?_ofNat (Nat.lt_trans small (by decide : _ < Number.wholeLimit))
  have held : duration.seconds < Nat.pow 2 64 := fits
  simp [ofJson?, toJson, record?_ofFields, field?, nat?_ofNat fits, nanos, ofParts_seconds_nanos]
  exact ⟨small, held⟩

/-- Whether 64-bit words hold the sizes and the repetitions. -/
structure Params.Fits (params : Params) : Prop where
  /-- The plaintext length. -/
  payloadSize : params.payloadSize < Number.wholeLimit
  /-- The additional data length. -/
  aadSize : params.aadSize < Number.wholeLimit
  /-- The repetitions. -/
  iterations : params.iterations < Number.wholeLimit

theorem Params.proper_toJson (params : Params) : Proper params.toJson := by
  refine proper_ofFields ?_
  simp [proper_ofNat]

theorem Params.ofJson?_toJson {params : Params} (fits : params.Fits) :
    ofJson? params.toJson = some params := by
  simp [ofJson?, toJson, record?_ofFields, field?, nat?_ofNat fits.payloadSize,
    nat?_ofNat fits.aadSize, nat?_ofNat fits.iterations]

/-! ## Overheads -/

/-- Whether a float is a number and not infinite. -/
def Decimal.isFinite (x : Float) : Bool := (special (Binary.ofFloat x)).isNone

/-- The float that the numeral of a float is read as. -/
def Json.reread? (x : Float) : Option Float := (Json.read? (ofFloat x).compact).bind float?

/-- The reader takes the printed value back, so only making a float of its number is left. -/
theorem Json.reread?_eq (x : Float) : reread? x = (ofFloat x).float? := by
  rw [reread?, read?_compact (proper_ofFloat x), Option.bind_some]

/-- The overhead that a report is read with: the float that its numeral is read as, or none if it is
no finite number. -/
def Result.overheadBack (result : Result) : Option Float :=
  result.overheadRatio.bind fun x => if Decimal.isFinite x then reread? x else none

/-- Whether the reader of floats takes the numeral of a finite overhead back. -/
def Result.Accepted (result : Result) : Prop :=
  ∀ x, result.overheadRatio = some x → Decimal.isFinite x = true → ∃ y, reread? x = some y

theorem Result.overhead_ofJson {result : Result} (accepted : result.Accepted) :
    option? float? (some (ofOption ofFloat result.overheadRatio)) = some result.overheadBack := by
  rw [overheadBack]
  cases ratio : result.overheadRatio with
  | none => rfl
  | some x =>
    simp only [ofOption, Option.bind_some]
    by_cases finite : Decimal.isFinite x = true
    · obtain ⟨y, back⟩ := accepted x ratio finite
      rw [if_pos finite, back]
      rw [reread?_eq] at back
      cases json : ofFloat x with
      | null => simp [json, float?] at back
      | _ => simpa [option?, json] using back
    · have null : ofFloat x = .null := by
        unfold Decimal.isFinite at finite
        unfold ofFloat
        cases kind : Decimal.Binary.ofFloat x with
        | finite => simp [kind, Decimal.special] at finite
        | _ => rfl
      simp [null, finite, option?]

/-! ## Results -/

/-- Whether 64-bit words hold the sizes and the seconds. -/
structure Result.Fits (result : Result) : Prop where
  /-- The plaintext length. -/
  plainSize : result.plainSize < Number.wholeLimit
  /-- The additional data length. -/
  aadSize : result.aadSize < Number.wholeLimit
  /-- The message length. -/
  encryptedSize : result.encryptedSize < Number.wholeLimit
  /-- The whole seconds of the mean time. -/
  seconds : result.averageDuration.seconds < Number.wholeLimit

theorem Result.proper_toJson (result : Result) : Proper result.toJson := by
  have overhead : Proper (ofOption ofFloat result.overheadRatio) := by
    cases result.overheadRatio with
    | none => exact .null
    | some x => exact proper_ofFloat x
  have failed : ∀ field ∈ failureField Failure.toJson result.failure, Proper field.2 := by
    cases result.failure with
    | none => simp [failureField]
    | some failure => simp [failureField, failure.proper_toJson]
  refine proper_ofFields (List.forall_mem_append.mpr ⟨?_, failed⟩)
  simp [proper_ofText, proper_ofNat, overhead, result.averageDuration.proper_toJson, Proper.bool]

/-- A result is read back from its value, its overhead as its numeral is read. -/
theorem Result.ofJson?_toJson {result : Result} (fits : result.Fits) (accepted : result.Accepted) :
    ofJson? result.toJson = some { result with overheadRatio := result.overheadBack } := by
  have overhead := overhead_ofJson accepted
  have duration := Duration.ofJson?_toJson fits.seconds
  have failed : option? Failure.ofJson? (result.failure.map Failure.toJson) =
      some result.failure := by
    cases result.failure with
    | none => rfl
    | some failure => exact congrArg (Option.map some) failure.ofJson?_toJson
  have fields : result.toJson.record? false ["name", "plain_size", "aad_size", "encrypted_size",
      "overhead_ratio", "avg_duration", "passed", "failure"] =
      some [some (ofText result.name), some (ofNat result.plainSize), some (ofNat result.aadSize),
        some (ofNat result.encryptedSize), some (ofOption ofFloat result.overheadRatio),
        some result.averageDuration.toJson, some (.bool result.passed),
        result.failure.map Failure.toJson] := by
    rw [toJson, record?_ofFields]
    cases result.failure <;> simp [field?, failureField]
  simp [ofJson?, fields, string?_ofText, nat?_ofNat fits.plainSize, nat?_ofNat fits.aadSize,
    nat?_ofNat fits.encryptedSize, overhead, duration, bool?, failed]

/-! ## Reports -/

/-- Whether 64-bit words hold every size, count and time. -/
structure Report.Fits (report : Report) : Prop where
  /-- Those of the parameters. -/
  params : report.params.Fits
  /-- Those of the results. -/
  results : ∀ result ∈ report.results, result.Fits

theorem Report.proper_toJson (report : Report) : Proper report.toJson := by
  have results : Proper (.array (report.results.map Result.toJson)) := by
    refine .array fun item member => ?_
    obtain ⟨result, _, rfl⟩ := List.mem_map.mp member
    exact result.proper_toJson
  refine proper_ofFields ?_
  simp [report.params.proper_toJson, results]

theorem Result.mapM_ofJson?_toJson {results : List Result} (fits : ∀ result ∈ results, result.Fits)
    (accepted : ∀ result ∈ results, result.Accepted) :
    (results.map Result.toJson).mapM Result.ofJson? =
      some (results.map fun result => { result with overheadRatio := result.overheadBack }) := by
  induction results with
  | nil => rfl
  | cons result results hyp =>
    obtain ⟨fit, fitLater⟩ := List.forall_mem_cons.mp fits
    obtain ⟨accept, acceptLater⟩ := List.forall_mem_cons.mp accepted
    simp [Result.ofJson?_toJson fit accept, hyp fitLater acceptLater]

/-- A report is read back from its full form in every field, but for the overheads: a finite one
comes back as the float that its numeral is read as, any other as none. The reader of floats is only
relied upon to take the numerals of the report's own finite overheads. -/
theorem Report.read?_writeJson {report : Report} (fits : report.Fits)
    (accepted : ∀ result ∈ report.results, result.Accepted) :
    Report.read? report.writeJson = some { report with
      results := report.results.map fun result =>
        { result with overheadRatio := result.overheadBack } } := by
  have text : Json.read? report.writeJson.toList = some report.toJson := by
    rw [writeJson, String.toList_ofList]
    exact read?_compact report.proper_toJson
  have fields : report.toJson.record? false ["config", "results"] =
      some [some report.params.toJson, some (.array (report.results.map Result.toJson))] := by
    rw [toJson, record?_ofFields]
    simp [field?]
  rw [Report.read?, text, Option.bind_some]
  simp [ofJson?, fields, Params.ofJson?_toJson fits.params, items?,
    Result.mapM_ofJson?_toJson fits.results accepted]

/-- A report with all that a text can hold and an overhead of each sort: quotes, a backslash, a
control character and a character beyond the first plane, the largest size, a finite overhead and an
infinite one. -/
def Report.mixed : Report where
  params := ⟨15, 20, 3⟩
  results :=
    [{ name := "a \"variant\" \\ \x01", plainSize := 15, aadSize := 20, encryptedSize := 63
       overheadRatio := some 0.8, averageDuration := ⟨1500000⟩, passed := true, failure := none },
     { name := "𝔸", plainSize := 18446744073709551615, aadSize := 0, encryptedSize := 0
       overheadRatio := some (1.0 / 0.0), averageDuration := ⟨0⟩, passed := false
       failure := some ⟨.roundTripMismatch, "line\nline"⟩ }]

theorem Report.read?_writeJson_mixed :
    Report.mixed.Fits ∧ (∀ result ∈ Report.mixed.results, result.Accepted) ∧
      Report.read? Report.mixed.writeJson = some { Report.mixed with
        results := Report.mixed.results.map fun result =>
          { result with overheadRatio := result.overheadBack } } := by
  have fits : Report.mixed.Fits := by
    refine ⟨⟨by decide, by decide, by decide⟩, fun result member => ?_⟩
    obtain rfl | rfl := by simpa [mixed] using member
    all_goals exact ⟨by decide, by decide, by decide, by decide⟩
  have finite : ∃ y, reread? 0.8 = some y := by
    rw [reread?_eq]
    exact Option.isSome_iff_exists.mp (by decide +kernel)
  have accepted : ∀ result ∈ Report.mixed.results, result.Accepted := by
    intro result member x ratio number
    obtain rfl | rfl := by simpa [mixed] using member
    · obtain rfl := Option.some.inj ratio
      exact finite
    · obtain rfl := Option.some.inj ratio
      exact absurd number (by decide +kernel)
  exact ⟨fits, accepted, read?_writeJson fits accepted⟩

end AesTrials
