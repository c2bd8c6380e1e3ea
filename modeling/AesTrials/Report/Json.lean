import AesTrials.Json.Printer
import AesTrials.Report.Basic

/-!
# Reports as JSON

The full form holds every field of a report in the order of its declaration. The shown form sorts
fields by name and leaves the time and the overhead of a failed result out, as the table does.
-/

namespace AesTrials

/-- The failure as a value. -/
def Failure.toJson (failure : Failure) : Json :=
  .ofFields [("kind", .ofText failure.kind.code), ("detail", .ofText failure.detail)]

/-- The duration as a value. -/
def Duration.toJson (duration : Duration) : Json :=
  .ofFields [("secs", .ofNat duration.seconds), ("nanos", .ofNat duration.nanos)]

/-- The parameters as a value. -/
def Params.toJson (params : Params) : Json :=
  .ofFields [("payload_size", .ofNat params.payloadSize), ("aad_size", .ofNat params.aadSize),
    ("iterations", .ofNat params.iterations)]

/-- The field of a failure, if there is one. -/
def failureField (write : Failure → Json) (failure : Option Failure) : List (String × Json) :=
  match failure with
  | none => []
  | some failure => [("failure", write failure)]

/-- The result as a value. -/
def Result.toJson (result : Result) : Json :=
  .ofFields ([("name", .ofText result.name), ("plain_size", .ofNat result.plainSize),
    ("aad_size", .ofNat result.aadSize), ("encrypted_size", .ofNat result.encryptedSize),
    ("overhead_ratio", .ofOption Json.ofFloat result.overheadRatio),
    ("avg_duration", result.averageDuration.toJson), ("passed", .bool result.passed)] ++
    failureField Failure.toJson result.failure)

namespace Report

/-- The report as a value. -/
def toJson (report : Report) : Json :=
  .ofFields [("config", report.params.toJson),
    ("results", .array (report.results.map Result.toJson))]

/-- The full form on one line. -/
def writeJson (report : Report) : String := String.ofList report.toJson.compact

end Report

namespace Shown

/-- The failure as a value, fields sorted by name. -/
def failure (failure : Failure) : Json :=
  .ofFields [("detail", .ofText failure.detail), ("kind", .ofText failure.kind.code)]

/-- The duration as a value, fields sorted by name. -/
def duration (duration : Duration) : Json :=
  .ofFields [("nanos", .ofNat duration.nanos), ("secs", .ofNat duration.seconds)]

/-- The parameters as a value, fields sorted by name. -/
def params (params : Params) : Json :=
  .ofFields [("aad_size", .ofNat params.aadSize), ("iterations", .ofNat params.iterations),
    ("payload_size", .ofNat params.payloadSize)]

/-- Fields that only a passed result shows. -/
def ifPassed (result : Result) (fields : List (String × Json)) : List (String × Json) :=
  if result.passed then fields else []

/-- The result as a value, fields sorted by name. -/
def result (result : Result) : Json :=
  .ofFields ([("aad_size", .ofNat result.aadSize)] ++
    ifPassed result [("avg_duration", duration result.averageDuration)] ++
    [("encrypted_size", .ofNat result.encryptedSize)] ++
    failureField failure result.failure ++
    [("name", .ofText result.name)] ++
    ifPassed result [("overhead_ratio", .ofOption Json.ofFloat result.overheadRatio)] ++
    [("passed", .bool result.passed), ("plain_size", .ofNat result.plainSize)])

/-- The report as a value, fields sorted by name. -/
def report (report : Report) : Json :=
  .ofFields [("config", params report.params), ("results", .array (report.results.map result))]

end Shown

/-- The shown form, one field a line. -/
def Report.renderJson (report : Report) : String :=
  String.ofList ((Shown.report report).pretty 0)

end AesTrials
