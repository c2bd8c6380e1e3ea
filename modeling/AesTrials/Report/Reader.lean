import AesTrials.Json.Content
import AesTrials.Json.Parser
import AesTrials.Report.Basic

/-!
# Reading reports

A record is an object whose fields are looked up by name, or an array of its fields in order.
Fields that are not asked for are ignored in an object, unless the record is closed; a field that
is asked for must not come twice.
-/

namespace AesTrials

namespace Json

/-- The names of the fields and their values, if every name stands for a text. -/
def namedFields? (fields : List (List Nat × Json)) : Option (List (String × Json)) :=
  fields.mapM fun field => (text? field.1).map fun name => (name, field.2)

/-- The value of a field that comes at most once: none if it comes twice, and no value if it does
not come. -/
def field? (fields : List (String × Json)) (name : String) : Option (Option Json) :=
  match fields.filter fun field => field.1 == name with
  | [] => some none
  | [field] => some (some field.2)
  | _ => none

/-- The values of the named fields of a record, each missing or present. -/
def record? (closed : Bool) (names : List String) : Json → Option (List (Option Json))
  | .object fields => do
    let fields ← namedFields? fields
    if closed && fields.any (fun field => !names.contains field.1) then none
    else names.mapM (field? fields)
  | .array items =>
    if items.length ≤ names.length then
      some (items.map some ++ List.replicate (names.length - items.length) none)
    else none
  | _ => none

/-- A whole number. -/
def nat? : Json → Option Nat
  | .number value => value.toNat?
  | _ => none

/-- A float. -/
def float? : Json → Option Float
  | .number value => value.toFloat?
  | _ => none

/-- A text. -/
def string? : Json → Option String
  | .string units => text? units
  | _ => none

/-- A truth value. -/
def bool? : Json → Option Bool
  | .bool value => some value
  | _ => none

/-- A value that may be missing or null. -/
def option? {α : Type} (read : Json → Option α) : Option Json → Option (Option α)
  | none => some none
  | some .null => some none
  | some value => (read value).map some

end Json

/-- The kind of a failure: its code, or an object with the code as the name of a null field. -/
def FailureKind.ofJson? : Json → Option FailureKind
  | .string units => (Json.text? units).bind ofCode?
  | .object [(units, .null)] => (Json.text? units).bind ofCode?
  | _ => none

/-- The kind of failure that a whole text names. -/
def FailureKind.read? (text : String) : Option FailureKind :=
  (Json.read? text.toList).bind ofJson?

/-- The failure of a value. -/
def Failure.ofJson? (json : Json) : Option Failure := do
  match ← json.record? false ["kind", "detail"] with
  | [some kind, some detail] => some ⟨← FailureKind.ofJson? kind, ← detail.string?⟩
  | _ => none

/-- The duration of a value: no other fields, nanoseconds that fit 32 bits, and seconds that still
fit 64 bits with whole seconds of nanoseconds carried. -/
def Duration.ofJson? (json : Json) : Option Duration := do
  match ← json.record? true ["secs", "nanos"] with
  | [some seconds, some nanos] =>
    let seconds ← seconds.nat?
    let nanos ← nanos.nat?
    let duration := ofParts seconds nanos
    if nanos < Nat.pow 2 32 ∧ duration.seconds < Nat.pow 2 64 then some duration else none
  | _ => none

/-- The parameters of a value. -/
def Params.ofJson? (json : Json) : Option Params := do
  match ← json.record? false ["payload_size", "aad_size", "iterations"] with
  | [some payloadSize, some aadSize, some iterations] =>
    some ⟨← payloadSize.nat?, ← aadSize.nat?, ← iterations.nat?⟩
  | _ => none

/-- The result of a value; the overhead and the failure may be missing. -/
def Result.ofJson? (json : Json) : Option Result := do
  match ← json.record? false ["name", "plain_size", "aad_size", "encrypted_size",
      "overhead_ratio", "avg_duration", "passed", "failure"] with
  | [some name, some plainSize, some aadSize, some encryptedSize, overheadRatio,
      some averageDuration, some passed, failure] =>
    some { name := ← name.string?, plainSize := ← plainSize.nat?, aadSize := ← aadSize.nat?
           encryptedSize := ← encryptedSize.nat?
           overheadRatio := ← Json.option? Json.float? overheadRatio
           averageDuration := ← Duration.ofJson? averageDuration
           passed := ← passed.bool?
           failure := ← Json.option? Failure.ofJson? failure }
  | _ => none

/-- The items of an array. -/
def Json.items? : Json → Option (List Json)
  | .array items => some items
  | _ => none

namespace Report

/-- The report of a value. -/
def ofJson? (json : Json) : Option Report := do
  match ← json.record? false ["config", "results"] with
  | [some params, some results] =>
    some ⟨← Params.ofJson? params, ← (← results.items?).mapM Result.ofJson?⟩
  | _ => none

/-- The report of a whole text. -/
def read? (text : String) : Option Report := (Json.read? text.toList).bind ofJson?

end Report

end AesTrials
