import AesTrials.Proofs.ReportText
import Mathlib.Data.List.Forall2
import Mathlib.Data.List.Lex
import Mathlib.Data.List.Sort

/-!
# Reports as they are shown

The shown form of a report is its full form with the fields of every object sorted by name, and
with the time and the overhead taken out of the entries of failed results. Its text is read back as
a value whose entries hold what their results say, each entry that of its own result.
-/

namespace AesTrials

namespace Json

/-! ## Objects and their fields -/

/-- The value of an object under a name. -/
def get? (name : String) : Json → Option Json
  | .object fields => (fields.find? fun field => field.1 == unitsOf name).map Prod.snd
  | _ => none

/-- An object without the fields of a name. -/
def remove (name : String) : Json → Json
  | .object fields => .object (fields.filter fun field => field.1 != unitsOf name)
  | json => json

/-- An object with the value under a name changed. -/
def edit (name : String) (change : Json → Json) : Json → Json
  | .object fields => .object (fields.map fun field =>
      if field.1 == unitsOf name then (field.1, change field.2) else field)
  | json => json

/-- An array with every item changed. -/
def mapItems (change : Json → Json) : Json → Json
  | .array items => .array (items.map change)
  | json => json

mutual

/-- A value with the fields of every object in it sorted by name. -/
def sorted : Json → Json
  | .array items => .array (sortedItems items)
  | .object fields =>
    .object ((sortedFields fields).insertionSort fun field other => field.1 ≤ other.1)
  | json => json

/-- Items with the fields of every object in them sorted by name. -/
def sortedItems : List Json → List Json
  | [] => []
  | item :: items => sorted item :: sortedItems items

/-- Fields, in their order, with the fields of every object in them sorted by name. -/
def sortedFields : List (List Nat × Json) → List (List Nat × Json)
  | [] => []
  | (name, value) :: fields => (name, sorted value) :: sortedFields fields

end

section Sorting

attribute [local simp] sorted sortedItems sortedFields

theorem sortedItems_eq_map (items : List Json) : sortedItems items = items.map sorted := by
  induction items with
  | nil => rfl
  | cons item items hyp => simp [hyp]

theorem sortedFields_eq_map (fields : List (List Nat × Json)) :
    sortedFields fields = fields.map fun field => (field.1, sorted field.2) := by
  induction fields with
  | nil => rfl
  | cons field fields hyp => simp [hyp]

/-- Names are the same if their units are. -/
theorem unitsOf_inj {name other : String} : unitsOf name = unitsOf other ↔ name = other := by
  constructor
  · intro same
    have text := text?_unitsOf name
    rw [same, text?_unitsOf] at text
    exact (Option.some.inj text).symm
  · rintro rfl
    rfl

/-- Units of names are compared as the names are. -/
theorem unitsOf_beq (name other : String) : (unitsOf name == unitsOf other) = (name == other) := by
  rw [Bool.eq_iff_iff, beq_iff_eq, beq_iff_eq, unitsOf_inj]

theorem get?_ofFields (name : String) (fields : List (String × Json)) :
    (ofFields fields).get? name = (fields.find? fun field => field.1 == name).map Prod.snd := by
  simp only [ofFields, get?, List.find?_map, Function.comp_def, unitsOf_beq, Option.map_map]

/-- A field is the first of its name if the names are distinct. -/
theorem find?_of_mem {fields : List (String × Json)} (distinct : (fields.map Prod.fst).Nodup)
    {name : String} {value : Json} (member : (name, value) ∈ fields) :
    (fields.find? fun field => field.1 == name) = some (name, value) := by
  induction fields with
  | nil => cases member
  | cons field fields hyp =>
    obtain ⟨new, later⟩ := List.nodup_cons.mp distinct
    cases member with
    | head => simp
    | tail _ behind =>
      have other : field.1 ≠ name := fun same => new (List.mem_map.mpr ⟨_, behind, same.symm⟩)
      rw [List.find?_cons_of_neg (by simpa using other), hyp later behind]

theorem remove_ofFields (name : String) (fields : List (String × Json)) :
    (ofFields fields).remove name = ofFields (fields.filter fun field => field.1 != name) := by
  simp only [ofFields, remove, List.filter_map, Function.comp_def, bne, unitsOf_beq]

theorem edit_ofFields (name : String) (change : Json → Json) (fields : List (String × Json)) :
    (ofFields fields).edit name change = ofFields (fields.map fun field =>
      if field.1 == name then (field.1, change field.2) else field) := by
  simp only [ofFields, edit, List.map_map, Function.comp_def, unitsOf_beq]
  congr 2
  funext field
  split <;> rfl

/-- Fields are sorted by the units of their names. -/
theorem sorted_ofFields (fields : List (String × Json)) :
    (ofFields fields).sorted = ofFields ((fields.map fun field => (field.1, field.2.sorted))
      |>.insertionSort fun field other => unitsOf field.1 ≤ unitsOf other.1) := by
  rw [ofFields, sorted, sortedFields_eq_map, List.map_map, ofFields,
    List.map_insertionSort _ (fun field other => field.1 ≤ other.1), List.map_map]
  · rfl
  · exact fun _ _ _ _ => Iff.rfl

theorem sorted_ofText (text : String) : (ofText text).sorted = ofText text := by
  simp [ofText]

theorem sorted_ofNat (number : Nat) : (ofNat number).sorted = ofNat number := by
  simp [ofNat]

theorem sorted_bool (value : Bool) : (Json.bool value).sorted = .bool value := by
  simp

theorem sorted_ofFloat (x : Float) : (ofFloat x).sorted = ofFloat x := by
  unfold ofFloat
  split <;> simp

theorem sorted_ofOption_ofFloat (x : Option Float) :
    (ofOption ofFloat x).sorted = ofOption ofFloat x := by
  cases x with
  | none => simp [ofOption]
  | some x => exact sorted_ofFloat x

end Sorting

/-- The entry of a failed result without its time and its overhead; any other entry as it is. -/
def hideFailed (entry : Json) : Json :=
  match entry.get? "passed" with
  | some (.bool false) => (entry.remove "avg_duration").remove "overhead_ratio"
  | _ => entry

theorem hideFailed_of_passed {entry : Json} (passed : entry.get? "passed" = some (.bool true)) :
    hideFailed entry = entry := by
  rw [hideFailed, passed]

theorem hideFailed_of_failed {entry : Json} (failed : entry.get? "passed" = some (.bool false)) :
    hideFailed entry = (entry.remove "avg_duration").remove "overhead_ratio" := by
  rw [hideFailed, failed]

/-! ## Edits of proper values -/

theorem proper_sorted {json : Json} (proper : Proper json) : Proper json.sorted := by
  induction proper with
  | null | bool | number | string => simp only [sorted]; constructor <;> assumption
  | array each hyp =>
    rw [sorted, sortedItems_eq_map]
    refine .array fun item member => ?_
    obtain ⟨item, among, rfl⟩ := List.mem_map.mp member
    exact hyp item among
  | object names values hyp =>
    rw [sorted, sortedFields_eq_map]
    refine .object (fun field member => ?_) fun field member => ?_
    all_goals
      obtain ⟨field, among, rfl⟩ := List.mem_map.mp ((List.mem_insertionSort _).mp member)
    · exact names field among
    · exact hyp field among

theorem proper_remove (name : String) {json : Json} (proper : Proper json) :
    Proper (json.remove name) := by
  cases proper with
  | object names values =>
    exact .object (fun field member => names field (List.mem_of_mem_filter member))
      fun field member => values field (List.mem_of_mem_filter member)
  | _ => constructor <;> assumption

theorem proper_edit {name : String} {change : Json → Json}
    (keeps : ∀ value, Proper value → Proper (change value)) {json : Json} (proper : Proper json) :
    Proper (json.edit name change) := by
  cases proper with
  | object names values =>
    refine .object (fun field member => ?_) fun field member => ?_
    all_goals
      obtain ⟨field, among, rfl⟩ := List.mem_map.mp member
      split
    · exact names field among
    · exact names field among
    · exact keeps _ (values field among)
    · exact values field among
  | _ => constructor <;> assumption

theorem proper_mapItems {change : Json → Json}
    (keeps : ∀ value, Proper value → Proper (change value)) {json : Json} (proper : Proper json) :
    Proper (json.mapItems change) := by
  cases proper with
  | array each =>
    refine .array fun item member => ?_
    obtain ⟨item, among, rfl⟩ := List.mem_map.mp member
    exact keeps item (each item among)
  | _ => constructor <;> assumption

theorem proper_hideFailed {entry : Json} (proper : Proper entry) : Proper (hideFailed entry) := by
  unfold hideFailed
  split
  · exact proper_remove _ (proper_remove _ proper)
  · exact proper

/-! ## What a value says -/

/-- Whether a value is an object with just the fields of some names, each once, in any order. -/
def HasNames (names : List String) (json : Json) : Prop :=
  ∃ fields, json = ofFields fields ∧ (fields.map Prod.fst).Perm names

/-- The number that digits stand for if they are all there is: no sign, no point, no exponent. -/
def whole? : Json → Option Nat
  | .number ⟨false, whole, [], none⟩ => some (Decimal.ofDigits whole)
  | _ => none

/-- What the first field of a name is read as. -/
theorem bind_get?_ofFields {α : Type} {read : Json → Option α} {fields : List (String × Json)}
    {name : String} {value : Json} {content : α}
    (first : (fields.find? fun field => field.1 == name) = some (name, value))
    (back : read value = some content) :
    ((ofFields fields).get? name).bind read = some content := by
  rw [get?_ofFields, first, Option.map_some, Option.bind_some, back]

theorem whole?_ofNat (number : Nat) : whole? (ofNat number) = some number :=
  congrArg some (Decimal.ofDigits_digits number)

end Json

open Json

/-! ## Shown records -/

theorem Failure.sorted_toJson (failure : Failure) :
    failure.toJson.sorted = Shown.failure failure := by
  rw [toJson, sorted_ofFields]
  simp +decide [sorted_ofText, Shown.failure]

theorem Duration.sorted_toJson (duration : Duration) :
    duration.toJson.sorted = Shown.duration duration := by
  rw [toJson, sorted_ofFields]
  simp +decide [sorted_ofNat, Shown.duration]

theorem Params.sorted_toJson (params : Params) : params.toJson.sorted = Shown.params params := by
  rw [toJson, sorted_ofFields]
  simp +decide [sorted_ofNat, Shown.params]

theorem sorted_failureField (failure : Option Failure) :
    (failureField Failure.toJson failure).map (fun field => (field.1, field.2.sorted)) =
      failureField Shown.failure failure := by
  cases failure with
  | none => rfl
  | some failure => simp [failureField, failure.sorted_toJson]

/-- The result as a value, all fields sorted by name. -/
def Result.everyField (result : Result) : List (String × Json) :=
  [("aad_size", .ofNat result.aadSize),
    ("avg_duration", Shown.duration result.averageDuration),
    ("encrypted_size", .ofNat result.encryptedSize)] ++
  failureField Shown.failure result.failure ++
  [("name", .ofText result.name),
    ("overhead_ratio", .ofOption Json.ofFloat result.overheadRatio),
    ("passed", .bool result.passed), ("plain_size", .ofNat result.plainSize)]

theorem Result.sorted_toJson (result : Result) :
    result.toJson.sorted = ofFields result.everyField := by
  rw [toJson, sorted_ofFields, List.map_append, sorted_failureField, everyField]
  -- The names are closed, so the comparisons that sort them are evaluated once it is known whether
  -- the name of a failure is among them.
  cases result.failure <;>
    simp +decide [failureField, unitsOf, sorted_ofText, sorted_ofNat, sorted_bool,
      sorted_ofOption_ofFloat, Duration.sorted_toJson]

/-- What is shown of a result is its sorted value without what a failed one hides. -/
theorem Result.hideFailed_sorted (result : Result) :
    hideFailed result.toJson.sorted = Shown.result result := by
  have field : (ofFields result.everyField).get? "passed" = some (.bool result.passed) := by
    rw [get?_ofFields, everyField]
    cases result.failure <;> rfl
  rw [sorted_toJson, Shown.result]
  cases passed : result.passed with
  | true =>
    rw [hideFailed_of_passed (by rw [field, passed]), everyField]
    simp [Shown.ifPassed, passed]
  | false =>
    rw [hideFailed_of_failed (by rw [field, passed]), remove_ofFields, remove_ofFields, everyField]
    simp only [Shown.ifPassed, passed]
    cases result.failure <;> rfl

/-- What is shown of a report is its sorted value with each entry of the results edited. -/
theorem Report.edit_sorted (report : Report) :
    report.toJson.sorted.edit "results" (mapItems hideFailed) = Shown.report report := by
  have entries : hideFailed ∘ sorted ∘ Result.toJson = Shown.result := by
    funext result
    rw [Function.comp_apply, Function.comp_apply, Result.hideFailed_sorted]
  rw [toJson, sorted_ofFields]
  simp +decide [edit_ofFields, Params.sorted_toJson, sorted, sortedItems_eq_map, mapItems, entries,
    Shown.report]

/-! ## What is shown says what is so -/

/-- Whether a value says just what a duration is: its seconds and the nanoseconds beyond them. -/
structure Duration.ShownAs (duration : Duration) (json : Json) : Prop where
  /-- Both are there and nothing else is. -/
  names : HasNames ["secs", "nanos"] json
  /-- The whole seconds. -/
  seconds : (json.get? "secs").bind whole? = some duration.seconds
  /-- The nanoseconds beyond them. -/
  nanos : (json.get? "nanos").bind whole? = some duration.nanos

/-- Whether a value says just what a failure is. -/
structure Failure.ShownAs (failure : Failure) (json : Json) : Prop where
  /-- Both parts are there and nothing else is. -/
  names : HasNames ["kind", "detail"] json
  /-- The code of the kind. -/
  kind : (json.get? "kind").bind string? = some failure.kind.code
  /-- The words. -/
  detail : (json.get? "detail").bind string? = some failure.detail

/-- Whether a value says just what the parameters are. -/
structure Params.ShownAs (params : Params) (json : Json) : Prop where
  /-- All three are there and nothing else is. -/
  names : HasNames ["payload_size", "aad_size", "iterations"] json
  /-- The plaintext length. -/
  payloadSize : (json.get? "payload_size").bind whole? = some params.payloadSize
  /-- The additional data length. -/
  aadSize : (json.get? "aad_size").bind whole? = some params.aadSize
  /-- The repetitions. -/
  iterations : (json.get? "iterations").bind whole? = some params.iterations

/-- Which value says what an overhead is: the number written for a finite float, null for any other
and for none. -/
inductive Result.ShowsRatio : Option Float → Json → Prop where
  | undefined : ShowsRatio none .null
  | notFinite {x : Float} (special : Decimal.isFinite x = false) : ShowsRatio (some x) .null
  | finite {x : Float} {negative : Bool} {mantissa : Nat} {exponent : Int}
    (parts : Decimal.Binary.ofFloat x = .finite negative mantissa exponent) :
    ShowsRatio (some x) (.number (.ofFinite negative mantissa exponent))

namespace Result

/-- The names of what is shown of a result. -/
def shownNames (result : Result) : List String :=
  ["name", "plain_size", "aad_size", "encrypted_size"] ++
    (if result.passed then ["overhead_ratio", "avg_duration"] else []) ++ ["passed"] ++
    (if result.failure.isSome then ["failure"] else [])

/-- Whether an entry says just what a result is, the overhead and the time if it passed. -/
structure ShownAs (result : Result) (entry : Json) : Prop where
  /-- What is shown is there and nothing else is. -/
  names : HasNames result.shownNames entry
  /-- The display name. -/
  name : (entry.get? "name").bind string? = some result.name
  /-- The plaintext length. -/
  plainSize : (entry.get? "plain_size").bind whole? = some result.plainSize
  /-- The additional data length. -/
  aadSize : (entry.get? "aad_size").bind whole? = some result.aadSize
  /-- The message length. -/
  encryptedSize : (entry.get? "encrypted_size").bind whole? = some result.encryptedSize
  /-- The verdict. -/
  passed : (entry.get? "passed").bind bool? = some result.passed
  /-- The overhead of a passed result. -/
  ratio : result.passed = true →
    ∃ value, entry.get? "overhead_ratio" = some value ∧ ShowsRatio result.overheadRatio value
  /-- The mean time of a passed result. -/
  duration : result.passed = true →
    ∃ value, entry.get? "avg_duration" = some value ∧ result.averageDuration.ShownAs value
  /-- The first failure, if there was one. -/
  failure : ∀ failure, result.failure = some failure →
    ∃ value, entry.get? "failure" = some value ∧ failure.ShownAs value

theorem showsRatio (ratio : Option Float) : ShowsRatio ratio (ofOption ofFloat ratio) := by
  cases ratio with
  | none => exact .undefined
  | some x =>
    rw [ofOption, ofFloat]
    cases parts : Decimal.Binary.ofFloat x with
    | finite => exact .finite parts
    | nan => exact .notFinite (by rw [Decimal.isFinite, parts]; rfl)
    | infinite negative =>
      refine .notFinite ?_
      rw [Decimal.isFinite, parts]
      cases negative <;> rfl

end Result

theorem Duration.shownAs (duration : Duration) : duration.ShownAs (Shown.duration duration) where
  names := ⟨_, rfl, .swap _ _ _⟩
  seconds := bind_get?_ofFields rfl (whole?_ofNat _)
  nanos := bind_get?_ofFields rfl (whole?_ofNat _)

theorem Failure.shownAs (failure : Failure) : failure.ShownAs (Shown.failure failure) where
  names := ⟨_, rfl, .swap _ _ _⟩
  kind := bind_get?_ofFields rfl (string?_ofText _)
  detail := bind_get?_ofFields rfl (string?_ofText _)

theorem Params.shownAs (params : Params) : params.ShownAs (Shown.params params) where
  names := ⟨_, rfl, List.isPerm_iff.mp rfl⟩
  payloadSize := bind_get?_ofFields rfl (whole?_ofNat _)
  aadSize := bind_get?_ofFields rfl (whole?_ofNat _)
  iterations := bind_get?_ofFields rfl (whole?_ofNat _)

/-- The fields that are shown of a result. -/
def Result.shownFields (result : Result) : List (String × Json) :=
  [("aad_size", .ofNat result.aadSize)] ++
    Shown.ifPassed result [("avg_duration", Shown.duration result.averageDuration)] ++
    [("encrypted_size", .ofNat result.encryptedSize)] ++
    failureField Shown.failure result.failure ++
    [("name", .ofText result.name)] ++
    Shown.ifPassed result [("overhead_ratio", .ofOption Json.ofFloat result.overheadRatio)] ++
    [("passed", .bool result.passed), ("plain_size", .ofNat result.plainSize)]

/-- The names of the fields that are shown of a result are those it is to show. -/
theorem Result.map_fst_shownFields (result : Result) :
    (result.shownFields.map Prod.fst).Perm result.shownNames := by
  simp only [shownNames, shownFields, Shown.ifPassed]
  cases result.passed <;> cases result.failure <;> exact List.isPerm_iff.mp rfl

theorem Result.shownNames_nodup (result : Result) : result.shownNames.Nodup := by
  rw [shownNames]
  cases result.passed <;> cases result.failure <;> simp +decide

theorem Result.shownAs (result : Result) : result.ShownAs (Shown.result result) := by
  have fields : Shown.result result = ofFields result.shownFields := rfl
  have distinct : (result.shownFields.map Prod.fst).Nodup :=
    result.map_fst_shownFields.nodup_iff.mpr result.shownNames_nodup
  have found {name : String} {value : Json} (member : (name, value) ∈ result.shownFields) :
      (Shown.result result).get? name = some value := by
    rw [fields, get?_ofFields, find?_of_mem distinct member, Option.map_some]
  have read {α : Type} {reader : Json → Option α} {name : String} {value : Json} {content : α}
      (member : (name, value) ∈ result.shownFields) (back : reader value = some content) :
      ((Shown.result result).get? name).bind reader = some content :=
    bind_get?_ofFields (find?_of_mem distinct member) back
  exact {
    names := ⟨_, fields, result.map_fst_shownFields⟩
    name := read (by simp [shownFields]) (string?_ofText _)
    plainSize := read (by simp [shownFields]) (whole?_ofNat _)
    aadSize := read (by simp [shownFields]) (whole?_ofNat _)
    encryptedSize := read (by simp [shownFields]) (whole?_ofNat _)
    passed := read (by simp [shownFields]) (rfl : bool? (.bool result.passed) = _)
    ratio := fun passed =>
      ⟨_, found (by simp [shownFields, Shown.ifPassed, passed]), showsRatio _⟩
    duration := fun passed =>
      ⟨_, found (by simp [shownFields, Shown.ifPassed, passed]), Duration.shownAs _⟩
    failure := fun failure failed =>
      ⟨_, found (by simp [shownFields, failureField, failed]), Failure.shownAs _⟩ }

/-! ## Shown reports -/

/-- The edits keep a value proper, so what is shown of a report is. -/
theorem Report.proper_shown (report : Report) : Proper (Shown.report report) := by
  rw [← report.edit_sorted]
  exact proper_edit (fun _ => proper_mapItems fun _ => proper_hideFailed)
    (proper_sorted report.proper_toJson)

/-- The object of the parameters and the entries. -/
def Report.shownObject (config : Json) (entries : List Json) : Json :=
  ofFields [("config", config), ("results", .array entries)]

/-- Whether the shown text of a report is JSON of the parameters and of one entry for each result,
in order, that say just what they are. -/
structure Report.ShownAs (report : Report) (config : Json) (entries : List Json) : Prop where
  /-- The text is one of those that write the object. -/
  written : Written (.element (shownObject config entries)) report.renderJson.toList
  /-- It is read back as the object. -/
  back : Json.read? report.renderJson.toList = some (shownObject config entries)
  /-- The object is the report's value, sorted, with each entry of the results edited. -/
  edited : shownObject config entries = report.toJson.sorted.edit "results" (mapItems hideFailed)
  /-- The parameters say what they are. -/
  params : report.params.ShownAs config
  /-- Each entry says what its result is. -/
  results : List.Forall₂ Result.ShownAs report.results entries

theorem Report.shownAs (report : Report) :
    report.ShownAs (Shown.params report.params) (report.results.map Shown.result) where
  written := by
    rw [renderJson, String.toList_ofList]
    exact (written_pretty report.proper_shown 0).bare
  back := by
    rw [renderJson, String.toList_ofList]
    exact read?_pretty report.proper_shown 0
  edited := report.edit_sorted.symm
  params := report.params.shownAs
  results := by
    rw [List.forall₂_map_right_iff, List.forall₂_same]
    exact fun result _ => result.shownAs

/-- Every report is shown as JSON of its parameters and of one entry for each result, and whatever
one result is replaced by, the other entries and the parameters are shown as they were. -/
theorem Report.renderJson_shows (report : Report) :
    ∃ config entries, report.ShownAs config entries ∧
      ∀ index result, ∃ entry,
        { report with results := report.results.set index result }.ShownAs config
          (entries.set index entry) := by
  refine ⟨_, _, report.shownAs, fun index result => ⟨Shown.result result, ?_⟩⟩
  rw [← List.map_set]
  exact shownAs _

end AesTrials
