import AesTrials.Proofs.JsonText
import AesTrials.Report.Reader

/-!
# Printed JSON

Both printers write a text of every proper value, so what is printed, on one line or indented, is
read back. The values of texts, whole numbers, floats and fields are proper, and what stands for
them is found in the value again.
-/

namespace AesTrials.Json

/-! ## What the printers write -/

/-- A value whose numbers are proper and whose strings hold code points and surrogates only. -/
inductive Proper : Json → Prop where
  | null : Proper .null
  | bool (value : Bool) : Proper (.bool value)
  | number {number : Number} (proper : number.Proper) : Proper (.number number)
  | string {units : List Nat} (small : ∀ unit ∈ units, unit < unitLimit) : Proper (.string units)
  | array {items : List Json} (each : ∀ item ∈ items, Proper item) : Proper (.array items)
  | object {fields : List (List Nat × Json)}
    (names : ∀ field ∈ fields, ∀ unit ∈ field.1, unit < unitLimit)
    (values : ∀ field ∈ fields, Proper field.2) : Proper (.object fields)

theorem gap_nil : Gap [] := by simp [Gap]

theorem gap_newLine (level : Nat) : Gap (newLine level) := by
  intro c member
  obtain rfl | ⟨_, rfl⟩ := by simpa [newLine] using member
  all_goals decide

/-- A value alone is an element without space. -/
theorem Written.bare {json : Json} {text : List Char} (inside : Written (.value json) text) :
    Written (.element json) text := by
  simpa using Written.element ⟨gap_nil, gap_nil⟩ inside

theorem written_compactItems {item : Json} {items : List Json}
    (each : ∀ value ∈ item :: items, Written (.value value) (compact value)) :
    Written (.elements (item :: items)) (compactItems (item :: items)) := by
  induction items generalizing item with
  | nil => exact .lastItem (each item (by simp)).bare
  | cons next items hyp =>
    obtain ⟨first, later⟩ := List.forall_mem_cons.mp each
    exact .nextItem first.bare (hyp later)

theorem written_compactFields {field : List Nat × Json} {fields : List (List Nat × Json)}
    (names : ∀ entry ∈ field :: fields, ∀ unit ∈ entry.1, unit < unitLimit)
    (values : ∀ entry ∈ field :: fields, Written (.value entry.2) (compact entry.2)) :
    Written (.members (field :: fields)) (compactFields (field :: fields)) := by
  induction fields generalizing field with
  | nil =>
    exact .lastField (names field (by simp)) ⟨gap_nil, gap_nil⟩ (values field (by simp)).bare
  | cons next fields hyp =>
    obtain ⟨name, otherNames⟩ := List.forall_mem_cons.mp names
    obtain ⟨value, otherValues⟩ := List.forall_mem_cons.mp values
    exact .nextField name ⟨gap_nil, gap_nil⟩ value.bare (hyp otherNames otherValues)

/-- The line of a proper value writes it. -/
theorem written_compact {json : Json} (proper : Proper json) :
    Written (.value json) (compact json) := by
  induction proper with
  | null => exact .null
  | bool value => exact .bool value
  | number proper => exact .number proper
  | string small => exact .string small
  | array each hyp =>
    rename_i items
    cases items with
    | nil => exact .emptyArray gap_nil
    | cons item items => exact .array (written_compactItems hyp)
  | object names values hyp =>
    rename_i fields
    cases fields with
    | nil => exact .emptyObject gap_nil
    | cons field fields => exact .object (written_compactFields names hyp)

/-- A proper value is read back from its line. -/
theorem read?_compact {json : Json} (proper : Proper json) : read? (compact json) = some json :=
  read?_of_written (written_compact proper).bare

theorem written_prettyItems {level : Nat} {item : Json} {items : List Json}
    {before behind : List Char} (space : Gap before ∧ Gap behind)
    (each : ∀ value ∈ item :: items, Written (.value value) (pretty level value)) :
    Written (.elements (item :: items))
      (before ++ (prettyItems level (item :: items) ++ behind)) := by
  induction items generalizing item before with
  | nil => exact .lastItem (.element space (each item (by simp)))
  | cons next items hyp =>
    obtain ⟨first, later⟩ := List.forall_mem_cons.mp each
    have element := Written.element ⟨space.1, gap_nil⟩ first
    have more := hyp ⟨gap_newLine level, space.2⟩ later
    simpa [prettyItems] using Written.nextItem element more

theorem written_prettyFields {level : Nat} {field : List Nat × Json}
    {fields : List (List Nat × Json)} {before behind : List Char} (space : Gap before ∧ Gap behind)
    (names : ∀ entry ∈ field :: fields, ∀ unit ∈ entry.1, unit < unitLimit)
    (values : ∀ entry ∈ field :: fields, Written (.value entry.2) (pretty level entry.2)) :
    Written (.members (field :: fields))
      (before ++ (prettyFields level (field :: fields) ++ behind)) := by
  have one : Gap [' '] := by simp [Gap, isSpace]
  induction fields generalizing field before with
  | nil =>
    have element := Written.element ⟨one, space.2⟩ (values field (by simp))
    simpa [prettyFields] using Written.lastField (names field (by simp)) ⟨space.1, gap_nil⟩ element
  | cons next fields hyp =>
    obtain ⟨name, otherNames⟩ := List.forall_mem_cons.mp names
    obtain ⟨value, otherValues⟩ := List.forall_mem_cons.mp values
    have element := Written.element ⟨one, gap_nil⟩ value
    have more := hyp ⟨gap_newLine level, space.2⟩ otherNames otherValues
    simpa [prettyFields] using Written.nextField name ⟨space.1, gap_nil⟩ element more

/-- The lines of a proper value write it, at every level. -/
theorem written_pretty {json : Json} (proper : Proper json) (level : Nat) :
    Written (.value json) (pretty level json) := by
  induction proper generalizing level with
  | null => exact .null
  | bool value => exact .bool value
  | number proper => exact .number proper
  | string small => exact .string small
  | array each hyp =>
    rename_i items
    cases items with
    | nil => exact .emptyArray gap_nil
    | cons item items =>
      have inside := written_prettyItems ⟨gap_newLine (level + 1), gap_newLine level⟩
        fun value member => hyp value member (level + 1)
      simpa [pretty] using Written.array inside
  | object names values hyp =>
    rename_i fields
    cases fields with
    | nil => exact .emptyObject gap_nil
    | cons field fields =>
      have inside := written_prettyFields ⟨gap_newLine (level + 1), gap_newLine level⟩ names
        fun entry member => hyp entry member (level + 1)
      simpa [pretty] using Written.object inside

/-- A proper value is read back from its lines. -/
theorem read?_pretty {json : Json} (proper : Proper json) (level : Nat) :
    read? (pretty level json) = some json :=
  read?_of_written (written_pretty proper level).bare

/-! ## Values of texts, numbers and fields -/

/-- The units of a text are its code points, none of them half a surrogate pair. -/
theorem isValidChar_of_mem_unitsOf {text : String} {unit : Nat} (h : unit ∈ unitsOf text) :
    unit.isValidChar := by
  obtain ⟨c, _, rfl⟩ := List.mem_map.mp h
  exact c.valid

theorem unitsOf_lt (text : String) : ∀ unit ∈ unitsOf text, unit < unitLimit := by
  intro unit member
  have valid := isValidChar_of_mem_unitsOf member
  simp only [Nat.isValidChar, unitLimit] at valid ⊢
  omega

theorem codePointsOnto_valid {units : List Nat} (valid : ∀ unit ∈ units, unit.isValidChar)
    (found : List Nat) : codePointsOnto found units = some (found.reverse ++ units) := by
  induction units generalizing found with
  | nil => simp [codePointsOnto]
  | cons unit units hyp =>
    obtain ⟨first, later⟩ := List.forall_mem_cons.mp valid
    simp only [Nat.isValidChar] at first
    rw [codePointsOnto.eq_def]
    simp only
    rw [if_neg (by omega), if_neg (by omega), hyp later]
    simp

/-- A text is what its units stand for. -/
theorem text?_unitsOf (text : String) : text? (unitsOf text) = some text := by
  have valid : ∀ unit ∈ unitsOf text, unit.isValidChar := fun _ => isValidChar_of_mem_unitsOf
  rw [text?, codePoints?, codePointsOnto_valid valid]
  simp [unitsOf, Function.comp_def]

theorem proper_ofText (text : String) : Proper (ofText text) := .string (unitsOf_lt text)

theorem proper_ofNat (number : Nat) : Proper (ofNat number) := .number (Number.ofNat_proper number)

theorem proper_ofFloat (x : Float) : Proper (ofFloat x) := by
  unfold ofFloat
  split
  · exact .number (Number.ofFinite_proper _ _ _)
  · exact .null

theorem proper_ofFields {fields : List (String × Json)}
    (values : ∀ field ∈ fields, Proper field.2) : Proper (ofFields fields) := by
  refine .object ?_ ?_
  · intro field member
    obtain ⟨entry, _, rfl⟩ := List.mem_map.mp member
    exact unitsOf_lt entry.1
  · intro field member
    obtain ⟨entry, among, rfl⟩ := List.mem_map.mp member
    exact values entry among

theorem string?_ofText (text : String) : string? (ofText text) = some text := text?_unitsOf text

theorem nat?_ofNat {number : Nat} (h : number < Number.wholeLimit) :
    nat? (ofNat number) = some number :=
  Number.toNat?_ofNat h

/-- The fields of an object are found again under their names. -/
theorem record?_ofFields (closed : Bool) (names : List String) (fields : List (String × Json)) :
    (ofFields fields).record? closed names =
      if closed && fields.any (fun field => !names.contains field.1) then none
      else names.mapM (field? fields) := by
  have named : namedFields? (fields.map fun field => (unitsOf field.1, field.2)) = some fields := by
    have each (field : String × Json) :
        (text? (unitsOf field.1)).map (fun name => (name, field.2)) = some field := by
      simp [text?_unitsOf]
    simp only [namedFields?, List.mapM_map, Function.comp_def, each]
    exact (List.mapM_pure (f := id)).trans (congrArg some (List.map_id fields))
  simp [record?, ofFields, named]

end AesTrials.Json
