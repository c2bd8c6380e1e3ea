import AesTrials.Proofs.Grouping
import AesTrials.Proofs.InputLines
import AesTrials.Report.Table
import AesTrials.Text.Blank

/-!
# Blocks of a table

What a table shows of a result depends on that result alone. Written result by result into one text,
the table is the line of titles, the block of each result in its order, and the legend; so a result
more in between leaves every other block as it was. The numbers of a row have no white space in
them, so the row is one line if its name is on one.
-/

namespace AesTrials

/-! ## Texts without white space -/

/-- Whether a text is not empty and has no white space in it. -/
structure Text.Solid (text : List Char) : Prop where
  /-- It is not empty. -/
  some : text ≠ []
  /-- No character of it is white space. -/
  visible : ∀ c ∈ text, Text.isBlank c = false

/-- A text has no white space if none of its characters is found to be. -/
theorem Text.solid_iff (text : List Char) :
    Text.Solid text ↔ text ≠ [] ∧ text.all (fun c => !Text.isBlank c) = true := by
  simp only [List.all_eq_true, Bool.not_eq_true']
  exact ⟨fun solid => ⟨solid.some, solid.visible⟩, fun found => ⟨found.1, found.2⟩⟩

instance (text : List Char) : Decidable (Text.Solid text) :=
  decidable_of_iff _ (Text.solid_iff text).symm

namespace Decimal

/-- A digit is no white space. -/
theorem isBlank_digitChar : ∀ digit < 10, Text.isBlank (digitChar digit) = false := by decide

/-- At least one digit is placed in front of the point. -/
theorem place_ne_nil (number : Scientific) : (place number).1 ≠ [] := by
  obtain ⟨value, exponent⟩ := number
  cases exponent with
  | ofNat zeros => exact List.append_ne_nil_of_left_ne_nil (digits_ne_nil value) _
  | negSucc n =>
    have count : 0 < (List.replicate (n + 1 + 1 - (digits value).length) 0 ++
        digits value).length - (n + 1) := by
      rw [List.length_append, List.length_replicate]
      omega
    apply List.ne_nil_of_length_pos
    simp only [place, List.length_take]
    omega

/-- Placed digits have no white space between them. -/
theorem solid_point_place (number : Scientific) : Text.Solid (point (place number)) := by
  have visible {digits : List Nat} (small : ∀ digit ∈ digits, digit < 10) :
      ∀ c ∈ digits.map digitChar, Text.isBlank c = false := by
    intro c member
    obtain ⟨digit, among, rfl⟩ := List.mem_map.mp member
    exact isBlank_digitChar digit (small digit among)
  have some := place_ne_nil number
  obtain ⟨whole, behind⟩ := place_lt number
  generalize place number = parts at some whole behind
  obtain ⟨front, back⟩ := parts
  cases back with
  | nil =>
    constructor
    · exact fun nothing => some (List.map_eq_nil_iff.mp nothing)
    · exact visible whole
  | cons digit more =>
    constructor
    · exact List.append_ne_nil_of_right_ne_nil _ (List.cons_ne_nil _ _)
    · refine List.forall_mem_append.mpr ⟨visible whole, ?_⟩
      exact List.forall_mem_cons.mpr ⟨by decide, visible behind⟩

/-- A float with a fixed number of places has no white space in it. -/
theorem solid_writeFixed (places : Nat) (x : Float) : Text.Solid (writeFixed places x).toList := by
  cases kind : Binary.ofFloat x with
  | nan =>
    have word : writeFixed places x = "NaN" := by simp only [writeFixed, kind]; rfl
    rw [word]
    decide
  | infinite negative =>
    have word : writeFixed places x = if negative then "-inf" else "inf" := by
      simp only [writeFixed, kind]
      cases negative <;> rfl
    rw [word]
    cases negative <;> decide
  | finite negative mantissa exponent =>
    simp only [writeFixed, kind, String.toList_ofList]
    obtain ⟨some, visible⟩ := solid_point_place
      ⟨roundHalfEven ((fraction mantissa exponent).1 * Nat.pow 10 places)
        (fraction mantissa exponent).2, -(places : Int)⟩
    constructor
    · exact List.append_ne_nil_of_right_ne_nil _ some
    · refine List.forall_mem_append.mpr ⟨?_, visible⟩
      cases negative with
      | false => exact nofun
      | true => exact List.forall_mem_singleton.mpr (by decide)

/-- A number in groups has no white space in it. -/
theorem solid_writeGrouped (number : Nat) : Text.Solid (writeGrouped number).toList := by
  rw [writeGrouped, String.toList_ofList]
  constructor
  · obtain ⟨c, rest, shape⟩ := List.exists_cons_of_ne_nil (write_ne_nil number)
    rw [shape, group_cons]
    exact List.cons_ne_nil _ _
  · intro c member
    by_cases mark : c = ','
    · rw [mark]
      decide
    · -- Without the commas the digits are left, and a digit can be seen.
      have among : c ∈ write number := by
        rw [← filter_group (comma_notMem_write number)]
        exact List.mem_filter.mpr ⟨member, by simpa using mark⟩
      obtain ⟨digit, small, rfl⟩ := mem_write among
      exact isBlank_digitChar digit small

end Decimal

namespace Table

open Decimal (alignLeft alignRight writeFixed writeGrouped)

/-- A share has no white space in it. -/
theorem solid_percent (ratio : Option Float) : Text.Solid (percent ratio).toList := by
  cases ratio with
  | none => decide
  | some x =>
    obtain ⟨some, visible⟩ := Decimal.solid_writeFixed 0 (x * 100.0)
    have sign : Text.Solid "%".toList := by decide
    rw [percent, String.toList_append]
    constructor
    · exact List.append_ne_nil_of_left_ne_nil some _
    · exact List.forall_mem_append.mpr ⟨visible, sign.visible⟩

/-! ## One text for all results -/

/-- What has been written once the next result is behind it. -/
def pushResult (written : String) (result : Result) : String :=
  if result.passed then
    written ++ line result.name (writeFixed 4 result.averageDuration.toMilliseconds)
      (writeGrouped result.plainSize) (writeGrouped result.aadSize)
      (writeGrouped result.encryptedSize) (percent result.overheadRatio)
  else
    let detail := (result.failure.map Failure.detail).getD mismatchDetail
    written ++ ("\n>>> " ++ result.name ++ ": ERROR! " ++ detail ++ " <<<\n\n")

/-- The table, written result by result into one text that begins with the titles. -/
def renderInSteps (results : List Result) : String :=
  results.foldl pushResult titles ++ legend

/-- A result adds its block, whatever has been written so far. -/
theorem pushResult_eq (written : String) (result : Result) :
    pushResult written result = written ++ block result := by
  rw [pushResult, block]
  cases result.passed with
  | true => rfl
  | false =>
    have words : (result.failure.map Failure.detail).getD mismatchDetail = detail result := by
      rw [detail]
      cases result.failure <;> rfl
    simp only [Bool.false_eq_true, if_false, words, flag]

/-- Results add their blocks, whatever has been written so far. -/
theorem foldl_pushResult (results : List Result) (written : String) :
    results.foldl pushResult written = written ++ String.join (results.map block) := by
  induction results generalizing written with
  | nil => exact (String.append_empty).symm
  | cons result results ih =>
    rw [List.foldl_cons, ih, pushResult_eq, List.map_cons, String.join_cons, String.append_assoc]

/-- Written into one text, the table is the same. -/
theorem renderInSteps_eq (results : List Result) : renderInSteps results = render results := by
  rw [renderInSteps, foldl_pushResult, render]

/-! ## The block of a result -/

/-- The columns of a row behind its name. -/
def columns (result : Result) : String :=
  alignRight 14 (writeFixed 4 result.averageDuration.toMilliseconds) ++
    alignRight 12 (writeGrouped result.plainSize) ++
    alignRight 8 (writeGrouped result.aadSize) ++
    alignRight 14 (writeGrouped result.encryptedSize) ++
    alignRight 11 (percent result.overheadRatio)

/-- A row is its name, its other columns and the end of its line. -/
theorem row_eq (result : Result) :
    row result = alignLeft 24 result.name ++ columns result ++ "\n" := by
  simp only [row, line, columns, String.append_assoc]

/-- A text without white space is aligned on the line that it is on. -/
theorem not_lineFeed_alignRight (width : Nat) {text : String} (solid : Text.Solid text.toList) :
    '\n' ∉ (alignRight width text).toList := by
  intro member
  rw [alignRight, String.toList_append, String.toList_ofList, List.mem_append] at member
  obtain filled | inside := member
  · exact absurd (List.eq_of_mem_replicate filled) (by decide)
  · exact absurd (solid.visible _ inside) (by decide)

/-- The columns behind the name are on one line. -/
theorem not_lineFeed_columns (result : Result) : '\n' ∉ (columns result).toList := by
  have time := not_lineFeed_alignRight 14
    (Decimal.solid_writeFixed 4 result.averageDuration.toMilliseconds)
  have plain := not_lineFeed_alignRight 12 (Decimal.solid_writeGrouped result.plainSize)
  have aad := not_lineFeed_alignRight 8 (Decimal.solid_writeGrouped result.aadSize)
  have encrypted := not_lineFeed_alignRight 14 (Decimal.solid_writeGrouped result.encryptedSize)
  have overhead := not_lineFeed_alignRight 11 (solid_percent result.overheadRatio)
  simp only [columns, String.toList_append, List.mem_append, not_or]
  exact ⟨⟨⟨⟨time, plain⟩, aad⟩, encrypted⟩, overhead⟩

/-- Whether a text is the block of a result: if it passed, its name and behind it the columns of its
numbers, which no line end breaks, up to the end of the line; otherwise its name and the words of
its failure, or those of a mismatch if it has none, flagged on a line between blank lines. -/
def IsBlock (result : Result) (text : String) : Prop :=
  if result.passed then
    text = alignLeft 24 result.name ++ columns result ++ "\n" ∧ '\n' ∉ (columns result).toList
  else
    text = "\n>>> " ++ result.name ++ ": ERROR! " ++
      (result.failure.map Failure.detail).getD mismatchDetail ++ " <<<\n\n"

/-- Every result has its block. -/
theorem isBlock_block (result : Result) : IsBlock result (block result) := by
  have pushed := pushResult_eq "" result
  rw [String.empty_append] at pushed
  rw [IsBlock, ← pushed, pushResult]
  cases result.passed with
  | true =>
    refine ⟨?_, not_lineFeed_columns result⟩
    rw [← row_eq, if_pos rfl, String.empty_append]
    rfl
  | false =>
    rw [if_neg Bool.false_ne_true, if_neg Bool.false_ne_true, String.empty_append]

/-- The table is the titles, a block for each result in its order, and the legend, and a block
depends on its result alone. So a result more in between adds the bytes of its block there, and the
bytes of the other blocks, before and behind, stay as they were. -/
theorem render_blocks (results before after : List Result) (result : Result) :
    IsBlock result (block result) ∧
      renderInSteps results = titles ++ String.join (results.map block) ++ legend ∧
      render results = renderInSteps results ∧
      ∃ front back : Bytes,
        front = Bytes.ofText (titles ++ String.join (before.map block)) ∧
        back = Bytes.ofText (String.join (after.map block) ++ legend) ∧
        Bytes.ofText (renderInSteps (before ++ after)) = front ++ back ∧
        Bytes.ofText (renderInSteps (before ++ result :: after)) =
          front ++ Bytes.ofText (block result) ++ back := by
  refine ⟨isBlock_block result, renderInSteps_eq results, (renderInSteps_eq results).symm,
    _, _, rfl, rfl, ?_, ?_⟩
  · rw [renderInSteps_eq, render, List.map_append, String.join_append, ← Bytes.ofText_append]
    simp only [String.append_assoc]
  · rw [renderInSteps_eq, render, List.map_append, List.map_cons, String.join_append,
      String.join_cons, ← Bytes.ofText_append, ← Bytes.ofText_append]
    simp only [String.append_assoc]

end Table

end AesTrials
