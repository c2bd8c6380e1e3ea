import AesTrials.Proofs.Blocks

/-!
# Columns of a table

A row is read back by cutting it at its spaces. The name of a variant is always narrower than its
column, so the name and the time stand apart. Behind the time a text stands apart exactly if it is
narrower than its column; otherwise it runs into the text in front of it, and the two are read as
one. For the sizes that is a matter of how many digits they have.
-/

namespace AesTrials

/-! ## Fields of a line -/

namespace Text

/-- The parts of a line between its runs of spaces. -/
def fields (line : List Char) : List (List Char) :=
  (splitAt ' ' line).filter fun part => !part.isEmpty

variable {text : List Char}

/-- White space apart, a text has no space in it. -/
theorem Solid.ne_space (solid : Solid text) : ∀ c ∈ text, c ≠ ' ' := by
  rintro _ member rfl
  exact absurd (solid.visible _ member) (by decide)

/-- A line is cut at a space. -/
theorem fields_append_space (front back : List Char) :
    fields (front ++ ' ' :: back) = fields front ++ fields back := by
  rw [fields, splitAt_append, List.filter_append]
  rfl

/-- Spaces in front of a line make no fields. -/
theorem fields_replicate_append (count : Nat) (line : List Char) :
    fields (List.replicate count ' ' ++ line) = fields line := by
  induction count with
  | zero => rfl
  | succ count ih =>
    rw [List.replicate_succ, List.cons_append, ← List.nil_append (' ' :: _),
      fields_append_space, ih]
    rfl

/-- A text without spaces is one field. -/
theorem fields_of_solid (solid : Solid text) : fields text = [text] := by
  have whole := splitAt_unbroken_append solid.ne_space []
  have empty : splitAt ' ' [] = [[]] := rfl
  rw [List.append_nil, empty, List.headD_cons, List.append_nil, List.tail_cons] at whole
  have some : (!text.isEmpty) = true := by simpa using solid.some
  rw [fields, whole, List.filter_singleton, some]
  rfl

theorem Solid.append {behind : List Char} (solid : Solid text) (more : Solid behind) :
    Solid (text ++ behind) where
  some := List.append_ne_nil_of_left_ne_nil solid.some _
  visible := List.forall_mem_append.mpr ⟨solid.visible, more.visible⟩

end Text

namespace Table

open Decimal (alignLeft alignRight writeFixed writeGrouped)

/-- The fields that columns make behind a field that has been begun: a text that is narrower than
its column is a field of its own, any other runs into the field in front of it. -/
def fieldsFrom (begun : List Char) : List (Nat × String) → List (List Char)
  | [] => [begun]
  | (width, text) :: columns =>
    if text.toList.length < width then begun :: fieldsFrom text.toList columns
    else fieldsFrom (begun ++ text.toList) columns

/-- Aligned columns, one behind the other. -/
def aligned (columns : List (Nat × String)) : List Char :=
  columns.flatMap fun column => (alignRight column.1 column.2).toList

/-- Whether a text is narrower than its column. -/
def narrow (column : Nat × String) : Bool := column.2.toList.length < column.1

section FieldsFrom

variable {begun : List Char} {columns : List (Nat × String)}

/-- Aligned columns behind a text without spaces make these fields. -/
theorem fields_aligned (solid : Text.Solid begun)
    (texts : ∀ column ∈ columns, Text.Solid column.2.toList) :
    Text.fields (begun ++ aligned columns) = fieldsFrom begun columns := by
  induction columns generalizing begun with
  | nil =>
    have nothing : aligned [] = [] := rfl
    rw [nothing, List.append_nil]
    exact Text.fields_of_solid solid
  | cons column columns ih =>
    obtain ⟨width, text⟩ := column
    obtain ⟨first, later⟩ := List.forall_mem_cons.mp texts
    have parts : aligned ((width, text) :: columns) =
        List.replicate (width - text.toList.length) ' ' ++ (text.toList ++ aligned columns) := by
      simp only [aligned, List.flatMap_cons, alignRight, String.toList_append,
        String.toList_ofList, List.append_assoc]
    rw [parts, fieldsFrom]
    by_cases narrow : text.toList.length < width
    · obtain ⟨count, spaces⟩ : ∃ count, width - text.toList.length = count + 1 :=
        ⟨width - text.toList.length - 1, by omega⟩
      rw [if_pos narrow, spaces, List.replicate_succ, List.cons_append, Text.fields_append_space,
        Text.fields_replicate_append, Text.fields_of_solid solid, ih first later]
      rfl
    · have none : width - text.toList.length = 0 := by omega
      rw [if_neg narrow, none, List.replicate_zero, List.nil_append, ← List.append_assoc,
        ih (solid.append first) later]

/-- There is one field more for each text that is narrower than its column. -/
theorem length_fieldsFrom (begun : List Char) (columns : List (Nat × String)) :
    (fieldsFrom begun columns).length = 1 + columns.countP narrow := by
  induction columns generalizing begun with
  | nil => rfl
  | cons column columns ih =>
    obtain ⟨width, text⟩ := column
    rw [fieldsFrom, List.countP_cons]
    by_cases fits : text.toList.length < width
    · have counted : narrow (width, text) = true := decide_eq_true fits
      rw [if_pos fits, List.length_cons, ih, counted, if_pos rfl]
      omega
    · have counted : narrow (width, text) = false := decide_eq_false fits
      rw [if_neg fits, ih, counted, if_neg Bool.false_ne_true]
      omega

/-- Every text is a field of its own exactly if all are narrower than their columns. -/
theorem fieldsFrom_eq_iff :
    fieldsFrom begun columns = begun :: columns.map (fun column => column.2.toList) ↔
      ∀ column ∈ columns, narrow column = true := by
  constructor
  · intro apart
    have count := congrArg List.length apart
    rw [length_fieldsFrom, List.length_cons, List.length_map] at count
    exact List.countP_eq_length.mp (by omega)
  · intro all
    induction columns generalizing begun with
    | nil => rfl
    | cons column columns ih =>
      obtain ⟨width, text⟩ := column
      obtain ⟨first, later⟩ := List.forall_mem_cons.mp all
      rw [fieldsFrom, if_pos (of_decide_eq_true first), ih later]
      rfl

end FieldsFrom

end Table

/-! ## Widths of numbers -/

namespace Decimal

/-- Digits with commas are longer by one for every three digits behind the first. -/
theorem length_group {digits : List Char} (some : digits ≠ []) :
    (group digits).length = digits.length + (digits.length - 1) / 3 := by
  induction digits with
  | nil => contradiction
  | cons c rest ih =>
    rw [group_cons, List.length_cons, List.length_append, List.length_cons]
    by_cases alone : rest = []
    · subst alone
      rfl
    · have positive : 0 < rest.length := List.length_pos_iff.mpr alone
      have commas : (comma 1 rest).length = if rest.length % 3 = 0 then 1 else 0 := by
        simp only [comma, alone, Nat.one_pos, ne_eq, not_false_eq_true, true_and]
        split <;> rfl
      rw [ih alone, commas]
      split <;> omega

/-- A number in groups is as long as that many digits with their commas exactly if it is less than
the power of ten. -/
theorem length_writeGrouped_lt_iff (number : Nat) {count : Nat} (positive : 0 < count) :
    (writeGrouped number).toList.length < count + (count - 1) / 3 + 1 ↔ number < 10 ^ count := by
  have digits : (write number).length ≤ count ↔ number < 10 ^ count :=
    Nat.length_toDigits_le_iff (by decide) positive
  have some : 0 < (write number).length := List.length_pos_iff.mpr (write_ne_nil number)
  rw [← digits, writeGrouped, String.toList_ofList, length_group (write_ne_nil number)]
  omega

end Decimal

/-! ## Rows of a table -/

namespace Table

open Decimal (alignLeft alignRight writeFixed writeGrouped)

/-- Whether a name is that of a variant, keyed or not. -/
def IsVariantName (name : String) : Prop :=
  ∃ (family : Family) (width : Option KeyWidth), name = family.displayName width

/-- The name of a variant has no white space in it and is narrower than its column. -/
theorem IsVariantName.solid {name : String} (variant : IsVariantName name) :
    Text.Solid name.toList ∧ name.toList.length < 24 := by
  obtain ⟨family, width, rfl⟩ := variant
  have table : ∀ family ∈ Family.all, ∀ width ∈ [none, some .w128, some .w192, some .w256],
      Text.Solid (family.displayName width).toList ∧
      (family.displayName width).toList.length < 24 := by decide
  have listed : family ∈ Family.all := by cases family <;> decide
  have wide : width ∈ [none, some .w128, some .w192, some .w256] := by
    cases width with
    | none => decide
    | some width => cases width <;> decide
  exact table family listed width wide

/-- The time of a row. -/
def time (result : Result) : String := writeFixed 4 result.averageDuration.toMilliseconds

/-- The texts of a row behind its time, each with the width of its column. -/
def numbers (result : Result) : List (Nat × String) :=
  [(12, writeGrouped result.plainSize), (8, writeGrouped result.aadSize),
    (14, writeGrouped result.encryptedSize), (11, percent result.overheadRatio)]

/-- The six texts of a row. -/
def cells (result : Result) : List (List Char) :=
  result.name.toList :: (time result).toList ::
    (numbers result).map fun column => column.2.toList

/-- The row of a result without the end of its line. -/
def rowLine (result : Result) : List Char :=
  (alignLeft 24 result.name ++ columns result).toList

/-- The lines of the table of the results. -/
def lines (results : List Result) : List (List Char) :=
  Text.splitAt '\n' (renderInSteps results).toList

section Rows

variable {result : Result} {results : List Result}

/-- The fields of a row: the name is one, and another begins with the time. -/
theorem fields_rowLine (variant : IsVariantName result.name) :
    Text.fields (rowLine result) =
      result.name.toList :: fieldsFrom (time result).toList (numbers result) := by
  obtain ⟨solid, short⟩ := variant.solid
  have texts : ∀ column ∈ numbers result, Text.Solid column.2.toList := by
    simp only [numbers, List.forall_mem_cons]
    exact ⟨Decimal.solid_writeGrouped _, Decimal.solid_writeGrouped _,
      Decimal.solid_writeGrouped _, solid_percent _, nofun⟩
  have timed : Text.Solid (time result).toList := Decimal.solid_writeFixed 4 _
  obtain ⟨count, spaces⟩ : ∃ count, 24 - result.name.toList.length = count + 1 :=
    ⟨24 - result.name.toList.length - 1, by omega⟩
  have parts : rowLine result = result.name.toList ++ ' ' :: (List.replicate count ' ' ++
      (List.replicate (14 - (time result).toList.length) ' ' ++
        ((time result).toList ++ aligned (numbers result)))) := by
    simp only [rowLine, columns, aligned, numbers, time, alignLeft, alignRight,
      String.toList_append, String.toList_ofList, spaces, List.replicate_succ, List.flatMap_cons,
      List.flatMap_nil, List.append_assoc, List.cons_append, List.append_nil]
  rw [parts, Text.fields_append_space, Text.fields_replicate_append,
    Text.fields_replicate_append, Text.fields_of_solid solid,
    fields_aligned timed texts]
  rfl

/-- A row is on one line if its name is. -/
theorem not_lineFeed_rowLine (whole : '\n' ∉ result.name.toList) : '\n' ∉ rowLine result := by
  intro member
  rw [rowLine, alignLeft, String.toList_append, String.toList_append, String.toList_ofList,
    List.mem_append, List.mem_append] at member
  obtain (named | filled) | numbered := member
  · exact whole named
  · exact absurd (List.eq_of_mem_replicate filled) (by decide)
  · exact not_lineFeed_columns result numbered

/-- The lines of blocks of passed results are their rows, in front of those of what follows. -/
theorem splitAt_blocks (passed : ∀ result ∈ results, result.passed = true)
    (whole : ∀ result ∈ results, '\n' ∉ result.name.toList) (behind : List Char) :
    Text.splitAt '\n' ((String.join (results.map block)).toList ++ behind) =
      results.map rowLine ++ Text.splitAt '\n' behind := by
  induction results with
  | nil => rfl
  | cons result results ih =>
    obtain ⟨first, later⟩ := List.forall_mem_cons.mp passed
    obtain ⟨named, others⟩ := List.forall_mem_cons.mp whole
    have shown : (block result).toList = rowLine result ++ ['\n'] := by
      rw [block, if_pos first, row_eq, String.toList_append]
      rfl
    have unbroken : ∀ c ∈ rowLine result, c ≠ '\n' := by
      rintro _ member rfl
      exact not_lineFeed_rowLine named member
    have alone := Text.splitAt_unbroken_append unbroken []
    have empty : Text.splitAt '\n' [] = [[]] := rfl
    rw [List.append_nil, empty, List.headD_cons, List.append_nil, List.tail_cons] at alone
    rw [List.map_cons, String.join_cons, String.toList_append, shown, List.append_assoc,
      List.append_assoc, List.singleton_append, Text.splitAt_append, alone, ih later others]
    rfl

/-- The lines of a table of passed results: the titles, a row for each result, and the legend. -/
theorem lines_of_passed (passed : ∀ result ∈ results, result.passed = true)
    (whole : ∀ result ∈ results, '\n' ∉ result.name.toList) :
    lines results =
      titles.toList.dropLast :: (results.map rowLine ++ Text.splitAt '\n' legend.toList) := by
  have ends : titles.toList = titles.toList.dropLast ++ ['\n'] := by decide
  have first : Text.splitAt '\n' titles.toList.dropLast = [titles.toList.dropLast] := by decide
  have cut (behind : List Char) :
      Text.splitAt '\n' (titles.toList ++ behind) =
        titles.toList.dropLast :: Text.splitAt '\n' behind := by
    have line : titles.toList ++ behind = titles.toList.dropLast ++ '\n' :: behind :=
      (congrArg (fun front => front ++ behind) ends).trans (List.append_assoc _ _ _)
    rw [line, Text.splitAt_append, first]
    rfl
  rw [lines, renderInSteps_eq, render, String.toList_append, String.toList_append,
    List.append_assoc, cut, splitAt_blocks passed whole]

/-- Whether the numbers of a row leave a space in front of each of them. -/
structure Spaced (result : Result) : Prop where
  /-- The plaintext has nine digits at most. -/
  plainSize : result.plainSize < 10 ^ 9
  /-- The additional data have six digits at most. -/
  aadSize : result.aadSize < 10 ^ 6
  /-- The message has ten digits at most. -/
  encryptedSize : result.encryptedSize < 10 ^ 10
  /-- The overhead has ten characters at most, the sign for per cent included. -/
  overhead : (percent result.overheadRatio).toList.length ≤ 10

/-- That is the case exactly if each is narrower than its column. -/
theorem spaced_iff : Spaced result ↔ ∀ column ∈ numbers result, narrow column = true := by
  have plain := Decimal.length_writeGrouped_lt_iff result.plainSize (by decide : 0 < 9)
  have aad := Decimal.length_writeGrouped_lt_iff result.aadSize (by decide : 0 < 6)
  have encrypted := Decimal.length_writeGrouped_lt_iff result.encryptedSize (by decide : 0 < 10)
  simp only [numbers, List.forall_mem_cons, narrow, decide_eq_true_eq]
  constructor
  · rintro ⟨plainSize, aadSize, encryptedSize, overhead⟩
    exact ⟨plain.mpr plainSize, aad.mpr aadSize, encrypted.mpr encryptedSize, by omega, nofun⟩
  · rintro ⟨plainSize, aadSize, encryptedSize, overhead, _⟩
    exact ⟨plain.mp plainSize, aad.mp aadSize, encrypted.mp encryptedSize, by omega⟩

/-- The line of a result in a table of passed results that bear the names of variants, cut at its
runs of spaces: its name and its time begin a field each, and so does every number that is narrower
than its column; a wider one runs into the text in front of it. So the fields are the six texts of
the row exactly if the plaintext is shorter than 10⁹ bytes, the additional data are shorter than 10⁶
bytes, the message is shorter than 10¹⁰ bytes, and the overhead has ten characters at most. -/
theorem fields_line (passed : ∀ result ∈ results, result.passed = true)
    (named : ∀ result ∈ results, IsVariantName result.name) {position : Nat}
    (listed : results[position]? = some result) :
    ∃ line, (lines results)[position + 1]? = some line ∧
      Text.fields line = result.name.toList :: fieldsFrom (time result).toList (numbers result) ∧
      (Text.fields line).length = 2 + (numbers result).countP narrow ∧
      (Text.fields line = cells result ↔ Spaced result) := by
  have whole : ∀ result ∈ results, '\n' ∉ result.name.toList := by
    intro result among member
    exact absurd ((named result among).solid.1.visible _ member) (by decide)
  have variant : IsVariantName result.name := named result (List.mem_of_getElem? listed)
  have fields := fields_rowLine variant
  refine ⟨rowLine result, ?_, fields, ?_, ?_⟩
  · obtain ⟨inside, rfl⟩ := List.getElem?_eq_some_iff.mp listed
    rw [lines_of_passed passed whole, List.getElem?_cons_succ,
      List.getElem?_append_left (by rw [List.length_map]; exact inside), List.getElem?_map, listed]
    rfl
  · rw [fields, List.length_cons, length_fieldsFrom]
    omega
  · rw [fields, cells, List.cons.injEq, spaced_iff, ← fieldsFrom_eq_iff]
    exact and_iff_right rfl

end Rows

/-- A passed result with the largest plaintext that leaves a space. -/
def fitting : Result where
  name := "AES256-CBC-HMACSHA256"
  plainSize := 999999999
  aadSize := 0
  encryptedSize := 1000000048
  overheadRatio := some 0.0
  averageDuration := ⟨1500000⟩
  passed := true
  failure := none

/-- A passed result with a million bytes of additional data. -/
def million : Result where
  name := "AES128-GCM"
  plainSize := 16
  aadSize := 1000000
  encryptedSize := 1000044
  overheadRatio := some 0.0
  averageDuration := ⟨1500000⟩
  passed := true
  failure := none

/-- The first row has its six texts; in the second the sizes of plaintext and additional data are
read as one. -/
theorem fields_line_million :
    let results := [fitting, million]
    (∀ result ∈ results, result.passed = true) ∧
      (∀ result ∈ results, IsVariantName result.name) ∧
      results[0]? = some fitting ∧ results[1]? = some million ∧
      (∃ line, (lines results)[1]? = some line ∧ Text.fields line = cells fitting) ∧
      ∃ line, (lines results)[2]? = some line ∧ (Text.fields line).length = 5 := by
  intro results
  have passed : ∀ result ∈ results, result.passed = true := by
    intro result member
    obtain rfl | rfl := List.mem_pair.mp member <;> rfl
  have named : ∀ result ∈ results, IsVariantName result.name := by
    intro result member
    obtain rfl | rfl := List.mem_pair.mp member
    · exact ⟨.cbcHmac, some .w256, by decide⟩
    · exact ⟨.gcm, some .w128, by decide⟩
  have first : results[0]? = some fitting := rfl
  have second : results[1]? = some million := rfl
  obtain ⟨line, there, _, _, apart⟩ := fields_line passed named first
  obtain ⟨other, behind, _, count, _⟩ := fields_line passed named second
  have spaced : Spaced fitting := ⟨by decide, by decide, by decide, by decide +kernel⟩
  have narrows : (numbers million).countP narrow = 3 := by decide +kernel
  rw [narrows] at count
  exact ⟨passed, named, first, second, ⟨line, there, apart.mpr spaced⟩, other, behind, count⟩

/-- Not every row has its six texts: a million bytes of additional data run into the plaintext. -/
theorem not_fields_line_cells :
    ¬ ∀ (results : List Result) (result : Result) (position : Nat),
      (∀ result ∈ results, result.passed = true) →
      (∀ result ∈ results, IsVariantName result.name) → results[position]? = some result →
      ∃ line, (lines results)[position + 1]? = some line ∧ Text.fields line = cells result := by
  intro apart
  have passed : ∀ result ∈ [million], result.passed = true :=
    List.forall_mem_singleton.mpr rfl
  have variant : IsVariantName million.name := ⟨.gcm, some .w128, by decide⟩
  have named : ∀ result ∈ [million], IsVariantName result.name :=
    List.forall_mem_singleton.mpr variant
  have whole : ∀ result ∈ [million], '\n' ∉ result.name.toList :=
    List.forall_mem_singleton.mpr (by decide)
  obtain ⟨line, there, six⟩ := apart [million] million 0 passed named rfl
  rw [lines_of_passed passed whole] at there
  have row : line = rowLine million := (Option.some.inj there).symm
  have count := congrArg List.length six
  rw [row, fields_rowLine variant, List.length_cons, length_fieldsFrom] at count
  have narrows : (numbers million).countP narrow = 3 := by decide +kernel
  rw [narrows] at count
  contradiction

end Table

end AesTrials
