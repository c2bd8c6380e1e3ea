import AesTrials.Proofs.MaskedText
import AesTrials.Proofs.Printed

/-!
# Reports without measured times

Reports that are the same but for their times are alike in print. In JSON every field of a duration
has a line of its own. In a table a time must be within its column, or it would move the rest of its
row.
-/

namespace AesTrials

/-- Results that are the same but for their times differ in the time alone. -/
theorem Result.exists_of_untimed {result other : Result}
    (same : result.untimed = other.untimed) :
    ∃ elapsed, other = { result with averageDuration := elapsed } := by
  cases result
  cases other
  simp only [Result.untimed, Result.mk.injEq] at same
  obtain ⟨rfl, rfl, rfl, rfl, rfl, _, rfl, rfl⟩ := same
  exact ⟨_, rfl⟩

/-- The results of reports that are the same but for their times are so in pairs. -/
theorem Report.forall₂_of_untimed {report other : Report}
    (same : report.untimed = other.untimed) :
    List.Forall₂ (fun result other => Result.untimed result = Result.untimed other)
      report.results other.results := by
  rw [← List.forall₂_map_right_iff (R := fun result other => Result.untimed result = other),
    ← List.forall₂_map_left_iff (R := fun result other => result = other)]
  exact List.forall₂_eq_eq_eq ▸ same

namespace Json

/-- Whether two values stand for each other in print once times are hidden. -/
def Alike (value other : Json) : Prop :=
  ∀ level, Masking.Alike (value.pretty level) (other.pretty level)

/-- Whether two fields do. -/
def AlikeField (field other : List Nat × Json) : Prop :=
  field.1 = other.1 ∧ field.2.Alike other.2

namespace Alike

theorem refl (value : Json) : Alike value value := fun _ => .refl _

/-- Items that are alike are alike on lines of their own. -/
theorem items {items others : List Json} (alike : List.Forall₂ Alike items others) (level : Nat) :
    Masking.Alike (prettyItems level items) (prettyItems level others) := by
  induction alike with
  | nil => exact .refl _
  | cons first later ih =>
    cases later with
    | nil => simpa only [prettyItems] using first level
    | cons => exact (first level).append (.cons ',' ((Masking.Alike.refl _).append ih))

/-- Fields that are alike are alike on lines of their own. -/
theorem fields {fields others : List (List Nat × Json)}
    (alike : List.Forall₂ AlikeField fields others) (level : Nat) :
    Masking.Alike (prettyFields level fields) (prettyFields level others) := by
  induction alike with
  | nil => exact .refl _
  | @cons field other fields others first later ih =>
    obtain ⟨name, value⟩ := field
    obtain ⟨_, otherValue⟩ := other
    obtain ⟨rfl, same⟩ := first
    have value : Masking.Alike (value.pretty level) (otherValue.pretty level) := same level
    have named := Masking.Alike.refl (writeString name ++ [':', ' '])
    cases later with
    | nil => simpa [prettyFields] using named.append value
    | cons =>
      have later := (Masking.Alike.refl (',' :: newLine level)).append ih
      simpa [prettyFields] using named.append (value.append later)

/-- Arrays of items that are alike are alike. -/
theorem array {items others : List Json} (alike : List.Forall₂ Alike items others) :
    Alike (.array items) (.array others) := by
  intro level
  have inside := Alike.items alike (level + 1)
  cases alike with
  | nil => exact .refl _
  | cons =>
    exact .cons '[' ((Masking.Alike.refl _).append (inside.append (.refl _)))

/-- Objects of fields that are alike are alike. -/
theorem object {fields others : List (List Nat × Json)}
    (alike : List.Forall₂ AlikeField fields others) : Alike (.object fields) (.object others) := by
  intro level
  have inside := Alike.fields alike (level + 1)
  cases alike with
  | nil => exact .refl _
  | cons =>
    exact .cons '{' ((Masking.Alike.refl _).append (inside.append (.refl _)))

/-- Durations are alike. -/
theorem duration (duration other : Duration) :
    Alike (Shown.duration duration) (Shown.duration other) := by
  intro level
  have number (number : Nat) : (ofNat number).pretty (level + 1) = Decimal.write number := by
    simp [pretty, ofNat, Number.ofNat, Number.write, Decimal.sign, Decimal.point, writeExponent,
      Decimal.map_digitChar_digits]
  have nanos : writeString (unitsOf "nanos") ++ [':', ' '] = "\"nanos\": ".toList := by decide
  have seconds : writeString (unitsOf "secs") ++ [':', ' '] = "\"secs\": ".toList := by decide
  let field (name : String) (number : Nat) : List Char :=
    '\n' :: Masking.fieldLine (level + 1) name (Decimal.write number)
  have lines (duration : Duration) : (Shown.duration duration).pretty level =
      '{' :: (field "\"nanos\": " duration.nanos ++
        ',' :: (field "\"secs\": " duration.seconds ++ (newLine level ++ ['}']))) := by
    simp [Shown.duration, ofFields, pretty, prettyFields, number, newLine, field,
      Masking.fieldLine, ← nanos, ← seconds]
  rw [lines, lines]
  have first := Masking.alike_fieldLine (List.mem_pair.mpr (.inr rfl)) (level + 1) duration.nanos
    other.nanos
  have second := Masking.alike_fieldLine (List.mem_pair.mpr (.inl rfl)) (level + 1)
    duration.seconds other.seconds
  exact .cons '{' (first.append (.cons ',' (second.append (.refl _))))

/-- Results that are the same but for their times are alike. -/
theorem result {result other : Result} (same : result.untimed = other.untimed) :
    Alike (Shown.result result) (Shown.result other) := by
  obtain ⟨elapsed, rfl⟩ := Result.exists_of_untimed same
  apply Alike.object
  have rest (fields : List (List Nat × Json)) : List.Forall₂ AlikeField fields fields :=
    List.forall₂_same.mpr fun _ _ => ⟨rfl, .refl _⟩
  cases passed : result.passed with
  | false =>
    simp only [Shown.ifPassed, passed]
    exact rest _
  | true =>
    simp only [Shown.ifPassed, passed]
    exact .cons ⟨rfl, .refl _⟩ (.cons ⟨rfl, .duration _ _⟩ (rest _))

/-- Reports that are the same but for their times are alike. -/
theorem report {report other : Report} (params : report.params = other.params)
    (same : report.untimed = other.untimed) :
    Alike (Shown.report report) (Shown.report other) := by
  have results : List.Forall₂ Alike (report.results.map Shown.result)
      (other.results.map Shown.result) := by
    rw [List.forall₂_map_left_iff, List.forall₂_map_right_iff]
    exact (Report.forall₂_of_untimed same).imp fun _ _ => .result
  apply Alike.object
  rw [params]
  exact .cons ⟨rfl, .refl _⟩ (.cons ⟨rfl, .array results⟩ .nil)

end Alike

end Json

/-- Whether the printed time of a duration is that of a row, within its column. -/
def Duration.Legible (duration : Duration) : Prop :=
  let time := Decimal.writeFixed 4 duration.toMilliseconds
  Masking.isTime time.toList = true ∧ time.toList.length ≤ Masking.timeWidth

namespace Table

/-- Whether a name begins as those of variants do and is within its column. -/
structure NameFits (name : String) : Prop where
  /-- It begins with the name of the cipher. -/
  begins : ['A', 'E', 'S'].isPrefixOf name.toList = true
  /-- It is within its column. -/
  short : name.toList.length ≤ Masking.timeColumn
  /-- It is on one line. -/
  unbroken : '\n' ∉ name.toList

/-- The names of variants fit. -/
theorem nameFits_displayName (family : Family) (width : KeyWidth) :
    NameFits (family.displayName (some width)) := by
  constructor <;> cases family <;> cases width <;> decide

/-- The columns of a row up to its time. -/
def rowStart (name time : String) : List Char :=
  (Decimal.alignLeft Masking.timeColumn name ++ Decimal.alignRight Masking.timeWidth time).toList

theorem length_alignLeft {width : Nat} {text : String} (short : text.toList.length ≤ width) :
    (Decimal.alignLeft width text).toList.length = width := by
  simp only [Decimal.alignLeft, String.toList_append, String.toList_ofList, List.length_append,
    List.length_replicate]
  omega

theorem length_alignRight {width : Nat} {text : String} (short : text.toList.length ≤ width) :
    (Decimal.alignRight width text).toList.length = width := by
  simp only [Decimal.alignRight, String.toList_append, String.toList_ofList, List.length_append,
    List.length_replicate]
  omega

/-- The time of a row is hidden, and the row does not depend on it any more. -/
theorem hideLine_rowStart {name : String} {duration : Duration} (fits : NameFits name)
    (legible : duration.Legible) (rest : List Char) :
    Masking.hideLine
        (rowStart name (Decimal.writeFixed 4 duration.toMilliseconds) ++ rest) =
      (Decimal.alignLeft Masking.timeColumn name).toList ++
        List.replicate (Masking.timeWidth - 1) ' ' ++ 'T' :: rest := by
  obtain ⟨isTime, narrow⟩ := legible
  generalize Decimal.writeFixed 4 duration.toMilliseconds = time at isTime narrow ⊢
  obtain ⟨more, named⟩ := List.isPrefixOf_iff_prefix.mp fits.begins
  have begins : ['A', 'E', 'S'] <+: (Decimal.alignLeft Masking.timeColumn name).toList := by
    rw [Decimal.alignLeft, String.toList_append, ← named, List.append_assoc]
    exact List.prefix_append _ _
  have blank : ∀ c ∈ List.replicate (Masking.timeWidth - time.toList.length) ' ',
      Text.isBlank c = true := by
    intro c member
    rw [List.eq_of_mem_replicate member]
    rfl
  have shown : Text.trimStart (Decimal.alignRight Masking.timeWidth time).toList =
      time.toList := by
    rw [Decimal.alignRight, String.toList_append, String.toList_ofList, Text.trimStart,
      List.dropWhile_append_of_pos blank]
    exact (Masking.unbroken_of_isTime isTime).2
  rw [← shown] at isTime
  rw [rowStart, String.toList_append, List.append_assoc]
  exact Masking.hideLine_row begins (length_alignLeft fits.short) (length_alignRight narrow)
    isTime rest

/-- Rows are alike whatever times they have. -/
theorem alike_rowStart {name : String} {duration other : Duration} (fits : NameFits name)
    (legible : duration.Legible) (otherLegible : other.Legible) :
    Masking.Alike ('\n' :: rowStart name (Decimal.writeFixed 4 duration.toMilliseconds))
      ('\n' :: rowStart name (Decimal.writeFixed 4 other.toMilliseconds)) := by
  have unbroken {duration : Duration} (legible : duration.Legible) :
      ∀ c ∈ rowStart name (Decimal.writeFixed 4 duration.toMilliseconds), c ≠ '\n' := by
    have blank (count : Nat) : ∀ c ∈ List.replicate count ' ', c ≠ '\n' := by
      intro c member
      rw [List.eq_of_mem_replicate member]
      decide
    simp only [rowStart, Decimal.alignLeft, Decimal.alignRight, String.toList_append,
      String.toList_ofList, List.forall_mem_append]
    have named : ∀ c ∈ name.toList, c ≠ '\n' := fun _ member same => fits.unbroken (same ▸ member)
    exact ⟨⟨named, blank _⟩, blank _, (Masking.unbroken_of_isTime legible.1).1⟩
  refine .line (unbroken legible) (unbroken otherLegible) fun rest => ?_
  rw [hideLine_rowStart fits legible, hideLine_rowStart fits otherLegible]

/-- Blocks of results that are the same but for their times are alike up to the end of the line with
which both end. -/
theorem exists_alike_block {result other : Result} (same : result.untimed = other.untimed)
    (fits : NameFits result.name) (legible : result.averageDuration.Legible)
    (otherLegible : other.averageDuration.Legible) :
    ∃ start otherStart, (block result).toList = start ++ ['\n'] ∧
      (block other).toList = otherStart ++ ['\n'] ∧
      Masking.Alike ('\n' :: start) ('\n' :: otherStart) := by
  obtain ⟨elapsed, rfl⟩ := Result.exists_of_untimed same
  cases passed : result.passed with
  | true =>
    let sizes : String :=
      Decimal.alignRight 12 (Decimal.writeGrouped result.plainSize) ++
        Decimal.alignRight 8 (Decimal.writeGrouped result.aadSize) ++
        Decimal.alignRight 14 (Decimal.writeGrouped result.encryptedSize) ++
        Decimal.alignRight 11 (percent result.overheadRatio)
    have parts (time : String) :
        (line result.name time (Decimal.writeGrouped result.plainSize)
          (Decimal.writeGrouped result.aadSize) (Decimal.writeGrouped result.encryptedSize)
          (percent result.overheadRatio)).toList =
        rowStart result.name time ++ sizes.toList ++ ['\n'] := by
      simp [line, rowStart, sizes, Masking.timeColumn, Masking.timeWidth]
    simp only [block, passed, if_true, row, parts]
    exact ⟨_, _, rfl, rfl, (alike_rowStart fits legible otherLegible).append (.refl _)⟩
  | false =>
    have ends : (flag result).toList =
        ("\n>>> " ++ result.name ++ ": ERROR! " ++ detail result ++ " <<<\n").toList ++ ['\n'] := by
      simp [flag]
    simp only [block, passed]
    exact ⟨_, _, ends, ends, .refl _⟩

/-- Blocks of results that are the same but for their times are alike behind the end of a line. -/
theorem alike_blocks {results others : List Result}
    (same : List.Forall₂ (fun result other => Result.untimed result = Result.untimed other)
      results others)
    (fits : ∀ result ∈ results, NameFits result.name)
    (legible : ∀ result ∈ results ++ others, result.averageDuration.Legible) :
    Masking.Alike ('\n' :: (String.join (results.map block)).toList)
      ('\n' :: (String.join (others.map block)).toList) := by
  induction same with
  | nil => exact .refl _
  | @cons result other results others first later ih =>
    obtain ⟨resultFits, laterFit⟩ := List.forall_mem_cons.mp fits
    have among {each : Result} (listed : each ∈ results ++ others) :
        each ∈ result :: results ++ other :: others := by
      simp only [List.cons_append, List.mem_cons, List.mem_append] at listed ⊢
      tauto
    have behind := ih laterFit fun each listed => legible each (among listed)
    obtain ⟨start, otherStart, ends, otherEnds, front⟩ := exists_alike_block first resultFits
      (legible result (by simp)) (legible other (by simp))
    have whole := front.append behind
    simpa [String.join_cons, ends, otherEnds] using whole

/-- Tables of reports that are the same but for their times are alike. -/
theorem alike_renderReport {report other : Report} (params : report.params = other.params)
    (same : report.untimed = other.untimed)
    (fits : ∀ result ∈ report.results, NameFits result.name)
    (legible : ∀ result ∈ report.results ++ other.results, result.averageDuration.Legible) :
    Masking.Alike (renderReport report).toList (renderReport other).toList := by
  have blocks := alike_blocks (Report.forall₂_of_untimed same) fits legible
  have ends : titles.toList = titles.toList.dropLast ++ ['\n'] := by decide
  have cut (behind : List Char) :
      titles.toList ++ behind = titles.toList.dropLast ++ '\n' :: behind := by
    exact (congrArg (fun front => front ++ behind) ends).trans (List.append_assoc _ _ _)
  have parts (report : Report) : (renderReport report).toList =
      (header report.params ++ "\n\n").toList ++ titles.toList.dropLast ++
        ('\n' :: (String.join (report.results.map block)).toList) ++ legend.toList := by
    simp only [renderReport, render, String.toList_append, List.append_assoc, cut,
      List.cons_append]
  rw [parts, parts, params]
  exact ((Masking.Alike.refl _).append blocks).append (.refl _)

end Table

/-- Whether the means of what a clock says are legible in a table. -/
def Clock.Legible (clock : Clock) : Prop :=
  ∀ run count, ((clock run).average count).Legible

namespace Printed

/-- Whether the names in a part fit their column. -/
def NamesFit : Printed → Prop
  | .words _ => True
  | .findings report => ∀ result ∈ report.results, Table.NameFits result.name

/-- Times do not matter for names. -/
theorem namesFit_of_untimed {part : Printed} (fits : part.untimed.NamesFit) : part.NamesFit := by
  cases part with
  | words text => trivial
  | findings report =>
    intro result listed
    exact fits result.untimed (List.mem_map_of_mem listed)

/-- Parts that are the same but for their times are alike: in JSON always, and in a table where the
clocks can be read. -/
theorem alike_write {format : ReportFormat} {clock otherClock : Clock}
    (readable : format = .json ∨ clock.Legible ∧ otherClock.Legible) {part other : Printed}
    (same : part.untimed = other.untimed) (fits : part.NamesFit) (timed : part.TimedBy clock)
    (otherTimed : other.TimedBy otherClock) :
    Masking.Alike (part.write format).toList (other.write format).toList := by
  cases part with
  | words text =>
    cases other with
    | words other =>
      cases same
      exact .refl _
    | findings other => contradiction
  | findings report =>
    cases other with
    | words other => contradiction
    | findings other =>
      simp only [untimed, findings.injEq, Report.mk.injEq] at same
      obtain ⟨params, same⟩ := same
      cases format with
      | json =>
        have shown := Json.Alike.report params same 0
        simpa [write, Report.renderJson] using shown.append (.refl ['\n'])
      | table =>
        obtain ⟨legible, otherLegible⟩ : clock.Legible ∧ otherClock.Legible := by
          simpa using readable
        have times :
            ∀ result ∈ report.results ++ other.results, result.averageDuration.Legible := by
          refine List.forall_mem_append.mpr ⟨?_, ?_⟩
          · intro result listed
            obtain ⟨run, count, mean⟩ := timed result listed
            exact mean ▸ legible run count
          · intro result listed
            obtain ⟨run, count, mean⟩ := otherTimed result listed
            exact mean ▸ otherLegible run count
        have shown := Table.alike_renderReport params same fits times
        simpa [write] using shown.append (.refl ['\n'])

/-- What is printed of parts that are the same but for their times is alike. -/
theorem alike_writeAll {format : ReportFormat} {clock otherClock : Clock}
    (readable : format = .json ∨ clock.Legible ∧ otherClock.Legible) {parts others : List Printed}
    (same : parts.map untimed = others.map untimed) (fits : ∀ part ∈ parts, part.NamesFit)
    (timed : ∀ part ∈ parts, part.TimedBy clock)
    (otherTimed : ∀ part ∈ others, part.TimedBy otherClock) :
    Masking.Alike (writeAll format parts).toList (writeAll format others).toList := by
  induction parts generalizing others with
  | nil =>
    rw [List.map_eq_nil_iff.mp same.symm]
    exact .refl _
  | cons part parts ih =>
    cases others with
    | nil => contradiction
    | cons other others =>
      obtain ⟨first, later⟩ := List.cons.inj same
      obtain ⟨firstFits, laterFit⟩ := List.forall_mem_cons.mp fits
      obtain ⟨firstTimed, laterTimed⟩ := List.forall_mem_cons.mp timed
      obtain ⟨otherFirstTimed, otherLaterTimed⟩ := List.forall_mem_cons.mp otherTimed
      have front := alike_write readable first firstFits firstTimed otherFirstTimed
      have back := ih later laterFit laterTimed otherLaterTimed
      simpa [writeAll, String.join_cons] using front.append back

end Printed

/-- The names in the report that is expected of a task fit their column. -/
theorem Task.namesFit_expected (settings : Settings) (task : Task) :
    (Printed.findings (task.expected settings)).NamesFit := by
  intro result listed
  obtain ⟨entry, _, rfl⟩ := List.mem_map.mp listed
  exact Table.nameFits_displayName _ _

/-- The names in what an action shows fit their column. -/
theorem Action.namesFit_shown (settings : Settings) (action : Action) :
    ∀ part ∈ action.shown settings, part.NamesFit := by
  cases action with
  | print text => exact List.forall_mem_singleton.mpr trivial
  | changed params => exact nofun
  | suite params | sweep params =>
    exact List.forall_mem_singleton.mpr (Task.namesFit_expected settings _)

end AesTrials
