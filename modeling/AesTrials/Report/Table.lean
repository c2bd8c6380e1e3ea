import AesTrials.Decimal.Layout
import AesTrials.Report.Basic

/-!
# Reports as tables

The table is a line of titles, a block of text for each result, and a legend. The block of a passed
result is one row of aligned columns; the block of a failed result is a flagged line between blank
lines. Columns are at least as wide as in the titles and grow with their content.
-/

namespace AesTrials.Table

/-- The columns of one line, aligned. -/
def line (name time plain aad encrypted overhead : String) : String :=
  Decimal.alignLeft 24 name ++ Decimal.alignRight 14 time ++ Decimal.alignRight 12 plain ++
    Decimal.alignRight 8 aad ++ Decimal.alignRight 14 encrypted ++
    Decimal.alignRight 11 overhead ++ "\n"

/-- The line of titles. -/
def titles : String :=
  line "Name" "avg time (ms)" "plain(*)" "AAD(*)" "encrypted(*)" "overhead"

/-- A share in whole per cent. -/
def percent : Option Float → String
  | some ratio => Decimal.writeFixed 0 (ratio * 100.0) ++ "%"
  | none => "n/a"

/-- The row of a passed result. -/
def row (result : Result) : String :=
  line result.name (Decimal.writeFixed 4 result.averageDuration.toMilliseconds)
    (Decimal.writeGrouped result.plainSize) (Decimal.writeGrouped result.aadSize)
    (Decimal.writeGrouped result.encryptedSize) (percent result.overheadRatio)

/-- What is shown for a failed result: the words of its failure, or those of a mismatch. -/
def detail (result : Result) : String :=
  match result.failure with
  | some failure => failure.detail
  | none => mismatchDetail

/-- The flagged line of a failed result. -/
def flag (result : Result) : String :=
  "\n>>> " ++ result.name ++ ": ERROR! " ++ detail result ++ " <<<\n\n"

/-- The text of one result. -/
def block (result : Result) : String := if result.passed then row result else flag result

/-- What the marks in the titles mean. -/
def legend : String :=
  "\n(*) sizes in bytes. AAD travels in clear at the front of the encrypted message\n" ++
  "    and is counted in its size; overhead is relative to plain + AAD.\n"

/-- The table of the results. -/
def render (results : List Result) : String :=
  titles ++ String.join (results.map block) ++ legend

/-- The parameters in one line. -/
def header (params : Params) : String :=
  "Benchmark: encrypt=>decrypt " ++ Decimal.writeGrouped params.payloadSize ++ " bytes (+" ++
    Decimal.writeGrouped params.aadSize ++ " AAD) " ++
    Decimal.writeGrouped params.iterations ++ " times"

/-- The parameters, a blank line and the table. -/
def renderReport (report : Report) : String :=
  header report.params ++ "\n\n" ++ render report.results

end AesTrials.Table
