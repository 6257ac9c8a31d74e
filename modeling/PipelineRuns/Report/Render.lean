import PipelineRuns.Report.Cell
import PipelineRuns.Report.Order
import PipelineRuns.Repository

/-!
# The report on a Repository

`Report.render` is the whole text: three header lines, an empty line, and the table of runs, or a
sentence where there are none. It is a function of the Repository, the time and the style, and is
defined for all of them. In the table each column is as wide as the longest of its plain texts, two
spaces stand between columns, and no line ends in a blank.

`Report.remarks` notes the runs that completed before they started.
-/

namespace PipelineRuns.Report

/-- What is said of a Repository without runs. -/
def noRuns : String := "No runs recorded yet"

/-- What stands between columns. -/
def separator : String := "  "

/-- A text of `n` spaces. -/
def spaces (n : Nat) : String :=
  String.ofList (List.replicate n ' ')

/-- The greatest of a list of lengths. -/
def greatest (lengths : List Nat) : Nat :=
  lengths.foldr max 0

/-- The widths of the columns of a table: for each column the length of its longest plain text. -/
def widths (rows : List (List Cell)) : List Nat :=
  (List.range Cell.headings.length).map
    (fun i => greatest (rows.map (fun row => ((row[i]?).map (·.text.length)).getD 0)))

/-- The cells of a row as they are written, each but the last filled up to its column's width. -/
def padded : List Nat → List Cell → List String
  | _, [] => []
  | _, [last] => [last.written]
  | [], cell :: rest => cell.written :: padded [] rest
  | w :: ws, cell :: rest => (cell.written ++ spaces (w - cell.text.length)) :: padded ws rest

/-- One line of a table. -/
def line (ws : List Nat) (row : List Cell) : String :=
  Text.stripRight (String.intercalate separator (padded ws row))

/-- The lines of a table. -/
def table (rows : List (List Cell)) : List String :=
  rows.map (line (widths rows))

/-- The rows of the report: the headings, then the runs. -/
def rows (style : Style) (now : Moment) (runs : List Run) : List (List Cell) :=
  Cell.headings.map (Cell.heading style) :: (Run.display runs).map (Cell.row style now)

/-- The labels of the header and what they are followed by. -/
def fields (repo : Repository) : List (String × String) :=
  [("Name:", repo.name), ("Namespace:", repo.ns),
    ("URL:", if repo.url = "" then Cell.dash else repo.url)]

/-- The column in which the values of the header start. -/
def fieldColumn : Nat := "Namespace:".length + 1

/-- The lines of the header. -/
def header (style : Style) (repo : Repository) : List String :=
  (fields repo).map (fun f => style.bold f.1 ++ spaces (fieldColumn - f.1.length) ++ f.2)

/-- The lines of the report. -/
def lines (style : Style) (now : Moment) (repo : Repository) : List String :=
  header style repo ++ "" ::
    (if repo.runs.isEmpty then [noRuns] else table (rows style now repo.runs))

/-- The report on a Repository at a time. -/
def render (repo : Repository) (now : Moment) (style : Style) : String :=
  String.intercalate "\n" (lines style now repo) ++ "\n"

/-- Whether a run completed before it started. -/
def isReversed (run : Run) : Bool :=
  match run.start, run.completion with
  | some s, some c => c.before s
  | _, _ => false

/-- The notes on the runs of a report, in its order. -/
def remarks (repo : Repository) : List Record :=
  ((Run.display repo.runs).filter isReversed).map (fun run =>
    .debug "tknpac.report" ("Run " ++ run.name ++ " completed before it started, duration unknown"))

end PipelineRuns.Report
