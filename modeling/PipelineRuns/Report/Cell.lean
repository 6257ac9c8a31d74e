import PipelineRuns.Report.Elapsed
import PipelineRuns.Report.Style
import PipelineRuns.Run
import PipelineRuns.Text.Blank
import PipelineRuns.Text.Line

/-!
# The cells of a report

A `Cell` is a text with its decorated form. Whatever a field of a run holds, its cell is one line
that is not blank (`Cell.oneLine`): the first line of the trimmed field, tabs as spaces, cut to a
limit; and a dash where nothing is left.

`Cell.row` lists the eight cells of a run, in the order of `Cell.headings`.
-/

namespace PipelineRuns

/-- A text, by which widths are computed, and what is written for it. -/
structure Cell where
  text : String
  written : String
  deriving DecidableEq, Repr, Inhabited

namespace Cell

/-- What stands for an absent or blank text. -/
def dash : String := "-"

/-- The headings of the columns. -/
def headings : List String :=
  ["STATUS", "PIPELINERUN", "SHA", "TITLE", "BRANCH", "EVENT", "AGE", "DURATION"]

/-- The length to which a commit is cut. -/
def shaLength : Nat := 7

/-- The length to which a title is cut. -/
def titleLength : Nat := 50

/-- A tab as a space, any other character as itself. -/
def untab (c : Char) : Char :=
  if c = '\t' then ' ' else c

/-- A line cut to `limit` characters, the last three of which are dots where something was cut
off. -/
def shorten (limit : Option Nat) (line : List Char) : List Char :=
  match limit with
  | none => line
  | some n =>
    if n < line.length then Text.trimRight (line.take (n - 3)) ++ ['.', '.', '.'] else line

/-- The first line of a text that is not blank, cut to a limit. -/
def lineOf (limit : Option Nat) (s : List Char) : List Char :=
  shorten limit ((Text.firstLine (Text.trim s)).map untab)

/-- The one line that a field is shown as. -/
def oneLine (limit : Option Nat) : Option String → String
  | none => dash
  | some s => if Text.isBlankText s then dash else String.ofList (lineOf limit s.toList)

/-- A cell without decoration. -/
def plain (s : String) : Cell := ⟨s, s⟩

/-- A heading. -/
def heading (style : Style) (s : String) : Cell := ⟨s, style.bold s⟩

/-- The cell of a state: its sign and its name. -/
def status (style : Style) (s : DisplayState) : Cell :=
  let text := s.icon ++ " " ++ s.name
  ⟨text, style.state s text⟩

/-- The short form of a commit. -/
def shortSha (sha : Option String) : String :=
  let line := oneLine none sha
  if line = dash then dash else String.ofList (line.toList.take shaLength)

/-- The cell of a commit, a link where its address is known. -/
def commit (style : Style) (sha url : Option String) : Cell :=
  let short := shortSha sha
  ⟨short, if short = dash || url.getD "" = "" then short else style.link short (url.getD "")⟩

/-- The cells of a run. -/
def row (style : Style) (now : Moment) (run : Run) : List Cell :=
  [status style (DisplayState.classify run.reason),
    plain (oneLine none (some run.name)),
    commit style run.sha run.shaUrl,
    plain (oneLine (some titleLength) run.title),
    plain (oneLine none run.branch),
    plain (oneLine none run.event),
    plain (Elapsed.age run.start now),
    plain (Elapsed.duration run.start run.completion)]

end Cell

end PipelineRuns
