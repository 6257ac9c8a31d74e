/-!
# The journal

While it works, the program notes what it does and what it skips. A note is a `Record`: how severe
it is, which part of the program wrote it (its channel) and a text. `Severity` is a rank on an open
scale; four of its values have names that settings use. Where and when a note was written is its
`Origin`, which also holds what is shown of the note where it cannot be put into a line.
-/

namespace PipelineRuns

/-- How severe a note is; a greater rank is more severe. -/
structure Severity where
  rank : Int
  deriving DecidableEq, Repr, Inhabited

namespace Severity

/-- Of use only when looking for a mistake. -/
def debug : Severity := ⟨10⟩

/-- A normal course of events. -/
def info : Severity := ⟨20⟩

/-- Something was skipped or replaced. -/
def warning : Severity := ⟨30⟩

/-- Something failed. -/
def error : Severity := ⟨40⟩

/-- The program cannot go on. -/
def critical : Severity := ⟨50⟩

/-- The severities with a name, by rank. -/
def named : List (Severity × String) :=
  [(⟨0⟩, "NOTSET"), (debug, "DEBUG"), (info, "INFO"), (warning, "WARNING"), (error, "ERROR"),
    (critical, "CRITICAL")]

/-- The name of a severity, or its rank where it has none. -/
def name (s : Severity) : String :=
  match named.find? (fun e => e.1 = s) with
  | some e => e.2
  | none => "Level " ++ toString s.rank

end Severity

/-- Where, when and by what a note was written. -/
structure Origin where
  /-- The source text: its path, its file, and the file without its ending. -/
  path : String := ""
  file : String := ""
  unit : String := ""
  function : String := ""
  line : Int := 0
  /-- The seconds since 1970-01-01, the full milliseconds of the last of them, and the milliseconds
  since the journal began; all three are floating point numbers. -/
  created : Rat := 0
  millis : Rat := 0
  sinceBegin : Rat := 0
  process : Int := 0
  processName : String := "MainProcess"
  thread : Int := 0
  threadName : String := "MainThread"
  /-- The text before details were put into it, where that is another one. -/
  template : Option String := none
  /-- How the details, the failure, its text and the calls are shown that belong to the note. -/
  details : String := "()"
  failure : String := "None"
  failureText : String := "None"
  calls : String := "None"
  /-- How all properties of the note are shown together. -/
  whole : String := "\x7b\x7d"
  /-- Whether the details cannot be put into the template, so that there is no text. -/
  isGarbled : Bool := false
  /-- What is shown where the note cannot be put into a line: how that came about, and the calls
  that led to it. -/
  trouble : String := ""
  callers : String := ""
  deriving DecidableEq, Repr, Inhabited

/-- One note. -/
structure Record where
  severity : Severity
  channel : String
  text : String
  /-- Further lines on how a failure came about, put below the note. -/
  trace : Option String := none
  origin : Origin := {}
  deriving DecidableEq, Repr, Inhabited

/-- A note of severity `debug`. -/
def Record.debug (channel text : String) : Record where
  severity := .debug
  channel := channel
  text := text

/-- A note of severity `warning`. -/
def Record.warning (channel text : String) : Record where
  severity := .warning
  channel := channel
  text := text

end PipelineRuns
