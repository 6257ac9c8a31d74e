import PipelineRuns.Failure
import PipelineRuns.Journal.Channel
import PipelineRuns.Journal.Format
import PipelineRuns.Settings.Basic
import PipelineRuns.Text.Blank

/-!
# What becomes of notes

The journal goes to the error output. `Handling` says which notes are written and how. The root has
a threshold, and any other channel may have one of its own, which also counts for the channels below
it that have none. A note that reaches the threshold of its channel is written by each outlet, in
the outlet's format; without an outlet the bare texts of warnings and errors are written. Where a
note cannot be put into a format, an error report takes the place of the line (`Handling.report`),
unless reports are switched off.

A setup (`Handling.setup`) removes all outlets, adds one, and sets the thresholds of the root and of
the channels of the network library. One with an invalid format fails before it adds the outlet.
-/

namespace PipelineRuns

/-- The severities that a setting can name. -/
def Severity.levels : List (String × Severity) :=
  [("DEBUG", .debug), ("INFO", .info), ("WARNING", .warning), ("ERROR", .error)]

/-- The severity that a setting names, in any case and with blanks around it; an unknown name means
`info`. -/
def Severity.ofSetting (level : String) : Severity :=
  (levels.lookup (Text.strip (Text.toUpper level))).getD .info

/-- A threshold that is none. -/
def Severity.unset : Severity := ⟨0⟩

/-- Which notes are written, and how. -/
structure Handling where
  /-- The threshold of the root. -/
  threshold : Severity := .debug
  /-- The thresholds of other channels. -/
  own : List (String × Severity) := []
  /-- The formats of the outlets. -/
  outlets : List String := []
  /-- What is shown as the time of a note. -/
  time : String := ""
  /-- Whether a note that cannot be put into a line is reported. -/
  reports : Bool := true
  deriving DecidableEq, Repr

namespace Handling

/-- The channels of the network library. -/
def noisyChannels : List String := ["urllib3"]

/-- The format where the settings name none. -/
def defaultFormat : String := "%(asctime)s - %(name)s - %(levelname)s - %(message)s"

/-- The format that settings ask for. -/
def formatOf (logging : LoggingSettings) : String :=
  if logging.format = "" then defaultFormat else logging.format

/-! ### Thresholds -/

/-- The threshold that a channel has of its own, if it is set. -/
def ownThreshold (h : Handling) (channel : String) : Severity :=
  (h.own.lookup channel).getD .unset

/-- Gives a channel a threshold of its own. -/
def setOwn (h : Handling) (channel : String) (s : Severity) : Handling :=
  { h with own := (channel, s) :: h.own.filter (fun e => e.1 ≠ channel) }

/-- The threshold of a channel: its own, else that of the nearest channel above it that has one,
else that of the root. -/
def thresholdOf (h : Handling) (channel : String) : Severity :=
  match (Channel.lineage channel).find? (fun c => h.ownThreshold c ≠ .unset) with
  | some c => h.ownThreshold c
  | none => h.threshold

/-- Whether a note is severe enough to be written. -/
def admits (h : Handling) (r : Record) : Bool :=
  (h.thresholdOf r.channel).rank ≤ r.severity.rank

/-! ### Writing -/

/-- A line with the further lines of a record below it. -/
def withTrace (line : String) (r : Record) : String :=
  match r.trace with
  | none => line
  | some t => (if line.toList.getLast? = some '\n' then line else line ++ "\n") ++ t

/-- The report of a note that cannot be put into a line: how that came about, the calls that led to
it, and the text and the details that were given. -/
def report (r : Record) : String :=
  "--- Logging error ---\n" ++ r.origin.trouble ++ "Call stack:\n" ++ r.origin.callers ++
    "Message: " ++ Text.quoted (r.origin.template.getD r.text) ++ "\nArguments: " ++
    r.origin.details ++ "\n"

/-- What is written for a note that makes a line, or makes none. -/
def writtenAs (h : Handling) (r : Record) : Option String → String
  | some line => withTrace line r ++ "\n"
  | none => if h.reports then report r else ""

/-- What an outlet with a format writes for a note. -/
def writtenBy (h : Handling) (r : Record) (format : String) : String :=
  h.writtenAs r (if r.origin.isGarbled then none else Format.line? format h.time r)

/-- What is written for a note that no outlet takes. -/
def lastResort (h : Handling) (r : Record) : String :=
  if Severity.warning.rank ≤ r.severity.rank then
    h.writtenAs r (if r.origin.isGarbled then none else some r.text)
  else ""

/-- What is written for a note. -/
def written (h : Handling) (r : Record) : String :=
  if h.admits r then
    if h.outlets.isEmpty then h.lastResort r else String.join (h.outlets.map (h.writtenBy r))
  else ""

/-- What is written for notes. -/
def writtenAll (h : Handling) (rs : List Record) : String :=
  String.join (rs.map h.written)

/-! ### Setups -/

/-- The handling with the one outlet and the threshold of the root that a setup asks for; without an
outlet where the format is invalid. -/
def direct (h : Handling) (threshold : Severity) (format : String) :
    Except Failure Unit × Handling :=
  let cleared := { h with outlets := [] }
  -- The outlets are removed first, so after an invalid format there are none.
  if Format.isValid format then
    (.ok (), { cleared with outlets := cleared.outlets ++ [format], threshold := threshold })
  else (.error .badValue, cleared)

/-- The handling after a setup, and the failure of one with an invalid format. -/
def setup (h : Handling) (logging : LoggingSettings) (verbose : Bool) :
    Except Failure Unit × Handling :=
  let threshold := if verbose then Severity.debug else Severity.ofSetting logging.level
  match h.direct threshold (formatOf logging) with
  | (.error f, h) => (.error f, h)
  | (.ok (), h) =>
    -- With all messages switched on, the network library loses the threshold of earlier setups.
    let quiet : Severity := if verbose then .unset else ⟨max threshold.rank Severity.warning.rank⟩
    (.ok (), noisyChannels.foldl (fun h channel => h.setOwn channel quiet) h)

end Handling

end PipelineRuns
