import PipelineRuns.CommandLine.Commands
import PipelineRuns.Journal.Handling

/-!
# The program

`Program.run` takes a command line and everything else that results can depend on (`Surroundings`)
to what the program leaves behind (`Program.Outcome`). It reads the global switches, loads the
settings, sets up the journal, and runs the command. The output of a command and its journal go to
different streams; the journal is written as the settings say.

A description never ends in a failure: what the command does not explain by itself becomes a note of
a fatal error and exit code 1, and an interruption becomes exit code 130. Failures before that, and
those of a generation that it does not explain, are the program's own (`Ending.failed`).
-/

namespace PipelineRuns

/-- What the results of the program can depend on besides its command line. -/
structure Surroundings where
  host : Host
  now : Moment
  /-- The current time as the journal shows it. -/
  time : String
  isTerminal : Bool := false
  /-- Whether the journal reports notes that cannot be put into a line. -/
  reports : Bool := true
  /-- The lines of the standard input. -/
  lines : List String := []
  git : GitReply := .missing
  wire : Wire

/-- How a failure that no command explains is told in the journal. -/
structure Wording where
  text : Failure → String := Failure.message
  trace : Failure → Option String := fun _ => none

/-- How the program ends. -/
inductive Ending where
  | code (n : Nat)
  /-- The command line ended it. -/
  | halted (n : Nat)
  | failed (f : Failure)
  deriving DecidableEq, Repr

namespace Ending

/-- The exit code. -/
def exitCode : Ending → Nat
  | code n | halted n => n
  | failed _ => 1

end Ending

namespace Program

/-- What the program leaves behind. -/
structure Outcome where
  ending : Ending
  out : String := ""
  err : String := ""
  requests : List Request := []
  files : FileTree

/-- The program ends before it did anything. -/
def untouched (s : Surroundings) (ending : Ending) (out err : String) : Outcome where
  ending := ending
  out := out
  err := err
  files := s.host.files

/-- The end that a command line leads to. -/
def ofHalt (s : Surroundings) (h : CommandLine.Halt) : Outcome :=
  untouched s (.halted h.code) h.out h.err

/-- The note of a fatal error. -/
def fatal (w : Wording) (f : Failure) : Record :=
  { severity := .error, channel := "tknpac.describe", text := "Fatal error: " ++ w.text f,
    trace := w.trace f }

/-- The result of a description, with the note of a fatal error if there was one. -/
def describeResult (w : Wording) : Except Failure Describe.Outcome → Describe.Outcome × List Record
  | .ok o => (o, [])
  | .error .interrupted => (⟨130, "", ""⟩, [])
  | .error f => (⟨1, "", ""⟩, [fatal w f])

/-- Runs a description with settings and a journal that is set up. -/
def runDescribe (w : Wording) (s : Surroundings) (captured : Environment) (settings : Settings)
    (journal : Handling) (options : Describe.Options) : Outcome :=
  let (r, effects) :=
    (Describe.run s.host captured settings options s.wire s.now s.isTerminal).execute
  -- The note of a fatal error is the last one, behind those of the description.
  let (o, notes) := describeResult w r
  { ending := .code o.code
    out := o.out
    err := journal.writtenAll (effects.journal ++ notes) ++ o.err
    requests := effects.requests
    files := s.host.files }

/-- Runs a generation with a journal that is set up. -/
def runGenerate (s : Surroundings) (journal : Handling) (options : Generate.Options) : Outcome :=
  let start : Workplace (List String) := { files := s.host.files, prompter := s.lines }
  let directory : FilePath := ⟨"/", s.host.files.here⟩
  let (r, place) :=
    StateT.run (ExceptT.run (Generate.run Prompter.console s.git directory options)) start
  let written := journal.writtenAll place.effects.journal
  -- The journal is written before the text of the error.
  let (ending, err) := match r with
    | .ok o => (Ending.code o.code, written ++ o.err)
    | .error f => (Ending.failed f, written)
  { ending := ending, out := place.out, err := err, files := place.files }

/-- Runs a command with settings and a journal that is set up. -/
def runCommand (w : Wording) (s : Surroundings) (captured : Environment) (settings : Settings)
    (journal : Handling) (i : Invocation) : Outcome :=
  match i.command with
  | .describe =>
    match Describe.Options.parse i.rest with
    | .error h => ofHalt s h
    | .ok options => runDescribe w s captured settings journal options
  | .generate =>
    match Generate.Options.parse i.rest with
    | .error h => ofHalt s h
    | .ok options => runGenerate s journal options

/-- Runs the program. -/
def run (w : Wording) (s : Surroundings) (arguments : List String) : Outcome :=
  match Invocation.parse arguments with
  | .error h => ofHalt s h
  | .ok i =>
    -- There is no journal yet, so a failure of the load or of the setup is the program's own.
    let loaded := Settings.load s.host i.configPath
    match loaded.settings with
    | .error f => untouched s (.failed f) "" ""
    | .ok settings =>
      match Handling.setup { time := s.time, reports := s.reports } settings.logging i.verbose with
      | (.error f, _) => untouched s (.failed f) "" ""
      | (.ok (), journal) => runCommand w s loaded.captured settings journal i

end Program

end PipelineRuns
