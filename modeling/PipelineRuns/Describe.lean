import PipelineRuns.Cluster.Client
import PipelineRuns.CommandLine.Grammar
import PipelineRuns.Manifest
import PipelineRuns.Namespace
import PipelineRuns.Report.Render
import PipelineRuns.Shelf

/-!
# Describing a Repository

`Describe.run` fetches a Repository in the effective namespace and reports on it. The report is
written as a whole or not at all: everything that can fail happens before. A Repository that cannot
be fetched is reported as an error with exit code 1, any other failure goes on to the caller.

Where a Repository comes from is a `Source`: something to fetch by name and namespace and to close
when done. `Source.ofClient` asks a cluster, `Source.ofShelf` looks into a shelf. A source that the
command opened by itself is closed in every case; one that it was handed is left open.
-/

namespace PipelineRuns

/-- Where Repositories come from. -/
structure Source where
  fetch : (name ns : String) → Action Repository
  close : Action Unit := pure ()

namespace Source

/-- Repositories from a shelf. -/
def ofShelf (shelf : Shelf) : Source where
  fetch name ns := (shelf.fetch name ns : Except Failure Repository)

/-- Repositories from a cluster. -/
def ofClient (client : Client) (wire : Wire) : Source where
  fetch := client.fetch wire
  close := do
    let _ ← client.close

/-- Repositories from a manifest file; those without a namespace are in the one given. -/
def ofManifest (host : Host) (path : FilePath) (ns : String) : Action Source := do
  let repos ← Manifest.load host path
  return ofShelf (Shelf.ofList (repos.map (Manifest.placed ns)))

end Source

namespace Describe

/-- What the command is asked for. -/
structure Options where
  name : String
  ns : OptionValue := .absent
  file : OptionValue := .absent
  noColor : Bool := false
  deriving DecidableEq, Repr

/-- What a command leaves: an exit code and what it wrote to its two outputs. -/
structure Outcome where
  code : Nat
  out : String := ""
  err : String := ""
  deriving DecidableEq, Repr

/-- The style of a report: decorated only on a terminal, and only if nothing switches that off. -/
def selectStyle (env : Environment) (display : DisplaySettings) (noColor isTerminal : Bool) :
    Style :=
  if noColor || display.noColor || env.value "NO_COLOR" ≠ "" || !isTerminal then .plain
  else .ansi display.hyperlinks

/-- The report on a Repository of a source. -/
def report (source : Source) (now : Moment) (name ambient override : String) (style : Style) :
    Action String := do
  let ns := Namespace.effective ambient override
  note (.debug "tknpac.cli.describe" ("Describing repository " ++ name ++ " in namespace " ++ ns))
  let repo ← source.fetch name ns
  noteAll (Report.remarks repo)
  return Report.render repo now style

/-- Uses a source and closes it, whatever happens. -/
def useAndClose {α : Type} (opened : Action Source) (use : Source → Action α) : Action α := do
  let source ← opened
  let a ← tryCatch (use source) (fun f => do
    source.close
    throw f)
  source.close
  return a

/-- The source that the options and settings lead to. -/
def openSource (host : Host) (captured : Environment) (settings : Settings) (options : Options)
    (wire : Wire) (ambient : String) : Action Source :=
  match options.file with
  | .text path => Source.ofManifest host (FilePath.ofText path) ambient
  | .blank => throw .notMapping
  | .absent => do
    let client ← Client.ofSettings host captured settings
    return Source.ofClient client wire

/-- A report as an outcome, and a failed fetch as an error. -/
def outcome (a : Action String) : Action Outcome :=
  tryCatch (do return ⟨0, ← a, ""⟩) (fun f =>
    match f with
    | .fetch reason => return ⟨1, "", "Error: " ++ reason.message ++ "\n"⟩
    | f => throw f)

/-- The command with a source that it was handed. -/
def runWith (host : Host) (settings : Settings) (options : Options) (source : Source) (now : Moment)
    (isTerminal : Bool) : Action Outcome := do
  let ambient ← Namespace.current host settings.kube
  outcome (report source now options.name ambient options.ns.orEmpty
    (selectStyle host.environment settings.display options.noColor isTerminal))

/-- The command with a source that it opens by itself. -/
def run (host : Host) (captured : Environment) (settings : Settings) (options : Options)
    (wire : Wire) (now : Moment) (isTerminal : Bool) : Action Outcome := do
  let ambient ← Namespace.current host settings.kube
  outcome (useAndClose (openSource host captured settings options wire ambient) (fun source =>
    report source now options.name ambient options.ns.orEmpty
      (selectStyle host.environment settings.display options.noColor isTerminal)))

end Describe

end PipelineRuns
