import PipelineRuns.CommandLine.Parse
import PipelineRuns.Describe
import PipelineRuns.Generate

/-!
# The commands

The program has global switches, which may stand anywhere, and two commands, each with arguments of
its own. A command line is read in two steps: `Invocation.parse` takes the global switches out and
finds the command; what is left over are the arguments of the command, which
`Describe.Options.parse` and `Generate.Options.parse` read.
-/

namespace PipelineRuns

open CommandLine

/-- The switch that every command has. -/
def CommandLine.helpSwitch : Switch :=
  ⟨["-h", "--help"], .help, "show this help message and exit"⟩

/-- A command. -/
inductive Command where
  | describe
  | generate
  deriving DecidableEq, Repr

namespace Command

/-- The name of a command. -/
def name : Command → String
  | describe => "describe"
  | generate => "generate"

/-- The words that name a command. -/
def words : List (String × Command) :=
  [("describe", describe), ("desc", describe), ("generate", generate), ("gen", generate)]

/-- The command that a word names. -/
def ofWord? (word : String) : Option Command := words.lookup word

end Command

/-- A command line without its global switches. -/
structure Invocation where
  config : OptionValue
  verbose : Bool
  command : Command
  rest : List String
  deriving DecidableEq, Repr

namespace Invocation

/-- The grammar of the global switches. -/
def grammar : Grammar where
  program := "tknpac"
  version := "0.1.0"
  about := "tknpac - describe Pipelines-as-Code repositories or generate a starter PipelineRun"
  synopsis := some "[--config PATH] [--verbose] \x7bdescribe,generate\x7d ..."
  shortens := false
  switches := [
    helpSwitch,
    ⟨["--config", "-c"], .value "CONFIG" [], "Path to YAML config file"⟩,
    ⟨["--verbose", "-v"], .flag, "Debug logging on stderr"⟩,
    ⟨["--version"], .version, "show program's version number and exit"⟩]

/-- The command that the arguments left over begin with, and its own arguments. -/
def commandOf : List String → Except UsageFault (Command × List String)
  | [] => .error .noCommand
  | word :: rest =>
    if word.toList.head? = some '-' then .error (.switchBeforeCommand word)
    else
      match Command.ofWord? word with
      | none => .error (.unknownCommand word)
      | some c => .ok (c, rest)

/-- Reads a command line. -/
def parse (arguments : List String) : Except Halt Invocation :=
  match grammar.parseKnown arguments with
  | .error h => .error h
  | .ok f =>
    match commandOf f.extras with
    | .error fault => .error (.ofFault grammar fault)
    | .ok (command, rest) => .ok ⟨f.value "--config", f.has "--verbose", command, rest⟩

/-- The file of the settings: the one given, or the default one. -/
def configPath (i : Invocation) : FilePath :=
  match i.config with
  | .text path => FilePath.ofText path
  | _ => Settings.defaultPath

end Invocation

namespace Describe.Options

/-- The grammar of the arguments. -/
def grammar : Grammar where
  program := "tknpac describe"
  about := "Describe a Repository and the PipelineRuns it recorded"
  word := some ("name", "Repository name")
  switches := [
    helpSwitch,
    ⟨["--namespace", "-n"], .value "NAMESPACE" [],
      "Namespace of the Repository (default: current context namespace)"⟩,
    ⟨["--filename", "-f"], .value "FILENAME" [],
      "Read Repository manifests from a YAML file instead of the cluster"⟩,
    ⟨["--no-color"], .flag, "Disable colors and hyperlinks"⟩]

/-- Reads the arguments. -/
def parse (arguments : List String) : Except Halt Describe.Options :=
  (grammar.parse arguments).map (fun f =>
    ⟨f.word.getD "", f.value "--namespace", f.value "--filename", f.has "--no-color"⟩)

end Describe.Options

namespace Generate.Options

/-- The grammar of the arguments. -/
def grammar : Grammar where
  program := "tknpac generate"
  about := "Generate a basic PipelineRun in the .tekton directory"
  switches := [
    helpSwitch,
    ⟨["--event-type"], .value "EVENT_TYPE" (Starter.events.map (·.1)),
      "Git event triggering the pipeline (asked when omitted)"⟩,
    ⟨["--branch"], .value "BRANCH" [],
      "Target branch or tag (asked when omitted, default " ++ Starter.mainBranch ++ ")"⟩,
    ⟨["--yes", "-y"], .flag,
      "Answer yes to every confirmation, including overwriting an existing file"⟩]

/-- Reads the arguments. -/
def parse (arguments : List String) : Except Halt Generate.Options :=
  (grammar.parse arguments).map
    (fun f => ⟨f.value "--event-type", f.value "--branch", f.has "--yes"⟩)

end Generate.Options

end PipelineRuns
