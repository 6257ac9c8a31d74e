/-!
# Grammars of command lines

A command line is a list of arguments. A `Grammar` says which of them are switches, that is,
arguments with a name that begins with a dash: what each does (`Role`), and whether a word is
required besides them.

* `Grammar.named?` finds a switch by one of its names;
* `OptionValue` is what a command line tells about a switch that takes a value;
* `UsageFault` lists what can be wrong with a command line, and `Halt` is a command line that ends
  the program at once, with an exit code and the texts that it writes.
-/

namespace PipelineRuns

/-- What a command line tells about a switch that takes a value. -/
inductive OptionValue where
  | absent
  /-- The switch is there, with the separator `--` in place of its value. -/
  | blank
  | text (value : String)
  deriving DecidableEq, Repr, Inhabited

namespace OptionValue

/-- The value, where there is one. -/
def text? : OptionValue → Option String
  | text v => some v
  | _ => none

/-- The value, or an empty text. -/
def orEmpty (v : OptionValue) : String :=
  v.text?.getD ""

end OptionValue

namespace CommandLine

/-- What a switch does. -/
inductive Role where
  | help
  | version
  | flag
  /-- Takes a value, which the usage calls `label`; it is one of the `choices`, unless there are
  none. -/
  | value (label : String) (choices : List String)
  deriving DecidableEq, Repr

/-- An argument with names that begin with a dash. -/
structure Switch where
  names : List String
  role : Role
  about : String
  deriving DecidableEq, Repr

namespace Switch

/-- The name that stands for the switch. -/
def key (s : Switch) : String := s.names.headD ""

/-- All names of a switch, as errors show them. -/
def shown (s : Switch) : String := String.intercalate "/" s.names

/-- Whether a switch takes a value. -/
def takesValue (s : Switch) : Bool :=
  match s.role with
  | .value _ _ => true
  | _ => false

end Switch

/-- What the arguments of a command can be. -/
structure Grammar where
  program : String
  version : String := ""
  about : String
  /-- The arguments in the usage, where they are not those of the grammar. -/
  synopsis : Option String := none
  switches : List Switch
  /-- The name of the word that is required, and what it is. -/
  word : Option (String × String) := none
  /-- Whether a long name can be cut short. -/
  shortens : Bool := true
  deriving DecidableEq, Repr

/-- The switch with a name. -/
def Grammar.named? (g : Grammar) (name : String) : Option Switch :=
  g.switches.find? (fun s => s.names.contains name)

/-- What is wrong with a command line. -/
inductive UsageFault where
  | ambiguous (argument : String) (candidates : List String)
  | needsValue (s : Switch)
  | takesNoValue (s : Switch) (value : String)
  | badChoice (s : Switch) (value : String) (choices : List String)
  | missing (word : String)
  | unrecognized (arguments : List String)
  | noCommand
  | switchBeforeCommand (argument : String)
  | unknownCommand (word : String)
  deriving DecidableEq, Repr

/-- The end of the program that a command line leads to. -/
structure Halt where
  code : Nat
  out : String := ""
  err : String := ""
  deriving DecidableEq, Repr

end CommandLine

end PipelineRuns
