import PipelineRuns.CommandLine.Grammar
import PipelineRuns.Text.Line
import PipelineRuns.Text.Quoted

/-!
# Usage and help

`Grammar.usage` shows how a command is called, `Grammar.help` explains its arguments besides. Texts
are laid out in lines of at most 78 columns: `fillLines` puts as many words on a line as fit.
Explanations stand in a column of their own, below a name that reaches into it.

`UsageFault.message` is the text of a fault, and `Halt.ofFault` the end of the program that it leads
to.
-/

namespace PipelineRuns.CommandLine

/-- The columns of a line. -/
def lineWidth : Nat := 78

/-- The column in which explanations start. -/
def aboutColumn : Nat := 24

/-- Blanks. -/
def blanks (n : Nat) : String :=
  String.ofList (List.replicate n ' ')

/-- The lines that words fill after a line that was begun; a further line begins with `indent`. -/
def fillLines (width : Nat) (indent : String) : String → List String → List String
  | line, [] => [line]
  | line, w :: rest =>
    if line.length + 1 + w.length ≤ width then fillLines width indent (line ++ " " ++ w) rest
    else line :: fillLines width indent (indent ++ w) rest

/-- The lines of at most `width` columns that the words of a text fill. -/
def wrap (width : Nat) (text : String) : List String :=
  match Text.split ' ' text with
  | [] => []
  | w :: rest => fillLines width "" w rest

/-- A list of choices. -/
def choicesText (choices : List String) : String :=
  "\x7b" ++ String.intercalate "," choices ++ "\x7d"

/-- The text that stands for the value of a switch; none where it takes none. -/
def Role.valueText : Role → Option String
  | .value _ (c :: cs) => some (choicesText (c :: cs))
  | .value label [] => some label
  | _ => none

/-- A name of a switch with what follows it. -/
def Switch.called (s : Switch) (name : String) : String :=
  match s.role.valueText with
  | some v => name ++ " " ++ v
  | none => name

/-- A switch in the usage. -/
def Switch.inUsage (s : Switch) : String :=
  "[" ++ s.called s.key ++ "]"

namespace Grammar

/-- What a usage starts with. -/
def usageStart (g : Grammar) : String :=
  "usage: " ++ g.program

/-- The lines of the usage. -/
def usageLines (g : Grammar) : List String :=
  match g.synopsis with
  | some s => [g.usageStart ++ " " ++ s]
  | none =>
    let indent := blanks (g.usageStart.length + 1)
    fillLines lineWidth indent g.usageStart (g.switches.map Switch.inUsage) ++
      (match g.word with
        | some w => [indent ++ w.1]
        | none => [])

/-- The usage. -/
def usage (g : Grammar) : String :=
  String.join (g.usageLines.map (· ++ "\n"))

end Grammar

/-- A name and its explanation. -/
def explained (name about : String) : List String :=
  let lines := wrap (lineWidth - aboutColumn) about
  let below := fun (l : String) => blanks aboutColumn ++ l
  if name.length + 4 ≤ aboutColumn then
    match lines with
    | [] => ["  " ++ name]
    | first :: rest =>
      ("  " ++ name ++ blanks (aboutColumn - 2 - name.length) ++ first) :: rest.map below
  else ("  " ++ name) :: lines.map below

namespace Grammar

/-- The explanation of the word that is required. -/
def wordHelp (g : Grammar) : List String :=
  match g.word with
  | some w => "positional arguments:" :: explained w.1 w.2 ++ [""]
  | none => []

/-- The explanations of the switches. -/
def switchHelp (g : Grammar) : List String :=
  "options:" :: g.switches.flatMap (fun s =>
    explained (String.intercalate ", " (s.names.map s.called)) s.about)

/-- The help. -/
def help (g : Grammar) : String :=
  String.join ((g.usageLines ++ [""] ++ wrap lineWidth g.about ++ [""] ++ g.wordHelp ++
    g.switchHelp).map
    (· ++ "\n"))

end Grammar

/-! ### Faults -/

/-- A fault of one argument. -/
def argumentFault (s : Switch) (text : String) : String :=
  "argument " ++ s.shown ++ ": " ++ text

/-- The text of a fault. -/
def UsageFault.message : UsageFault → String
  | ambiguous argument candidates =>
    "ambiguous option: " ++ argument ++ " could match " ++ String.intercalate ", " candidates
  | needsValue s => argumentFault s "expected one argument"
  | takesNoValue s value => argumentFault s ("ignored explicit argument " ++ Text.quoted value)
  | badChoice s value choices =>
    argumentFault s ("invalid choice: " ++ Text.quoted value ++ " (choose from " ++
      String.intercalate ", " (choices.map Text.quoted) ++ ")")
  | missing word => "the following arguments are required: " ++ word
  | unrecognized arguments => "unrecognized arguments: " ++ String.intercalate " " arguments
  | noCommand => "a command is required: describe or generate"
  | switchBeforeCommand argument =>
    "unrecognized option before the command: " ++ argument ++
      " (command options go after the command)"
  | unknownCommand word => "unknown command: " ++ word

namespace Halt

/-- The end that a fault leads to: the usage and the fault on the error output, and exit code 2. -/
def ofFault (g : Grammar) (f : UsageFault) : Halt where
  code := 2
  err := g.usage ++ g.program ++ ": error: " ++ f.message ++ "\n"

/-- The end after the help was shown. -/
def ofHelp (g : Grammar) : Halt := ⟨0, g.help, ""⟩

/-- The end after the version was shown. -/
def ofVersion (g : Grammar) : Halt := ⟨0, g.program ++ " " ++ g.version ++ "\n", ""⟩

end Halt

end PipelineRuns.CommandLine
