import PipelineRuns.Checkout
import PipelineRuns.CommandLine.Grammar
import PipelineRuns.Files.Tree
import PipelineRuns.Prompt
import PipelineRuns.Report.Style
import PipelineRuns.Starter.Document

/-!
# Generating a starter run

`Generate.create` writes the starter run of an event into its file below the top directory of a work
tree. What is not given is asked for, and nothing is written before the user agreed, once to the
file and once more if there is one already; whoever wants to be asked nothing says so.
`Generate.run` is the command: it finds the work tree, and turns failures that it can explain into
an error and an exit code. Both are the case in which the system refuses nothing of
`Generate.createUnder` and `Generate.runUnder`.

All this is `Work`: it changes a `Workplace`, which holds the files, what was written to the output,
and the one who answers questions.
-/

namespace PipelineRuns

/-- What the generation of a run works on. -/
structure Workplace (σ : Type) where
  files : FileTree
  prompter : σ
  out : String := ""
  effects : Effects := {}

/-- A computation at a workplace; what it did before a failure stays done. -/
abbrev Work (σ α : Type) := ExceptT Failure (StateM (Workplace σ)) α

namespace Work

variable {σ α : Type}

/-- The result of a computation, or its failure. -/
def ofExcept (r : Except Failure α) : Work σ α := MonadExcept.ofExcept r

/-- Does an action. -/
def act (a : Action α) : Work σ α := do
  let w ← get
  let (r, effects) := a.from w.effects
  set { w with effects := effects }
  ofExcept r

/-- Puts a question. -/
def question (put : σ → Turn σ α) : Work σ α := do
  let w ← get
  let t := put w.prompter
  set { w with prompter := t.state, out := w.out ++ String.join (t.said.map Utterance.shown) }
  ofExcept t.answer

/-- Writes to the output. -/
def write (text : String) : Work σ Unit :=
  modify (fun w => { w with out := w.out ++ text })

/-- Fails if the system refuses something. -/
def heed (refusal : Option Refusal) (failure : FileFault → Failure) : Work σ Unit :=
  match refusal with
  | some refusal => throw (failure refusal)
  | none => return

@[simp] theorem heed_none (failure : FileFault → Failure) :
    heed (σ := σ) none failure = pure () := rfl

/-- Changes the files. -/
def changeFiles (files : FileTree) : Work σ Unit :=
  modify (fun w => { w with files := files })

end Work

namespace Generate

/-- What the command is asked for. -/
structure Options where
  event : OptionValue := .absent
  branch : OptionValue := .absent
  /-- Whether the answer to every yes or no is yes. -/
  yes : Bool := false
  deriving DecidableEq, Repr

/-- The channel of the notes on generated files. -/
def channel : String := "tknpac.cli.generate"

/-- The sign before an information. -/
def infoIcon : String := "ℹ"

/-- The title of an event. -/
def titleOf (event : String) : String :=
  (Starter.events.lookup event).getD ""

/-- The event with a title. -/
def eventOfTitle (title : String) : Except Failure String :=
  match Starter.events.find? (fun e => e.2 = title) with
  | some e => .ok e.1
  | none => .error (.starter (.unknownEvent title))

/-- The question for the branch of an event. -/
def branchQuestion (event : String) : String :=
  (if event = "pull_request" then "Enter the target GIT branch for the Pull Request"
    else "Enter a target GIT branch or a tag for the push") ++ " (default: " ++
    Starter.mainBranch ++ "):"

/-- The question whether a file is to be written. -/
def creationQuestion (relative : FilePath) : String :=
  "Would you like me to create a basic PipelineRun into the file " ++ relative.text ++ " ?"

/-- The question whether a file is to be replaced. -/
def overrideQuestion (target : FilePath) : String :=
  "There is already a file named: " ++ target.text ++ " would you like me to override it?"

variable {σ : Type}

/-- Asks for the event. -/
def askEvent (p : Prompter σ) : Work σ String := do
  let title ← Work.question (p.select "Enter the Git event type for triggering the pipeline:"
    (Starter.events.map (·.2)) (titleOf Starter.defaultEvent))
  Work.ofExcept (eventOfTitle title)

/-- Asks for the branch; an empty answer means the main one. -/
def askBranch (p : Prompter σ) (event : String) : Work σ String := do
  let answer ← Work.question (p.ask (branchQuestion event))
  return if answer = "" then Starter.mainBranch else answer

/-- The event given, or the one asked for. -/
def chooseEvent (p : Prompter σ) : OptionValue → Work σ String
  | .absent => askEvent p
  | .blank => throw .wrongType
  | .text event =>
    if (Starter.events.lookup event).isSome then return event
    else throw (.starter (.unknownEvent event))

/-- The branch given, or the one asked for. -/
def chooseBranch (p : Prompter σ) (event : String) (given : OptionValue) : Work σ String :=
  if given.orEmpty = "" then askBranch p event else return given.orEmpty

/-- Whether the user agrees; who answers yes to everything is not asked. -/
def agree (p : Prompter σ) (options : Options) (message : String) (default : Bool) : Work σ Bool :=
  if options.yes then return true else Work.question (p.confirm message default)

/-- Makes the directory of the files, unless it is there. -/
def ensureDirectory (directory : FilePath) (style : Style) : Work σ Unit := do
  let w ← get
  if w.files.isDirectory directory then return
  else if directory.text.toList.contains '\x00' then throw .badValue
  else
    match w.files.makeDirectories directory with
    | .error fault => throw (.starter (.cannotCreate directory.text fault))
    | .ok files =>
      Work.changeFiles files
      Work.write (infoIcon ++ " Directory " ++ style.bold Starter.directory ++
        " has been created.\n")

/-- Writes the run into its file, and says so. -/
def writeRun (top target relative : FilePath) (event branch : String) (style : Style) :
    Work σ Unit := do
  match (← get).files.write target (Starter.text top.name event branch) with
  | .error fault => throw (.starter (.cannotWrite target.text fault))
  | .ok files =>
    Work.changeFiles files
    Work.act (note (.debug channel
      ("Wrote " ++ target.text ++ " (event=" ++ event ++ ", branch=" ++ branch ++ ")")))
    Work.write (style.state .succeeded DisplayState.succeeded.icon ++
      " A basic template has been created in " ++
      style.bold target.text ++ ", feel free to customize it.\n")
    Work.write (infoIcon ++ " You can test your pipeline manually with: tkn-pac resolve -f " ++
      relative.text ++ " | kubectl create -f-\n")

/-- Makes the directory of the files, unless it is there, on a system that may refuse to look at it
or to make it. -/
def ensureDirectoryUnder (refused : Refusals) (directory : FilePath) (style : Style) :
    Work σ Unit := do
  Work.heed (refused.look directory) .file
  let w ← get
  -- A directory that is there need not be made, so no refusal of that counts.
  Work.heed (if w.files.isDirectory directory then none else refused.change directory)
    (fun fault => .starter (.cannotCreate directory.text fault))
  ensureDirectory directory style

/-- Writes the starter run below a top directory; its path, or nothing where the user did not agree.
The system may refuse to look at what is there and to change it. -/
def createUnder (refused : Refusals) (p : Prompter σ) (top : FilePath) (options : Options)
    (style : Style) : Work σ (Option FilePath) := do
  let event ← chooseEvent p options.event
  let branch ← chooseBranch p event options.branch
  let relative := Starter.path ⟨"", []⟩ event
  let target := Starter.path top event
  let wanted ← agree p options (creationQuestion relative) true
  if !wanted then return none
  else
    ensureDirectoryUnder refused target.parent style
    Work.heed (refused.look target) .file
    -- A file that is free is not asked about a second time.
    let isFree := !(← get).files.isPresent target
    let replaced ← if isFree then pure true else agree p options (overrideQuestion target) false
    if !replaced then return none
    else
      Work.heed (refused.change target) (fun fault => .starter (.cannotWrite target.text fault))
      writeRun top target relative event branch style
      return some target

/-- Writes the starter run below a top directory, on a system that refuses nothing. -/
def create (p : Prompter σ) (top : FilePath) (options : Options) (style : Style) :
    Work σ (Option FilePath) :=
  createUnder .nothing p top options style

/-- The exit code and the error text of the command. -/
structure Outcome where
  code : Nat
  err : String := ""
  deriving DecidableEq, Repr

/-- The outcome of a failure that the command explains. -/
def outcomeOf : Failure → Option Outcome
  | .checkout f => some ⟨1, "Error: " ++ f.message ++ "\n"⟩
  | .starter f => some ⟨1, "Error: " ++ f.message ++ "\n"⟩
  | .interrupted | .endOfInput => some ⟨130, "\n"⟩
  | _ => none

/-- The command in a directory, on a system that may refuse to look at files and to change them. -/
def runUnder (refused : Refusals) (p : Prompter σ) (git : GitReply) (directory : FilePath)
    (options : Options) : Work σ Outcome :=
  tryCatch (do
    let top ← Work.act (Checkout.topLevel directory git)
    let _ ← createUnder refused p top options .plain
    return ⟨0, ""⟩)
    -- What the handler does not know goes on to the caller.
    (fun f =>
      match outcomeOf f with
      | some o => return o
      | none => throw f)

/-- The command in a directory, on a system that refuses nothing. -/
def run (p : Prompter σ) (git : GitReply) (directory : FilePath) (options : Options) :
    Work σ Outcome :=
  runUnder .nothing p git directory options

end Generate

end PipelineRuns
