import PipelineRuns.Text.Quoted

/-!
# Faults of the file system

`FileFault` is why a file or directory could not be read, made or written. Its message gives the
number and the text of the fault, and the path in quotes where the system names one.

Some faults do not come from what stands at a path: the system refuses whatever is asked. `Refusals`
says of which paths it does so; an operation that takes them as a parameter asks them first.
-/

namespace PipelineRuns

/-- The causes. -/
inductive FileFault.Cause where
  | missing
  | inputOutput
  | exists
  | notDirectory
  | isDirectory
  | denied
  | readOnly
  | nameTooLong
  deriving DecidableEq, Repr

/-- The system's number of a cause. -/
def FileFault.Cause.number : FileFault.Cause → Nat
  | .missing => 2
  | .inputOutput => 5
  | .exists => 17
  | .notDirectory => 20
  | .isDirectory => 21
  | .denied => 13
  | .readOnly => 30
  | .nameTooLong => 36

/-- The system's text of a cause. -/
def FileFault.Cause.text : FileFault.Cause → String
  | .missing => "No such file or directory"
  | .inputOutput => "Input/output error"
  | .exists => "File exists"
  | .notDirectory => "Not a directory"
  | .isDirectory => "Is a directory"
  | .denied => "Permission denied"
  | .readOnly => "Read-only file system"
  | .nameTooLong => "File name too long"

/-- Whether a cause is that the system refuses what is asked. -/
def FileFault.Cause.isRefusal : FileFault.Cause → Bool
  | .denied | .readOnly | .nameTooLong => true
  | _ => false

/-- A fault and the path that it concerns, when the system names it. -/
structure FileFault where
  cause : FileFault.Cause
  path : Option String := none
  deriving DecidableEq, Repr

/-- A fault as text. -/
def FileFault.message (f : FileFault) : String :=
  "[Errno " ++ toString f.cause.number ++ "] " ++ f.cause.text ++
    (match f.path with
      | none => ""
      | some p => ": " ++ Text.quoted p)

/-- A fault with which the system refuses what is asked. -/
abbrev Refusal := { f : FileFault // f.cause.isRefusal = true }

end PipelineRuns
