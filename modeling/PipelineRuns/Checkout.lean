import PipelineRuns.Action
import PipelineRuns.Files.Tree
import PipelineRuns.Text.Quoted

/-!
# The work tree

Starter runs are written below the top directory of a work tree. The version control program is
asked for it, and `GitReply` is what can come of that. It writes bytes: `Checkout.said` is the text
that they hold, and `Checkout.topLevel` reads the directory off the reply.
-/

namespace PipelineRuns

/-- What comes of calling the version control program. -/
inductive GitReply where
  /-- There is no such program. -/
  | missing
  /-- The system refuses to start it. -/
  | barred (refusal : Refusal)
  /-- It did not end in time. -/
  | late
  /-- It ended with a code, and with what it wrote to its output and its error output. -/
  | done (code : Int) (out err : List UInt8)
  deriving DecidableEq, Repr

namespace Checkout

/-- The channel of the notes on the version control program. -/
def channel : String := "tknpac.services.git"

/-- The arguments that ask for the top directory. -/
def arguments : List String := ["rev-parse", "--show-toplevel"]

/-- The call as it is shown in errors. -/
def command : String := String.intercalate " " ("git" :: arguments)

/-- The text that a program wrote, with its line endings unified. -/
def said (written : List UInt8) : Except Failure String :=
  (FileTree.decode written).map (fun s => String.ofList (Text.unifyNewlines s.toList))

/-- What a program says when it fails: its error output, or else its output. -/
def complaint (out err : String) : String :=
  Text.strip (if err = "" then out else err)

/-- The note on a call that failed. -/
def remark (complaint : String) : Record :=
  .debug channel
    ("Git [" ++ String.intercalate ", " (arguments.map Text.quoted) ++ "] failed: " ++ complaint)

/-- The top directory that an ending with a code and two texts names. -/
def topOf (directory : FilePath) (code : Int) (out err : String) : Action FilePath :=
  if code ≠ 0 then do
    note (remark (complaint out err))
    throw (.checkout (.failed command (complaint out err)))
  else if Text.isBlankText out then throw (.checkout (.outside directory.text))
  else return FilePath.ofText (Text.strip out)

/-- The top directory of the work tree around a directory. Both texts are read before the code is
looked at. -/
def topLevel (directory : FilePath) : GitReply → Action FilePath
  | .missing => throw (.checkout .notInstalled)
  | .barred refusal => throw (.file refusal)
  | .late => throw .timedOut
  | .done code out err => do
    let out ← (said out : Except Failure String)
    let err ← (said err : Except Failure String)
    topOf directory code out err

end Checkout

end PipelineRuns
