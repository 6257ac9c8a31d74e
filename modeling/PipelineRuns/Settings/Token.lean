import PipelineRuns.Files.Tree
import PipelineRuns.Settings.Basic
import PipelineRuns.Text.Blank

/-!
# The token

A token for the cluster can stand in the settings, in a file that they name, in the variable
`KUBE_TOKEN`, or in the file that `KUBE_TOKEN_FILE` names. `Token.resolve` takes the first of these
that is set; a token that begins like a placeholder in braces does not count. The variables are
those of the environment that was captured last.
-/

namespace PipelineRuns.Token

/-- Whether a token of the settings can be used as it is. -/
def isUsable (token : String) : Bool :=
  token ≠ "" && !("$\x7b".toList.isPrefixOf token.toList)

/-- The trimmed text of a file. -/
def fileText (files : FileTree) (path : String) : Except Failure String :=
  (files.readText (FilePath.ofText path)).map Text.strip

/-- The token that a captured environment leads to. -/
def ofEnvironment (captured : Environment) (files : FileTree) : Except Failure (Option String) :=
  if captured.value "KUBE_TOKEN" ≠ "" then .ok (some (Text.strip (captured.value "KUBE_TOKEN")))
  else if captured.value "KUBE_TOKEN_FILE" ≠ "" then
    (fileText files (captured.value "KUBE_TOKEN_FILE")).map some
  else .ok none

/-- The token that settings lead to. -/
def resolve (captured : Environment) (files : FileTree) (kube : KubeSettings) :
    Except Failure (Option String) :=
  if isUsable (kube.token.getD "") then .ok kube.token
  else if kube.tokenFile.getD "" ≠ "" then
    (fileText files (kube.tokenFile.getD "")).map (fun s => if s = "" then none else some s)
  else ofEnvironment captured files

end PipelineRuns.Token
