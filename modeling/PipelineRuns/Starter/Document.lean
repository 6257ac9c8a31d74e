import PipelineRuns.Files.Path
import PipelineRuns.Starter.Name
import PipelineRuns.Yaml.Write

/-!
# The starter run

To start with, a source repository gets a run that does nothing, in a file below `.tekton`: one for
each kind of event. `Starter.document` is the resource as a tree of texts, `Starter.text` its YAML
text and `Starter.path` the file it is written to. The name of the resource is made of the names of
the repository and of the event, and of the event alone where that leaves nothing.
-/

namespace PipelineRuns.Starter

/-- The events that can start a run, and what they are called. -/
def events : List (String × String) :=
  [("pull_request", "Pull Request"), ("push", "Push to a Branch or a Tag")]

/-- The event that is proposed. -/
def defaultEvent : String := "pull_request"

/-- The branch that is proposed. -/
def mainBranch : String := "main"

/-- The directory of the files. -/
def directory : String := ".tekton"

/-- How many runs are kept. -/
def maxKeepRuns : String := "5"

/-- The image in which the step runs. -/
def stepImage : String := "registry.access.redhat.com/ubi8/ubi-micro"

/-- What the names of the annotations begin with. -/
def annotationGroup : String := "pipelinesascode.tekton.dev"

/-- A text with `new` in place of every character `old`. -/
def replaceChar (old new : Char) (s : String) : String :=
  String.ofList (s.toList.map (fun c => if c = old then new else c))

/-- The file of an event below the top directory of a work tree. -/
def path (top : FilePath) (event : String) : FilePath :=
  (top.child directory).child (replaceChar '_' '-' event ++ ".yaml")

/-- The name of the resource. -/
def resourceName (repo event : String) : String :=
  let name := ResourceName.sanitize (repo ++ "-" ++ event) ResourceName.maxLength
  if name = "" then ResourceName.sanitize event ResourceName.maxLength else name

/-- A placeholder that the service fills in when the run starts. -/
def parameter (name : String) : String :=
  "\x7b\x7b " ++ name ++ " \x7d\x7d"

/-- The name of an annotation. -/
def annotationKey (name : String) : String :=
  annotationGroup ++ "/" ++ name

/-- The resource of the starter run. -/
def document (repo event branch : String) : Yaml.Tree :=
  .mapping [
    ("apiVersion", .text "tekton.dev/v1beta1"),
    ("kind", .text "PipelineRun"),
    ("metadata", .mapping [
      ("name", .text (resourceName repo event)),
      ("annotations", .mapping [
        (annotationKey "on-event", .text ("[" ++ event ++ "]")),
        (annotationKey "on-target-branch", .text ("[" ++ branch ++ "]")),
        (annotationKey "max-keep-runs", .text maxKeepRuns)])]),
    ("spec", .mapping [
      ("params", .list [
        .mapping [("name", .text "repo_url"), ("value", .text (parameter "repo_url"))],
        .mapping [("name", .text "revision"), ("value", .text (parameter "revision"))]]),
      ("pipelineSpec", .mapping [
        ("params", .list [.mapping [("name", .text "repo_url")],
          .mapping [("name", .text "revision")]]),
        ("tasks", .list [
          .mapping [
            ("name", .text "noop-task"),
            ("taskSpec", .mapping [
              ("steps", .list [
                .mapping [
                  ("name", .text "noop-task"),
                  ("image", .text stepImage),
                  ("script", .text "exit 0\n")]])])]])])])]

/-- The text of the starter run. -/
def text (repo event branch : String) : String :=
  Yaml.write (document repo event branch)

end PipelineRuns.Starter
