import PipelineRuns.Environment
import PipelineRuns.Field
import PipelineRuns.Text.Case

/-!
# Settings

The settings of the program stand in three sections: access to the cluster, display and logging. A
field of a section has the value given for it, else that of its environment variable, else a
default. The variable of a field is its name after the prefix of the section, and upper and lower
case make no difference; of two variables that differ in case only the later one counts.

`KubeSettings.read`, `DisplaySettings.read` and `LoggingSettings.read` read a section from the
values given and the environment, and return the issues of all fields that have values of other
types.
-/

namespace PipelineRuns

/-- The value of the variable whose name is `name` in small letters. -/
def Environment.fold? (env : Environment) (name : String) : Option String :=
  (env.reverse.find? (fun e => Text.toLower e.1 = name)).map (·.2)

/-- Access to the cluster; what is empty here is looked up elsewhere. -/
structure KubeSettings where
  ns : String := ""
  apiUrl : String := ""
  token : Option String := none
  tokenFile : Option String := none
  bundle : Option String := none
  verify : Bool := true
  timeout : Int := 30
  kubeconfig : Option String := none
  deriving DecidableEq, Repr, Inhabited

/-- Output on the terminal. -/
structure DisplaySettings where
  noColor : Bool := false
  hyperlinks : Bool := true
  deriving DecidableEq, Repr, Inhabited

/-- The journal on the error output. -/
structure LoggingSettings where
  level : String := "WARNING"
  format : String := "%(asctime)s - %(name)s - %(levelname)s - %(message)s"
  deriving DecidableEq, Repr, Inhabited

/-- All settings. -/
structure Settings where
  kube : KubeSettings := {}
  display : DisplaySettings := {}
  logging : LoggingSettings := {}
  deriving DecidableEq, Repr, Inhabited

/-- Where the fields of a section are read from: the values given, the environment, the section's
prefix of variables, and what precedes the name of a field in the place of an issue. -/
structure SectionSource where
  given : Mapping
  environment : Environment
  stem : String
  place : String := ""

namespace SectionSource

/-- The value of a field, if there is one. -/
def value? (s : SectionSource) (field : String) : Option Value :=
  (s.given.get? field).or ((s.environment.fold? (s.stem ++ field)).map .text)

/-- Reads a field, or takes its default. -/
def field {α : Type} (s : SectionSource) (name : String) (absent : α)
    (read : String → Value → Except Issue α) : Except Issue α :=
  match s.value? name with
  | none => .ok absent
  | some v => read (s.place ++ name) v

end SectionSource

/-- The least and the greatest timeout in seconds. -/
def timeoutBounds : Int × Int := (1, 600)

/-- The section on access to the cluster. -/
def KubeSettings.read (s : SectionSource) : Except (List Issue) KubeSettings :=
  match s.field "namespace" "" Field.text, s.field "api_url" "" Field.text,
    s.field "token" none Field.textOrNull, s.field "token_file" none Field.textOrNull,
    s.field "ca_cert" none Field.textOrNull, s.field "verify_ssl" true Field.truth,
    s.field "timeout" 30 (fun place => Field.integer place timeoutBounds.1 timeoutBounds.2),
    s.field "kubeconfig" none Field.textOrNull with
  | .ok ns, .ok apiUrl, .ok token, .ok tokenFile, .ok bundle, .ok verify, .ok timeout,
      .ok kubeconfig =>
    .ok ⟨ns, apiUrl, token, tokenFile, bundle, verify, timeout, kubeconfig⟩
  | a, b, c, d, e, f, g, h =>
    .error (Field.issues [Field.issue? a, Field.issue? b, Field.issue? c, Field.issue? d,
      Field.issue? e, Field.issue? f, Field.issue? g, Field.issue? h])

/-- The section on display. -/
def DisplaySettings.read (s : SectionSource) : Except (List Issue) DisplaySettings :=
  match s.field "no_color" false Field.truth, s.field "hyperlinks" true Field.truth with
  | .ok noColor, .ok hyperlinks => .ok ⟨noColor, hyperlinks⟩
  | a, b => .error (Field.issues [Field.issue? a, Field.issue? b])

/-- The section on logging. -/
def LoggingSettings.read (s : SectionSource) : Except (List Issue) LoggingSettings :=
  match s.field "level" "WARNING" Field.text,
    s.field "format" "%(asctime)s - %(name)s - %(levelname)s - %(message)s" Field.text with
  | .ok level, .ok format => .ok ⟨level, format⟩
  | a, b => .error (Field.issues [Field.issue? a, Field.issue? b])

/-! ### Sections as a family -/

/-- What is known of a section apart from its fields: its name, the name of its record, the prefix
of its variables and how it is read. -/
structure Section (α : Type) where
  name : String
  record : String
  stem : String
  fields : List String
  read : SectionSource → Except (List Issue) α

/-- The section on access to the cluster. -/
def KubeSettings.family : Section KubeSettings where
  name := "kube"
  record := "KubeConfig"
  stem := "kube_"
  fields := ["namespace", "api_url", "token", "token_file", "ca_cert", "verify_ssl", "timeout",
    "kubeconfig"]
  read := KubeSettings.read

/-- The section on display. -/
def DisplaySettings.family : Section DisplaySettings where
  name := "display"
  record := "DisplayConfig"
  stem := "display_"
  fields := ["no_color", "hyperlinks"]
  read := DisplaySettings.read

/-- The section on logging. -/
def LoggingSettings.family : Section LoggingSettings where
  name := "logging"
  record := "LoggingConfig"
  stem := "logging_"
  fields := ["level", "format"]
  read := LoggingSettings.read

/-- A section read by itself from the values given and the environment. -/
def Section.alone {α : Type} (s : Section α) (env : Environment) (given : Mapping) :
    Except Failure α :=
  match s.read ⟨given, env, s.stem, ""⟩ with
  | .ok a => .ok a
  | .error issues => .error (.invalid s.record issues)

end PipelineRuns
