import PipelineRuns.Host
import PipelineRuns.Json
import PipelineRuns.Settings.Basic
import PipelineRuns.Settings.Placeholder
import PipelineRuns.Yaml.Read

/-!
# Loading settings

`Settings.load` reads the settings from a YAML file, with the placeholders of the environment
filled, and from the environment alone where there is no such file. Each load also captures the
environment, from which the token is looked up later.

`Settings.assemble` puts the sections together. A section can be given as a whole, as values of its
fields, or not at all; besides, the variable with the section's name can hold a JSON object of
further values, which count less than those given. A section of which nothing is known is read from
its variables.
-/

namespace PipelineRuns

/-- How a section is given. -/
inductive Given (α : Type) where
  | absent
  | built (parts : α)
  | value (v : Value)

namespace Section

/-- The JSON value of the variable named like the section, if it is set. -/
def whole? {α : Type} (s : Section α) (env : Environment) : Except Failure (Option Value) :=
  match env.fold? s.name with
  | none => .ok none
  | some text =>
    match Json.parse text with
    | none => .error (.sectionNotJson s.name)
    | some .null => .ok none
    | some v => .ok (some v)

/-- The name of the field that a key means when case makes no difference. -/
def fieldName {α : Type} (s : Section α) (key : Value) : Value :=
  match key with
  | .text k =>
    match s.fields.find? (fun f => f = Text.toLower k) with
    | some f => .text f
    | none => key
  | _ => key

/-- A mapping whose keys are the names of the fields that they mean. -/
def folded {α : Type} (s : Section α) (m : Mapping) : Mapping :=
  Mapping.ofEntries (m.map (fun e => (s.fieldName e.1, e.2)))

/-- The values of a section from those given and those of its variable; given ones count more. -/
def combined {α : Type} (s : Section α) (given : Given α) (extra : Option Value) : Given α :=
  let other := extra.map (fun v => match v with
    | .mapping m => Value.mapping (s.folded m)
    | v => v)
  match given, other with
  | .absent, none => .absent
  | .absent, some v => .value v
  -- The later one of two entries counts, so those given come last.
  | .value (.mapping m), some (.mapping n) => .value (.mapping (Mapping.ofEntries (n ++ m)))
  | g, _ => g

/-- The issue with a section that is no mapping. -/
def notSection {α : Type} (s : Section α) : Issue :=
  ⟨s.name, "model_type", "Input should be a valid dictionary or instance of " ++ s.record⟩

/-- A section as part of the settings: the section, or its issues. A section of which nothing is
given has to be readable from its variables. -/
def part {α : Type} (s : Section α) (env : Environment) :
    Given α → Except Failure (Except (List Issue) α)
  | .absent => (s.alone env []).map .ok
  | .built a => .ok (.ok a)
  | .value (.mapping m) => .ok (s.read ⟨m, env, s.stem, s.name ++ "."⟩)
  | .value _ => .ok (.error [s.notSection])

end Section

namespace Settings

/-- What is given of the settings. -/
structure Sources where
  kube : Given KubeSettings := .absent
  display : Given DisplaySettings := .absent
  logging : Given LoggingSettings := .absent

/-- The settings made of sections and the environment. -/
def assemble (env : Environment) (given : Sources) : Except Failure Settings := do
  let kube ← KubeSettings.family.whole? env
  let display ← DisplaySettings.family.whole? env
  let logging ← LoggingSettings.family.whole? env
  let kube ← KubeSettings.family.part env (KubeSettings.family.combined given.kube kube)
  let display ← DisplaySettings.family.part env
    (DisplaySettings.family.combined given.display display)
  let logging ← LoggingSettings.family.part env
    (LoggingSettings.family.combined given.logging logging)
  -- The issues of all sections are told together.
  match kube, display, logging with
  | .ok kube, .ok display, .ok logging => .ok ⟨kube, display, logging⟩
  | a, b, c => .error (.invalid "AppConfig" (issues a ++ issues b ++ issues c))
where
  /-- The issues of a section. -/
  issues {α : Type} : Except (List Issue) α → List Issue
    | .ok _ => []
    | .error is => is

/-- The file that settings are read from by default. -/
def defaultPath : FilePath := FilePath.ofText "tknpac.yaml"

/-- The values that a document gives for a section: a mapping with text keys. All of them are values
of fields here; keys such as `_env_prefix`, `_env_file` and `_secrets_dir`, which would change where
the other values come from, are left out, and count as unknown fields like any other. -/
def valuesOf (doc : Mapping) (name : String) : Except Failure Mapping :=
  let v := doc.get name
  if v.isTruthy then
    match v with
    | .mapping m => if m.all (fun e => (e.1.text?).isSome) then .ok m else .error .wrongType
    | _ => .error .wrongType
  else .ok []

/-- The entries of a document of settings; none where it is empty. -/
def entriesOf (v : Value) : Except Failure Mapping :=
  if v.isTruthy then
    match v with
    | .mapping m => .ok m
    | _ => .error .notMapping
  else .ok []

/-- One section of a document. -/
def sectionOf {α : Type} (s : Section α) (env : Environment) (doc : Mapping) :
    Except Failure (Given α) := do
  let values ← valuesOf doc s.name
  let a ← s.alone env values
  return .built a

/-- The settings of a document. -/
def ofDocument (env : Environment) (v : Value) : Except Failure Settings := do
  let doc ← entriesOf (Placeholder.fill env v)
  let kube ← sectionOf KubeSettings.family env doc
  let display ← sectionOf DisplaySettings.family env doc
  let logging ← sectionOf LoggingSettings.family env doc
  assemble env { kube, display, logging }

/-- The settings of the file at a path, or of the environment alone where there is no such file. -/
def ofPath (host : Host) (path : FilePath) : Except Failure Settings :=
  if !host.files.isFile path then assemble host.environment {}
  -- A file that is there has to be readable and valid; only a missing one stands for no settings.
  else do
    let text ← host.files.readText path
    let v ← Yaml.parse text
    ofDocument host.environment v

/-- What a load leaves behind: the environment it captured, and the settings or why there are
none. -/
structure Loaded where
  captured : Environment
  settings : Except Failure Settings

/-- Loads the settings. -/
def load (host : Host) (path : FilePath) : Loaded :=
  ⟨host.environment, ofPath host path⟩

end Settings

end PipelineRuns
