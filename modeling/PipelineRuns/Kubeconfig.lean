import PipelineRuns.Action
import PipelineRuns.Field
import PipelineRuns.Host
import PipelineRuns.Yaml.Read

/-!
# Kubeconfig files

A kubeconfig file names clusters, users and contexts, and one current context. `ClusterContext` is
what the program takes from it: the namespace, server, certificates and token of the current
context, each of which may be missing.

* `Kubeconfig.named` finds an entry of a list by its name;
* `Kubeconfig.read` extracts the current context of a document, with relative paths as seen from a
  base directory;
* `Kubeconfig.load` reads a file; a file that is missing or cannot be read or parsed gives an empty
  context. `Kubeconfig.loadUnder` does so on a system that may refuse even to look whether there is
  a file;
* `Kubeconfig.inClusterServer` is the server that a program inside a cluster is told of by its
  environment.
-/

namespace PipelineRuns

/-- The settings of the current context of a kubeconfig file. -/
structure ClusterContext where
  name : String := ""
  ns : String := ""
  server : String := ""
  certificateAuthority : Option String := none
  certificateAuthorityData : Option String := none
  insecure : Bool := false
  token : Option String := none
  deriving DecidableEq, Repr, Inhabited

namespace Kubeconfig

/-- The channel of the notes on kubeconfig files. -/
def channel : String := "tknpac.kubeconfig"

/-- The path of the kubeconfig file that is used by default: the first entry of `KUBECONFIG`, or a
file in the home directory. -/
def defaultPath (homes : Homes) (env : Environment) : Except Failure FilePath :=
  match (Text.split ':' (env.value "KUBECONFIG")).find? (fun e => !Text.isBlankText e) with
  | some e => (FilePath.ofText (Text.strip e)).expandUser homes env
  | none => do
    let home ← (FilePath.ofText "~").expandUser homes env
    return (home.child ".kube").child "config"

/-- The value under `key` of the first mapping in a list whose name is `name`; an empty mapping
where there is none or nothing counts as given. -/
def named (items : List Value) (name : Value) (key : String) : Value :=
  match (items.filterMap Value.entries?).find? (fun m => (Mapping.get m "name").same name) with
  | none => .mapping []
  | some m => if (Mapping.get m key).isTruthy then Mapping.get m key else .mapping []

/-- The entries of a value that has to be a mapping. -/
def entries : Value → Except Failure Mapping
  | .mapping m => .ok m
  | _ => .error .notMapping

/-- The value under a key, or an empty text where there is no such key. -/
def nameUnder (m : Mapping) (key : String) : Value :=
  (m.get? key).getD (.text "")

/-- The value under a key, or an empty text where nothing counts as given. -/
def givenUnder (m : Mapping) (key : String) : Value :=
  if (m.get key).isTruthy then m.get key else .text ""

/-- A path of a document: an absolute one as it is, a relative one as seen from `base`. -/
def authorityPath (base : FilePath) (v : Value) : Except Failure Value :=
  if v.isTruthy then
    match v with
    | .text s =>
      let p := FilePath.ofText s
      .ok (.text (if p.isAbsolute then s else (base.join p).text))
    | _ => .error .wrongType
  else .ok v

/-- The token in a file; none where the file cannot be read or is blank. -/
def fileToken (host : Host) (base : FilePath) (path : String) : Action Value := do
  let p := base.join (FilePath.ofText path)
  match host.files.readText p with
  | .ok s => return if Text.isBlankText s then .null else .text (Text.strip s)
  | .error (.file fault) =>
    note (.debug channel ("Cannot read token file " ++ p.text ++ ": " ++ fault.message))
    return .null
  | .error f => throw f

/-- The token of a user: its own, or that of the file it names. -/
def token (host : Host) (base : FilePath) (user : Mapping) : Action Value :=
  let own := user.get "token"
  let file := user.get "tokenFile"
  if own.isTruthy || !file.isTruthy then return own
  else
    match file with
    | .text path => fileToken host base path
    | _ => throw .wrongType

/-- The parts of a document that the current context consists of. -/
structure Selection where
  context : Mapping
  cluster : Mapping
  user : Mapping

/-- The context named `current` and the cluster and user that it names. -/
def select (data : Mapping) (current : Value) : Except Failure Selection := do
  let context ← entries (named (data.get "contexts").items current "context")
  let cluster := named (data.get "clusters").items (nameUnder context "cluster") "cluster"
  let user := named (data.get "users").items (nameUnder context "user") "user"
  return ⟨context, ← entries cluster, ← entries user⟩

/-- The context with these fields, once each has a value of its type. -/
def ofFields (name ns server authority authorityData : Value) (insecure : Bool) (token : Value) :
    Except Failure ClusterContext :=
  match Field.text "name" name, Field.text "namespace" ns, Field.text "server" server,
    Field.textOrNull "certificate_authority" authority,
    Field.textOrNull "certificate_authority_data" authorityData, Field.textOrNull "token" token with
  | .ok name, .ok ns, .ok server, .ok ca, .ok data, .ok token =>
    .ok ⟨name, ns, server, ca, data, insecure, token⟩
  | a, b, c, d, e, f =>
    .error (.invalid "KubeContext" (Field.issues [Field.issue? a, Field.issue? b, Field.issue? c,
      Field.issue? d, Field.issue? e, Field.issue? f]))

/-- The current context of a document. -/
def read (host : Host) (data : Mapping) (base : FilePath) : Action ClusterContext := do
  let current := data.get "current-context"
  if !current.isTruthy then return {}
  else
    let context ← (entries (named (data.get "contexts").items current "context") :
      Except Failure Mapping)
    let cluster ←
      (entries (named (data.get "clusters").items (nameUnder context "cluster") "cluster") :
      Except Failure Mapping)
    -- The path is looked at before the user, so of two faults in them this one counts.
    let authority ←
      (authorityPath base (cluster.get "certificate-authority") : Except Failure Value)
    let user ← (entries (named (data.get "users").items (nameUnder context "user") "user") :
      Except Failure Mapping)
    let token ← token host base user
    (ofFields current (givenUnder context "namespace") (givenUnder cluster "server") authority
      (cluster.get "certificate-authority-data") (cluster.get "insecure-skip-tls-verify").isTruthy
      token : Except Failure ClusterContext)

/-- The path of the file to read: the one given, or the default one. -/
def pathOf (host : Host) (path : Option String) : Except Failure FilePath :=
  match path.filter (· ≠ "") with
  | some p => (FilePath.ofText p).expandUser host.homes host.environment
  | none => defaultPath host.homes host.environment

/-- The note on a file that cannot be read or parsed. -/
def remark (path : FilePath) (reason : String) : Record :=
  .warning channel ("Failed to load kubeconfig " ++ path.text ++ ": " ++ reason)

/-- The current context of the file at a path. -/
def loadAt (host : Host) (p : FilePath) : Action ClusterContext := do
  if !host.files.isFile p then return {}
  else
    match host.files.readText p with
    | .error (.file fault) =>
      note (remark p fault.message)
      return {}
    | .error f => throw f
    | .ok text =>
      match Yaml.parse text with
      | .error .notYaml =>
        note (remark p Yaml.faultText)
        return {}
      | .error f => throw f
      | .ok (.mapping data) => read host data p.parent
      | .ok _ => return {}

/-- The current context of a file. -/
def load (host : Host) (path : Option String) : Action ClusterContext := do
  let p ← (pathOf host path : Except Failure FilePath)
  loadAt host p

/-- The current context of a file on a system that may refuse to look at it. -/
def loadUnder (refused : Refusals) (host : Host) (path : Option String) :
    Action ClusterContext := do
  let p ← (pathOf host path : Except Failure FilePath)
  match refused.look p with
  | some refusal => throw (.file refusal)
  | none => loadAt host p

/-- The server of the cluster that the program runs in; empty outside of one. -/
def inClusterServer (env : Environment) : String :=
  let name := env.value "KUBERNETES_SERVICE_HOST"
  let portNumber := (env.get? "KUBERNETES_SERVICE_PORT").getD "443"
  if name = "" then ""
  else "https://" ++ (if name.toList.contains ':' then "[" ++ name ++ "]" else name) ++ ":" ++
    portNumber

end Kubeconfig

end PipelineRuns
