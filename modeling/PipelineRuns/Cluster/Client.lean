import PipelineRuns.Json
import PipelineRuns.Kubeconfig
import PipelineRuns.Repository
import PipelineRuns.Settings.Load
import PipelineRuns.Settings.Token

/-!
# Asking a cluster

A `Client` holds what a request to a cluster needs: the server, the header that carries the token,
how the server's certificate is checked, and a timeout. `Client.ofSettings` makes one from the
settings, the current context of the kubeconfig file and, inside a cluster, the service account, in
this order of precedence.

Certificates that the kubeconfig holds as data are written to a temporary file. The client owns it,
and `Client.close` removes it; where no client comes about, it is removed at once.

`Client.fetch` sends one request and reads the reply. Replies come from outside: a `Wire` answers
requests.
-/

namespace PipelineRuns

/-- How the certificate of a server is checked. -/
inductive Verification where
  | off
  | systemRoots
  | bundle (path : String)
  /-- A temporary file of this number. -/
  | temporary (number : Nat)
  deriving DecidableEq, Repr

/-- What comes back for a request. -/
inductive Reply where
  | response (status : Int) (reason body : String)
  /-- No response, for this reason. -/
  | broken (reason : String)
  /-- The user did not wait for it. -/
  | interrupted
  deriving DecidableEq, Repr

/-- The outside world, as far as it answers requests. -/
abbrev Wire := Request → Reply

/-- What a request to a cluster needs. -/
structure Client where
  server : String
  authorization : Option String := none
  verification : Verification := .systemRoots
  timeout : Int := 30
  /-- The temporary file that the client owns. -/
  temporary : Option Nat := none
  deriving DecidableEq, Repr

namespace Client

/-- The kind of content that is asked for. -/
def accept : String := "application/json"

/-- The channel of the notes on clusters. -/
def channel : String := "tknpac.adapters.kubernetes"

/-- An address without the slashes at its end. -/
def trimmed (url : String) : String :=
  String.ofList (Text.dropSlashes url.toList)

/-- A client for a server; there has to be one. -/
def make (url : String) (token : Option String) (verification : Verification) (timeout : Int) :
    Except Failure Client :=
  if url = "" then .error (.fetch .noServer)
  else .ok ⟨trimmed url, (token.filter (· ≠ "")).map ("Bearer " ++ ·), verification, timeout, none⟩

/-! ### From settings -/

/-- The first text that is not empty. -/
def firstOf (texts : List String) : String :=
  (texts.find? (· ≠ "")).getD ""

/-- Whether neither the settings nor the context name a server, so that it is that of the cluster
around. -/
def isInCluster (kube : KubeSettings) (context : ClusterContext) : Bool :=
  kube.apiUrl = "" && context.server = ""

/-- The server. -/
def serverOf (env : Environment) (kube : KubeSettings) (context : ClusterContext) : String :=
  firstOf [kube.apiUrl, context.server, Kubeconfig.inClusterServer env]

/-- The token of the settings, of the context, or of the service account. -/
def tokenOf (host : Host) (captured : Environment) (kube : KubeSettings)
    (context : ClusterContext) : Except Failure (Option String) := do
  let configured ← Token.resolve captured host.files kube
  let token := if configured.getD "" = "" then context.token else configured
  -- The token of the service account is for the server of the cluster around, and for no other.
  if token.getD "" = "" && isInCluster kube context && host.files.isFile host.tokenFile then
    return some (Text.strip (← host.files.readText host.tokenFile))
  else return token

/-- A temporary file with the certificates that a text holds in Base64, blanks apart. -/
def createBundle (data : String) : Action Verification := do
  match Base64.decode (Text.withoutBlanks data.toList) with
  | .error fault => throw (.fetch (.badBundle fault))
  | .ok content =>
    let effects ← get
    let (number, bundles) := effects.bundles.create content
    set { effects with bundles := bundles }
    return .temporary number

/-- Removes a temporary file. -/
def removeBundle (number : Nat) : Action Unit :=
  modify (fun e => { e with bundles := e.bundles.remove number })

/-- How the certificate of the server is checked. -/
def verificationOf (host : Host) (kube : KubeSettings) (context : ClusterContext) :
    Action Verification :=
  -- Either of the two can switch the check off.
  if !kube.verify || context.insecure then return .off
  else if kube.bundle.getD "" ≠ "" then return .bundle (kube.bundle.getD "")
  else if context.certificateAuthority.getD "" ≠ "" then
    return .bundle (context.certificateAuthority.getD "")
  else if context.certificateAuthorityData.getD "" ≠ "" then
    createBundle (context.certificateAuthorityData.getD "")
  else if isInCluster kube context && host.files.isFile host.bundleFile then
    return .bundle host.bundleFile.text
  else return .systemRoots

/-- The temporary file among the ways to check a certificate. -/
def temporaryOf : Verification → Option Nat
  | .temporary number => some number
  | _ => none

/-- The client that settings lead to. -/
def ofSettings (host : Host) (captured : Environment) (settings : Settings) : Action Client := do
  let kube := settings.kube
  let context ← Kubeconfig.load host kube.kubeconfig
  let server := serverOf host.environment kube context
  let token ← (tokenOf host captured kube context : Except Failure (Option String))
  let verification ← verificationOf host kube context
  note (.debug channel ("Using API server " ++ server ++ " (context=" ++
    (if context.name = "" then "-" else context.name) ++ ")"))
  match make server token verification kube.timeout with
  | .ok client => return { client with temporary := temporaryOf verification }
  -- No client is there to own the temporary file, so it is removed at once.
  | .error f =>
    match temporaryOf verification with
    | some number => removeBundle number
    | none => pure ()
    throw f

/-- Gives up a client: its temporary file is removed. -/
def close (client : Client) : Action Client := do
  match client.temporary with
  | some number => removeBundle number
  | none => pure ()
  return { client with temporary := none }

/-! ### Requests -/

/-- The path of a Repository on a server. -/
def path (name ns : String) : String :=
  "/apis/" ++ Repository.group ++ "/" ++ Repository.version ++ "/namespaces/" ++ ns ++ "/" ++
    Repository.plural ++ "/" ++ name

/-- The request for a Repository. -/
def request (client : Client) (name ns : String) : Request :=
  ⟨"GET", client.server ++ path name ns, client.timeout⟩

/-- What a response that refuses a request says: the message in its body, or else the body, the
reason or the status. -/
def complaint (status : Int) (reason body : String) : Except Failure String :=
  match Json.parse body with
  | some (.mapping m) =>
    match Mapping.get? m "message" with
    -- The message counts as it is shown, be it a text or not.
    | some v => .ok v.shown
    | none => .ok (firstOf [body, reason, toString status])
  | some _ => .error .notMapping
  | none => .ok (firstOf [body, reason, toString status])

/-- The Repository in a reply. -/
def interpret (client : Client) (name ns : String) : Reply → Action Repository
  | .interrupted => throw .interrupted
  | .broken reason => throw (.fetch (.unreachable client.server reason))
  | .response status reason body =>
    if status = 404 then throw (.fetch (.notFound name ns))
    else if 400 ≤ status then do
      let message ← (complaint status reason body : Except Failure String)
      throw (.fetch (.refused status message))
    else
      match Json.parse body with
      | none => throw .notJson
      | some (.mapping m) => Repository.ofResource m
      | some _ => throw .notMapping

/-- Asks for a Repository. -/
def fetch (client : Client) (wire : Wire) (name ns : String) : Action Repository := do
  note (.debug channel ("GET " ++ path name ns))
  send (client.request name ns)
  client.interpret name ns (wire (client.request name ns))

end Client

end PipelineRuns
