import PipelineRuns.Kubeconfig
import PipelineRuns.Settings.Basic

/-!
# The effective namespace

A Repository is looked for in the namespace that the command names, or else in the ambient one: that
of the settings, of the current context of the kubeconfig file, of the service account, or
`default`, whichever comes first. `Namespace.effective` decides between the first two, and
`Namespace.current` finds the ambient one.
-/

namespace PipelineRuns.Namespace

/-- The namespace where nothing names one. -/
def fallback : String := "default"

/-- The namespace that counts: the one named by the command, if it is not empty. -/
def effective (ambient override : String) : String :=
  if override = "" then ambient else override

/-- The namespace of the service account; empty where there is none. -/
def ofServiceAccount (host : Host) : Action String := do
  let path := host.namespaceFile
  if !host.files.isFile path then return ""
  else
    match host.files.readText path with
    | .ok s => return Text.strip s
    | .error (.file fault) =>
      note (.debug "tknpac.namespace" ("Cannot read " ++ path.text ++ ": " ++ fault.message))
      return ""
    | .error f => throw f

/-- The ambient namespace. -/
def current (host : Host) (kube : KubeSettings) : Action String := do
  if kube.ns ≠ "" then return kube.ns
  else
    let context ← Kubeconfig.load host kube.kubeconfig
    if context.ns ≠ "" then return context.ns
    else
      let ns ← ofServiceAccount host
      return if ns = "" then fallback else ns

end PipelineRuns.Namespace
