import PipelineRuns.Files.Tree

/-!
# Hosts

A `Host` is what the program can see of the machine that it runs on: its environment, its files, the
homes of its users, and the directory in which a cluster puts the credentials of a service account.
-/

namespace PipelineRuns

/-- The surroundings that results can depend on. -/
structure Host where
  environment : Environment := []
  files : FileTree := {}
  homes : Homes := {}
  serviceAccount : FilePath := FilePath.ofText "/var/run/secrets/kubernetes.io/serviceaccount"
  deriving DecidableEq, Repr

namespace Host

/-- The file with the namespace of the service account. -/
def namespaceFile (h : Host) : FilePath := h.serviceAccount.child "namespace"

/-- The file with the token of the service account. -/
def tokenFile (h : Host) : FilePath := h.serviceAccount.child "token"

/-- The file with the certificates of the cluster. -/
def bundleFile (h : Host) : FilePath := h.serviceAccount.child "ca.crt"

end Host

end PipelineRuns
