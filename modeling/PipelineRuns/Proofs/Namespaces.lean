import PipelineRuns.Namespace
import PipelineRuns.Proofs.Contexts
import PipelineRuns.Proofs.Faults

/-!
# The ambient namespace

Looking for the ambient namespace reads files and notes what is wrong with them, and does nothing
else (`Namespace.onlyNotes_current`). It can fail, on what a kubeconfig file holds and on a file
that is not UTF-8, but never as a fetch does (`Namespace.failsOnly_current`): a failed fetch is a
matter of the source.
-/

namespace PipelineRuns

/-- A failure that is not one to fetch a Repository. -/
def Failure.IsNoFetch (f : Failure) : Prop := ∀ reason, f ≠ .fetch reason

/-- The failures of reading a file as a text. -/
theorem FileTree.failsOnly_readText (t : FileTree) (p : FilePath) :
    FailsOnly Failure.IsNoFetch (t.readText p) := by
  unfold readText
  split
  · exact .error (fun _ h => nomatch h)
  split
  · exact .error (fun _ h => nomatch h)
  · next content _ =>
    cases hdecode : decode content with
    | ok s => exact .ok _
    | error f =>
      rw [notUtf8_of_decode hdecode]
      exact .error (fun _ h => nomatch h)

/-- A text that is no YAML is no failed fetch. -/
theorem Yaml.IsFault.isNoFetch {f : Failure} (h : IsFault f) : f.IsNoFetch := by
  rintro reason rfl
  exact nomatch h

namespace Kubeconfig

variable (host : Host) (path : Option String)

/-- A home that is not known, or has no meaning, has nothing to do with a fetch. -/
theorem failsOnly_expandUser (homes : Homes) (env : Environment) (p : FilePath) :
    FailsOnly Failure.IsNoFetch (p.expandUser homes env) := by
  have hself : FailsOnly Failure.IsNoFetch (homes.ofSelf env) := by
    unfold Homes.ofSelf
    split
    · exact .ok _
    split
    · exact .ok _
    · exact .error (fun _ h => nomatch h)
  have huser (name : String) : FailsOnly Failure.IsNoFetch (homes.ofUser name) := by
    unfold Homes.ofUser
    split
    · exact .error (fun _ h => nomatch h)
    split
    · exact .ok _
    · exact .error (fun _ h => nomatch h)
  have hname (name : List Char) : FailsOnly Failure.IsNoFetch (homes.ofName env name) := by
    unfold Homes.ofName
    split
    · exact hself
    · exact huser _
  -- Only a path that begins with a tilde looks for a home.
  unfold FilePath.expandUser
  split
  case h_2 => exact .ok _
  split
  · exact .ok _
  split
  case h_2 => exact .ok _
  refine .bind (hname _) (fun home => ?_)
  split
  · exact .error (fun _ h => nomatch h)
  · exact .ok _

/-- Neither has the path of the file. -/
theorem failsOnly_pathOf : FailsOnly Failure.IsNoFetch (pathOf host path) := by
  unfold pathOf
  split
  · exact failsOnly_expandUser _ _ _
  · unfold defaultPath
    split
    · exact failsOnly_expandUser _ _ _
    · exact .bind (failsOnly_expandUser _ _ _) (fun _ => .ok _)

/-- Neither has the token of the user, wherever it comes from. -/
theorem failsOnly_token (base : FilePath) (user : Mapping) :
    (token host base user).FailsOnly Failure.IsNoFetch := by
  unfold token
  dsimp only
  split
  · exact .pure _
  split
  · next path _ =>
    unfold fileToken
    dsimp only
    split
    · exact .pure _
    · exact .bind (.note _) (fun _ => .pure _)
    · next f _ hread => exact .throw (host.files.failsOnly_readText _ f hread)
  · exact .throw (fun _ h => nomatch h)

theorem failsOnly_read (data : Mapping) (base : FilePath) :
    (read host data base).FailsOnly Failure.IsNoFetch := by
  have hentries (v : Value) : FailsOnly Failure.IsNoFetch (entries v) := by
    unfold entries
    split
    · exact .ok _
    · exact .error (fun _ h => nomatch h)
  have hauthority (v : Value) : FailsOnly Failure.IsNoFetch (authorityPath base v) := by
    unfold authorityPath
    split
    · split
      · exact .ok _
      · exact .error (fun _ h => nomatch h)
    · exact .ok _
  unfold read
  dsimp only
  split
  · exact .pure _
  -- The five steps and the six fields fail for reasons of their own, none of which is a fetch.
  refine .bind (.lift (hentries _)) (fun context => .bind (.lift (hentries _)) (fun cluster =>
    .bind (.lift (hauthority _)) (fun authority => .bind (.lift (hentries _)) (fun user =>
    .bind (failsOnly_token host base user) (fun token => .lift ?_)))))
  unfold ofFields
  split
  · exact .ok _
  · exact .error (fun _ h => nomatch h)

/-- Loading a kubeconfig file fails for other reasons than a fetch. -/
theorem failsOnly_load : (load host path).FailsOnly Failure.IsNoFetch := by
  refine .bind (.lift (failsOnly_pathOf host path)) (fun p => ?_)
  unfold loadAt
  split
  · exact .pure _
  split
  · exact .bind (.note _) (fun _ => .pure _)
  · next f _ hread => exact .throw (host.files.failsOnly_readText p f hread)
  · next text _ =>
    split
    · exact .bind (.note _) (fun _ => .pure _)
    · next f _ hparse => exact .throw (Yaml.failsOnly_parse text f hparse).isNoFetch
    · exact failsOnly_read host _ _
    · exact .pure _

end Kubeconfig

namespace Namespace

variable (host : Host) (kube : KubeSettings)

/-- The service account is looked at, and nothing is changed. -/
theorem onlyNotes_ofServiceAccount : (ofServiceAccount host).OnlyNotes := by
  unfold ofServiceAccount
  dsimp only
  split
  · exact .pure _
  split
  · exact .pure _
  · exact .bind (.note _) (fun _ => .pure _)
  · exact .throw _

theorem failsOnly_ofServiceAccount : (ofServiceAccount host).FailsOnly Failure.IsNoFetch := by
  unfold ofServiceAccount
  dsimp only
  split
  · exact .pure _
  split
  · exact .pure _
  · exact .bind (.note _) (fun _ => .pure _)
  · next f _ hread => exact .throw (host.files.failsOnly_readText _ f hread)

theorem onlyNotes_current : (current host kube).OnlyNotes := by
  unfold current
  split
  · exact .pure _
  refine .bind (Kubeconfig.onlyNotes_load host kube.kubeconfig) (fun context => ?_)
  split
  · exact .pure _
  · exact .bind (onlyNotes_ofServiceAccount host) (fun _ => .pure _)

/-- The namespace is found without a fetch. -/
theorem failsOnly_current : (current host kube).FailsOnly Failure.IsNoFetch := by
  unfold current
  split
  · exact .pure _
  refine .bind (Kubeconfig.failsOnly_load host kube.kubeconfig) (fun context => ?_)
  split
  · exact .pure _
  · exact .bind (failsOnly_ofServiceAccount host) (fun _ => .pure _)

end Namespace

end PipelineRuns
