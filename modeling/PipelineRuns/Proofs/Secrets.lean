import PipelineRuns.Proofs.Credentials
import PipelineRuns.Proofs.Trees

/-!
# The service account stays out of it

In a cluster, a program finds a token and certificates in the files of its service account. They are
meant for the server of that cluster alone. As soon as another server is named, by the settings or
by the current context, what these two files hold and whether they are there has no influence on
anything: on two machines that differ in nothing else, making a client does the same.

The argument is one of reading. Trees that are the same but for places of a kind
(`FileTree.SameBut`) agree on every path that does not lead over such a place
(`FileTree.LeadsOver`), and the paths that are read where a server is named are those of
`Client.Configured`.

Main statement: `Client.ofSettings_of_sameButSecrets`.
-/

namespace PipelineRuns

/-! ### Trees that differ at some places -/

namespace FileTree

/-- Two trees that hold the same except at places of a kind. -/
structure SameBut (kind : Place → Prop) (t t' : FileTree) : Prop where
  here_eq : t'.here = t.here
  get?_eq : ∀ q, ¬ kind q → t'.get? q = t.get? q

/-- A path names a place of a kind if it leads there, or if a beginning of it does. -/
def LeadsOver (t : FileTree) (kind : Place → Prop) (p : FilePath) : Prop :=
  ∃ n q, t.locate ⟨p.root, p.parts.take n⟩ = .ok q ∧ kind q

namespace SameBut

variable {kind : Place → Prop} {t t' : FileTree} {p : FilePath}

/-- Putting something at a place of the kind. -/
theorem put (t : FileTree) {place : Place} (hkind : kind place) (hne : place ≠ []) (e : FileEntry) :
    t.SameBut kind (t.put place e) := by
  refine ⟨rfl, fun q hq => ?_⟩
  rw [get?_put t hne, if_neg]
  rintro rfl
  exact hq hkind

/-- Names lead to the same place in both trees, if they do not lead over one at which the trees
differ. -/
theorem follow_eq (h : t.SameBut kind t') {spot : Place} {names : List String}
    (hfree : ∀ n q, t.follow spot (names.take n) = .ok q → ¬ kind q) :
    t'.follow spot names = t.follow spot names := by
  induction names generalizing spot with
  | nil => rfl
  | cons name rest ih =>
    -- `spot` is where the empty beginning leads, so both trees hold the same there.
    have hspot : t'.get? spot = t.get? spot := h.get?_eq spot (hfree 0 spot rfl)
    unfold follow
    rw [hspot]
    cases hget : t.get? spot with
    | none => rfl
    | some e =>
      cases e with
      | directory =>
        refine ih (fun n q hq => hfree (n + 1) q ?_)
        rw [List.take_succ_cons, follow, hget]
        exact hq
      | file content => rfl
      | damaged => rfl

theorem entryAt_eq (h : t.SameBut kind t') (hfree : ¬ t.LeadsOver kind p) :
    t'.entryAt p = t.entryAt p := by
  have hlocate : t'.locate p = t.locate p := by
    unfold locate
    rw [h.here_eq]
    exact h.follow_eq (fun n q hq hkind => hfree ⟨n, q, hq, hkind⟩)
  unfold entryAt
  rw [hlocate]
  cases hplace : t.locate p with
  | error c => rfl
  | ok q =>
    have hq : ¬ kind q :=
      fun hkind => hfree ⟨p.parts.length, q, by rw [List.take_length]; exact hplace, hkind⟩
    dsimp only
    rw [h.get?_eq q hq]

theorem isFile_eq (h : t.SameBut kind t') (hfree : ¬ t.LeadsOver kind p) :
    t'.isFile p = t.isFile p := by
  unfold isFile
  rw [h.entryAt_eq hfree]

theorem readText_eq (h : t.SameBut kind t') (hfree : ¬ t.LeadsOver kind p) :
    t'.readText p = t.readText p := by
  unfold readText read?
  rw [h.entryAt_eq hfree]

end SameBut

end FileTree

/-! ### Loading the context -/

namespace Kubeconfig

variable {host host' : Host} {base : FilePath}

theorem token_congr {user : Mapping}
    (hread : ∀ path, user.get "tokenFile" = .text path → path ≠ "" →
      host'.files.readText (base.join (FilePath.ofText path)) =
        host.files.readText (base.join (FilePath.ofText path))) :
    token host' base user = token host base user := by
  unfold token
  dsimp only
  split
  · rfl
  · next hown =>
    split
    · next path hpath =>
      -- An empty path does not count as given, so no file is read for it.
      have hne : path ≠ "" := by
        rintro rfl
        rw [hpath] at hown
        exact hown (by simp [Value.isTruthy])
      unfold fileToken
      dsimp only
      rw [hread path hpath hne]
    · rfl

theorem read_congr {data : Mapping}
    (hread : ∀ s path, select data (data.get "current-context") = .ok s →
      s.user.get "tokenFile" = .text path →
      path ≠ "" → host'.files.readText (base.join (FilePath.ofText path)) =
        host.files.readText (base.join (FilePath.ofText path))) :
    read host' data base = read host data base := by
  unfold read
  dsimp only
  split
  · rfl
  · refine Action.lift_bind_congr (fun context hcontext => ?_)
    refine Action.lift_bind_congr (fun cluster hcluster => ?_)
    refine Action.lift_bind_congr (fun authority _ => ?_)
    refine Action.lift_bind_congr (fun user huser => ?_)
    -- Where the token is looked up, all three parts have been found.
    have hs : select data (data.get "current-context") = .ok ⟨context, cluster, user⟩ :=
      select_eq_ok_iff.mpr
        ⟨entries_eq_ok_iff.mp hcontext, entries_eq_ok_iff.mp hcluster, entries_eq_ok_iff.mp huser⟩
    rw [token_congr (hread ⟨context, cluster, user⟩ · hs)]

/-- Loading is the same on two machines if the kubeconfig file is, and the token file that it
names. -/
theorem load_congr {path : Option String} (henv : host'.environment = host.environment)
    (hhomes : host'.homes = host.homes)
    (hfile : ∀ p, pathOf host path = .ok p →
      host'.files.isFile p = host.files.isFile p ∧ host'.files.readText p = host.files.readText p)
    (hread : ∀ p text data s file, pathOf host path = .ok p → host.files.readText p = .ok text →
      Yaml.parse text = .ok (.mapping data) →
      select data (Mapping.get data "current-context") = .ok s →
      s.user.get "tokenFile" = .text file → file ≠ "" →
      host'.files.readText (p.parent.join (FilePath.ofText file)) =
        host.files.readText (p.parent.join (FilePath.ofText file))) :
    load host' path = load host path := by
  -- The load looks at the file, at its text and at the file of the token, in this order, and each
  -- look-up is the same on both machines.
  have hpath : pathOf host' path = pathOf host path := by
    unfold pathOf
    rw [henv, hhomes]
  unfold load
  rw [hpath]
  refine Action.lift_bind_congr (fun p hp => ?_)
  obtain ⟨hisFile, hreadText⟩ := hfile p hp
  unfold loadAt
  rw [hisFile, hreadText]
  split
  · rfl
  cases htext : host.files.readText p with
  | error f =>
    cases f with
    | file fault => rfl
    | _ => rfl
  | ok text =>
    dsimp only
    cases hparse : Yaml.parse text with
    | error f =>
      cases f with
      | notYaml => rfl
      | _ => rfl
    | ok v =>
      cases v with
      | mapping data => exact read_congr (fun s file => hread p text data s file hp htext hparse)
      | _ => rfl

end Kubeconfig

/-! ### Making a client -/

/-- The places of the token and of the certificates of the service account. -/
def Host.IsSecret (host : Host) (q : Place) : Prop :=
  host.files.locate host.tokenFile = .ok q ∨ host.files.locate host.bundleFile = .ok q

/-- Two machines that differ in nothing but the token and the certificates of the service
account. -/
structure Host.SameButSecrets (host host' : Host) : Prop where
  environment_eq : host'.environment = host.environment
  homes_eq : host'.homes = host.homes
  serviceAccount_eq : host'.serviceAccount = host.serviceAccount
  files : host.files.SameBut host.IsSecret host'.files

namespace Client

variable {host host' : Host} {captured : Environment} {settings : Settings} {kube : KubeSettings}

/-- The paths that are configured: that of the kubeconfig file, and those of token files, which the
settings, the environment or the user of the current context name. -/
inductive Configured (host : Host) (captured : Environment) (kube : KubeSettings) : FilePath → Prop
  | kubeconfig {p : FilePath} (hp : Kubeconfig.pathOf host kube.kubeconfig = .ok p) :
      Configured host captured kube p
  | settings {file : String} (hfile : kube.tokenFile = some file) (hne : file ≠ "") :
      Configured host captured kube (FilePath.ofText file)
  | environment (hne : captured.value "KUBE_TOKEN_FILE" ≠ "") :
      Configured host captured kube (FilePath.ofText (captured.value "KUBE_TOKEN_FILE"))
  | user {p : FilePath} {text file : String} {data : Mapping} {s : Kubeconfig.Selection}
      (hp : Kubeconfig.pathOf host kube.kubeconfig = .ok p)
      (hread : host.files.readText p = .ok text) (hparse : Yaml.parse text = .ok (.mapping data))
      (hs : Kubeconfig.select data (Mapping.get data "current-context") = .ok s)
      (hfile : s.user.get "tokenFile" = .text file) (hne : file ≠ "") :
      Configured host captured kube (p.parent.join (FilePath.ofText file))

/-- The settings or the current context name a server. -/
def NamesServer (host : Host) (kube : KubeSettings) : Prop :=
  kube.apiUrl ≠ "" ∨ ∃ context, Kubeconfig.outcome host kube.kubeconfig = .ok context ∧
    context.server ≠ ""

theorem isInCluster_iff {context : ClusterContext} :
    isInCluster kube context = true ↔ kube.apiUrl = "" ∧ context.server = "" := by
  simp [isInCluster]

/-- With a server, a token is not looked for in the service account. -/
theorem tokenOf_congr {context : ClusterContext} (hserver : isInCluster kube context = false)
    (hresolve : Token.resolve captured host'.files kube = Token.resolve captured host.files kube) :
    tokenOf host' captured kube context = tokenOf host captured kube context := by
  unfold tokenOf
  rw [hresolve, hserver]
  simp only [Bool.and_false, Bool.false_and]
  rfl

/-- With a server, certificates are not looked for in the service account. -/
theorem verificationOf_congr {context : ClusterContext}
    (hserver : isInCluster kube context = false) :
    verificationOf host' kube context = verificationOf host kube context := by
  unfold verificationOf
  rw [hserver]
  simp only [Bool.false_and]
  rfl

theorem ofContext_congr {context : ClusterContext} (henv : host'.environment = host.environment)
    (hserver : isInCluster kube context = false)
    (hresolve : Token.resolve captured host'.files kube = Token.resolve captured host.files kube) :
    ofContext host' captured kube context = ofContext host captured kube context := by
  unfold ofContext
  rw [henv, tokenOf_congr hserver hresolve, verificationOf_congr hserver]

/-- A token that the settings and the environment lead to is the same on both machines. -/
theorem resolve_congr
    (hread : ∀ p, Configured host captured kube p →
      host'.files.readText p = host.files.readText p) :
    Token.resolve captured host'.files kube = Token.resolve captured host.files kube := by
  unfold Token.resolve
  -- A token file counts only where no token is given, and the variables only where neither is.
  split
  · rfl
  split
  · next hfile =>
    cases hgiven : kube.tokenFile with
    | none =>
      rw [hgiven] at hfile
      exact absurd rfl hfile
    | some file =>
      rw [hgiven] at hfile
      unfold Token.fileText
      rw [Option.getD_some, hread _ (.settings hgiven hfile)]
  · unfold Token.ofEnvironment
    split
    · rfl
    split
    · next hne =>
      unfold Token.fileText
      rw [hread _ (.environment hne)]
    · rfl

/-- Making a client is the same on two machines that agree on the paths that are configured, if a
server is named. -/
theorem from_ofSettings_congr (henv : host'.environment = host.environment)
    (hhomes : host'.homes = host.homes) (hpaths : ∀ p, Configured host captured settings.kube p →
      host'.files.isFile p = host.files.isFile p ∧ host'.files.readText p = host.files.readText p)
    (hserver : NamesServer host settings.kube) (before : Effects) :
    Action.from before (ofSettings host' captured settings) =
      Action.from before (ofSettings host captured settings) := by
  have hload :
      Kubeconfig.load host' settings.kube.kubeconfig =
        Kubeconfig.load host settings.kube.kubeconfig :=
    Kubeconfig.load_congr henv hhomes (fun p hp => hpaths p (.kubeconfig hp))
      (fun p text data s file hp hread hparse hs hfile hne =>
        (hpaths _ (.user hp hread hparse hs hfile hne)).2)
  rw [ofSettings_eq, ofSettings_eq, hload]
  refine (Kubeconfig.onlyNotes_load host _).from_bind_congr (fun context hcontext => ?_) before
  -- The context is the same on both machines, and with it whether a server is named.
  have hout : isInCluster settings.kube context = false := by
    rw [Bool.eq_false_iff, Ne, isInCluster_iff]
    rintro ⟨hurl, hnone⟩
    rcases hserver with hne | ⟨context', hcontext', hne⟩
    · exact hne hurl
    · obtain rfl : context = context' := Except.ok.inj (hcontext.symm.trans hcontext')
      exact hne hnone
  exact ofContext_congr henv hout (resolve_congr (fun p hp => (hpaths p hp).2))

/-- Where no server is named, that of the cluster around is all that is left. -/
theorem serverOf_of_not_namesServer {context : ClusterContext} (hserver : ¬ NamesServer host kube)
    (hcontext : Kubeconfig.outcome host kube.kubeconfig = .ok context) (env : Environment) :
    serverOf env kube context = Kubeconfig.inClusterServer env := by
  have hurl : kube.apiUrl = "" := Classical.not_not.mp (fun hne => hserver (Or.inl hne))
  have hnone : context.server = "" :=
    Classical.not_not.mp (fun hne => hserver (Or.inr ⟨context, hcontext, hne⟩))
  unfold serverOf firstOf
  rw [hurl, hnone]
  by_cases hcluster : Kubeconfig.inClusterServer env = ""
  · simp [hcluster]
  · simp [hcluster]

/-- **The service account stays out of it.** Let two machines differ in nothing but the token and
the certificates of the service account, and let none of the paths that are configured lead over one
of these files. If the settings or the current context name a server, making a client has the same
result and the same effects on both. If they name none, the server of any client is that of the
cluster around, so the token goes nowhere else. -/
theorem ofSettings_of_sameButSecrets (hsame : host.SameButSecrets host')
    (hpaths : ∀ p, Configured host captured settings.kube p →
      ¬ host.files.LeadsOver host.IsSecret p)
    (before : Effects) :
    (NamesServer host settings.kube →
      Action.from before (ofSettings host' captured settings) =
        Action.from before (ofSettings host captured settings)) ∧
    (¬ NamesServer host settings.kube → ∀ client,
      (Action.from before (ofSettings host captured settings)).1 = .ok client →
        client.server = trimmed (Kubeconfig.inClusterServer host.environment)) := by
  constructor
  · intro hserver
    exact from_ofSettings_congr hsame.environment_eq hsame.homes_eq
      (fun p hp => ⟨hsame.files.isFile_eq (hpaths p hp), hsame.files.readText_eq (hpaths p hp)⟩)
      hserver before
  -- Without a named server the client is made for that of the cluster, which the environment names.
  · intro hnone client hclient
    rw [ofSettings_eq] at hclient
    obtain ⟨context, after, hload, hrest⟩ := Action.exists_of_from_bind hclient
    obtain ⟨records, hnoted⟩ := Kubeconfig.onlyNotes_load host settings.kube.kubeconfig before
    have hcontext : Kubeconfig.outcome host settings.kube.kubeconfig = .ok context :=
      congrArg Prod.fst (hnoted.symm.trans hload)
    obtain ⟨_, _, _, -, -, -, rfl⟩ := exists_of_from_ofContext hrest
    rw [serverOf_of_not_namesServer hnone hcontext]

/-- A machine with the directory of a service account and nothing in it. -/
def emptyPod : Host where
  files := { entries := [(["sa"], .directory)] }
  serviceAccount := FilePath.ofText "/sa"

/-- The same machine with a token of the service account. -/
def pod : Host :=
  { emptyPod with files := emptyPod.files.put ["sa", "token"] (.file (FileTree.encode "secret")) }

/-- Settings that name a server, and a kubeconfig file that is missing. -/
def namingSettings : Settings where
  kube := { apiUrl := "https://elsewhere", kubeconfig := some "/config" }

theorem isSecret_emptyPod {q : Place} :
    emptyPod.IsSecret q ↔ q = ["sa", "token"] ∨ q = ["sa", "ca.crt"] := by
  have htoken : emptyPod.files.locate emptyPod.tokenFile = .ok ["sa", "token"] := by rfl
  have hbundle : emptyPod.files.locate emptyPod.bundleFile = .ok ["sa", "ca.crt"] := by rfl
  unfold Host.IsSecret
  rw [htoken, hbundle, Except.ok.injEq, Except.ok.injEq, eq_comm, @eq_comm _ _ q]

theorem sameButSecrets_pod : emptyPod.SameButSecrets pod :=
  ⟨rfl, rfl, rfl, .put _ (isSecret_emptyPod.mpr (Or.inl rfl)) (List.cons_ne_nil _ _) _⟩

theorem not_leadsOver_emptyPod {p : FilePath} (hp : Configured emptyPod [] namingSettings.kube p) :
    ¬ emptyPod.files.LeadsOver emptyPod.IsSecret p := by
  have hpath :
      Kubeconfig.pathOf emptyPod namingSettings.kube.kubeconfig = .ok ⟨"/", ["config"]⟩ := by rfl
  cases hp with
  | kubeconfig hp =>
    obtain rfl := Except.ok.inj (hpath.symm.trans hp)
    rintro ⟨n, q, hq, hsecret⟩
    rw [isSecret_emptyPod] at hsecret
    cases n with
    | zero =>
      obtain rfl : [] = q := Except.ok.inj hq
      exact absurd hsecret (by decide)
    | succ n =>
      rw [List.take_succ_cons, List.take_nil] at hq
      obtain rfl : ["config"] = q := Except.ok.inj hq
      exact absurd hsecret (by decide)
  | settings hfile => exact nomatch hfile
  | environment hne => exact absurd rfl hne
  | user hp hread =>
    obtain rfl := Except.ok.inj (hpath.symm.trans hp)
    exact nomatch hread

/-- The main statement on the two machines. -/
theorem ofSettings_pod :
    emptyPod.SameButSecrets pod ∧
      (∀ p, Configured emptyPod [] namingSettings.kube p →
        ¬ emptyPod.files.LeadsOver emptyPod.IsSecret p) ∧
      NamesServer emptyPod namingSettings.kube ∧
      Action.from {} (ofSettings pod [] namingSettings) =
        Action.from {} (ofSettings emptyPod [] namingSettings) := by
  have hserver : NamesServer emptyPod namingSettings.kube := Or.inl (by decide)
  exact ⟨sameButSecrets_pod, fun _ => not_leadsOver_emptyPod, hserver,
    (ofSettings_of_sameButSecrets sameButSecrets_pod (fun _ => not_leadsOver_emptyPod) {}).1
    hserver⟩

end Client

end PipelineRuns
