import PipelineRuns.Cluster.Client
import PipelineRuns.Proofs.Contexts
import PipelineRuns.Proofs.Text

/-!
# Whose credentials a client uses

A client takes its server, its token and the way in which certificates are checked from the
settings, the current context of the kubeconfig file and the service account. Once the context is
loaded, the rest is `Client.ofContext`, which this module takes apart: what the settings give is
what counts, in each of the three.

There is one exception. A context can ask for certificates not to be checked at all, and then they
are not, whatever bundle the settings name.

Main statement: `Client.from_ofSettings_given`. A client that checks nothing although its settings
name a bundle is seen after it.
-/

namespace PipelineRuns.Client

variable {host : Host} {captured : Environment} {settings : Settings} {kube : KubeSettings}
  {context : ClusterContext} {before : Effects}

/-! ### After the context is loaded -/

/-- The note on the server that is used. -/
def remark (server : String) (context : ClusterContext) : Record :=
  .debug channel ("Using API server " ++ server ++ " (context=" ++
    (if context.name = "" then "-" else context.name) ++ ")")

/-- The client that settings and a context lead to. -/
def ofContext (host : Host) (captured : Environment) (kube : KubeSettings)
    (context : ClusterContext) : Action Client := do
  let server := serverOf host.environment kube context
  let token ← (tokenOf host captured kube context : Except Failure (Option String))
  let verification ← verificationOf host kube context
  note (remark server context)
  match make server token verification kube.timeout with
  | .ok client => return { client with temporary := temporaryOf verification }
  | .error f =>
    match temporaryOf verification with
    | some number => removeBundle number
    | none => pure ()
    throw f

theorem ofSettings_eq (host : Host) (captured : Environment) (settings : Settings) :
    ofSettings host captured settings =
      Kubeconfig.load host settings.kube.kubeconfig >>= ofContext host captured settings.kube := rfl

/-- A context that is loaded is all that loading leaves behind, notes apart. -/
theorem from_ofSettings (hcontext : Kubeconfig.outcome host settings.kube.kubeconfig = .ok context)
    (captured : Environment) (before : Effects) :
    ∃ records, Action.from before (ofSettings host captured settings) =
      Action.from { before with journal := before.journal ++ records }
        (ofContext host captured settings.kube context) := by
  obtain ⟨records, hload⟩ := Kubeconfig.onlyNotes_load host settings.kube.kubeconfig before
  refine ⟨records, ?_⟩
  have hresult : (Kubeconfig.load host settings.kube.kubeconfig).result = .ok context := hcontext
  rw [ofSettings_eq, Action.from_bind, hload, hresult]

/-- A server is all that a client needs. -/
theorem make_of_ne {url : String} (hne : url ≠ "") (token : Option String)
    (verification : Verification) (timeout : Int) : make url token verification timeout =
      .ok ⟨trimmed url, (token.filter (· ≠ "")).map ("Bearer " ++ ·), verification, timeout,
        none⟩ :=
  if_neg hne

/-- A context that comes with a server gives a client. -/
theorem from_ofContext_of_server {token : Option String} {v : Verification} {after : Effects}
    (htoken : tokenOf host captured kube context = .ok token)
    (hverification : Action.from before (verificationOf host kube context) = (.ok v, after))
    (hserver : serverOf host.environment kube context ≠ "") :
    Action.from before (ofContext host captured kube context) =
      (.ok ⟨trimmed (serverOf host.environment kube context),
          (token.filter (· ≠ "")).map ("Bearer " ++ ·), v, kube.timeout, temporaryOf v⟩,
        { after with
          journal := after.journal ++ [remark (serverOf host.environment kube context) context]
            }) := by
  unfold ofContext
  simp only [Action.from_bind, Action.from_lift, htoken, hverification, Action.from_note,
    make_of_ne hserver]
  rfl

/-- A client comes about in this way only. -/
theorem exists_of_from_ofContext {client : Client}
    (h : (Action.from before (ofContext host captured kube context)).1 = .ok client) :
    ∃ token v after, tokenOf host captured kube context = .ok token ∧
      Action.from before (verificationOf host kube context) = (.ok v, after) ∧
      serverOf host.environment kube context ≠ "" ∧
      client = ⟨trimmed (serverOf host.environment kube context),
        (token.filter (· ≠ "")).map ("Bearer " ++ ·), v, kube.timeout, temporaryOf v⟩ := by
  have hclient := h
  unfold ofContext at h
  obtain ⟨token, after, hlift, h⟩ := Action.exists_of_from_bind h
  obtain ⟨htoken, rfl⟩ := Prod.mk.inj ((Action.from_lift _ _).symm.trans hlift)
  obtain ⟨v, after, hverification, h⟩ := Action.exists_of_from_bind h
  obtain ⟨_, noted, -, h⟩ := Action.exists_of_from_bind h
  -- Without a server there is a failure, after a temporary file was removed if there was one.
  have hserver : serverOf host.environment kube context ≠ "" := by
    intro hempty
    rw [make, if_pos hempty] at h
    cases htemporary : temporaryOf v with
    | none =>
      rw [htemporary] at h
      exact nomatch h
    | some number =>
      rw [htemporary] at h
      exact nomatch h
  refine ⟨token, v, after, htoken, hverification, hserver, ?_⟩
  rw [from_ofContext_of_server htoken hverification hserver] at hclient
  exact (Except.ok.inj hclient).symm

/-! ### What the settings give -/

theorem serverOf_of_apiUrl (env : Environment) (context : ClusterContext) (h : kube.apiUrl ≠ "") :
    serverOf env kube context = kube.apiUrl := by
  simp [serverOf, firstOf, h]

theorem tokenOf_of_isUsable (h : Token.isUsable (kube.token.getD "") = true) :
    tokenOf host captured kube context = .ok kube.token := by
  have hne : kube.token.getD "" ≠ "" := by
    intro hempty
    rw [hempty] at h
    exact absurd h (by decide)
  unfold tokenOf Token.resolve
  rw [if_pos h]
  -- A token that is usable is not empty, so neither the context nor the service account is asked.
  have htoken : (if kube.token.getD "" = "" then context.token else kube.token) = kube.token :=
    if_neg hne
  change (if _ then _ else _) = _
  rw [htoken, if_neg (by simp [hne])]
  rfl

theorem verificationOf_of_bundle (hverify : kube.verify = true)
    (hbundle : kube.bundle.getD "" ≠ "") :
    verificationOf host kube context =
      pure (if context.insecure then .off else .bundle (kube.bundle.getD "")) := by
  unfold verificationOf
  rw [hverify]
  cases context.insecure with
  | true => rfl
  | false => simp [hbundle]

theorem trimmed_spec (url : String) :
    (∃ n, url = trimmed url ++ String.ofList (List.replicate n '/')) ∧
      (trimmed url).toList.getLast? ≠ some '/' := by
  obtain ⟨⟨n, hn⟩, hlast⟩ := Text.dropSlashes_spec url.toList
  unfold trimmed
  rw [String.toList_ofList]
  refine ⟨⟨n, ?_⟩, hlast⟩
  rw [← String.ofList_append, ← hn, String.ofList_toList]

/-- Settings that give everything: a server, a token that is no placeholder, and a bundle against
which certificates are to be checked. -/
structure Given (kube : KubeSettings) (token bundle : String) : Prop where
  server : kube.apiUrl ≠ ""
  hasToken : kube.token = some token
  token_ne : token ≠ ""
  token_literal : ¬ "$\x7b".toList <+: token.toList
  hasBundle : kube.bundle = some bundle
  bundle_ne : bundle ≠ ""
  verify : kube.verify = true

/-- The client of such settings. -/
def givenClient (kube : KubeSettings) (token bundle : String) (context : ClusterContext) :
    Client where
  server := trimmed kube.apiUrl
  authorization := some ("Bearer " ++ token)
  verification := if context.insecure then .off else .bundle bundle
  timeout := kube.timeout

namespace Given

variable {token bundle : String}

theorem isUsable (h : Given kube token bundle) : Token.isUsable (kube.token.getD "") = true := by
  have hliteral : "$\x7b".toList.isPrefixOf token.toList = false := by
    rw [Bool.eq_false_iff]
    exact fun hprefix => h.token_literal (List.isPrefixOf_iff_prefix.mp hprefix)
  rw [h.hasToken, Option.getD_some, Token.isUsable, hliteral]
  simp [h.token_ne]

theorem getD_bundle (h : Given kube token bundle) : kube.bundle.getD "" = bundle := by
  rw [h.hasBundle]
  rfl

/-- Where the settings give everything, the context decides on nothing but whether certificates are
checked. -/
theorem from_ofContext (h : Given kube token bundle) (host : Host) (captured : Environment)
    (context : ClusterContext) (before : Effects) :
    Action.from before (ofContext host captured kube context) =
      (.ok (givenClient kube token bundle context),
        { before with journal := before.journal ++ [remark kube.apiUrl context] }) := by
  have hbundle : kube.bundle.getD "" ≠ "" := h.getD_bundle ▸ h.bundle_ne
  have htoken : tokenOf host captured kube context = .ok (some token) := by
    rw [tokenOf_of_isUsable h.isUsable, h.hasToken]
  have hserver := serverOf_of_apiUrl host.environment context h.server
  have hverification : Action.from before (verificationOf host kube context) =
      (.ok (if context.insecure then .off else .bundle bundle), before) := by
    rw [verificationOf_of_bundle h.verify hbundle, Action.from_pure, h.getD_bundle]
  rw [from_ofContext_of_server htoken hverification (hserver ▸ h.server), hserver]
  unfold givenClient
  cases context.insecure with
  | true => simp [h.token_ne, temporaryOf]
  | false => simp [h.token_ne, temporaryOf]

end Given

/-- **What the settings give is what a client uses.** Whatever the kubeconfig file holds from which
a context is loaded, a client comes about without any temporary file; its server is the one given,
without the slashes at its end, its token the one given, and certificates are checked against the
bundle given, unless the context asks for none to be checked. -/
theorem from_ofSettings_given {token bundle : String} (hgiven : Given settings.kube token bundle)
    (hcontext : Kubeconfig.outcome host settings.kube.kubeconfig = .ok context)
    (captured : Environment) (before : Effects) :
    ∃ client records, Action.from before (ofSettings host captured settings) =
        (.ok client, { before with journal := before.journal ++ records }) ∧
      (∃ n, settings.kube.apiUrl = client.server ++ String.ofList (List.replicate n '/')) ∧
      client.server.toList.getLast? ≠ some '/' ∧
      client.authorization = some ("Bearer " ++ token) ∧
      client.verification = (if context.insecure then .off else .bundle bundle) ∧
      client.temporary = none := by
  obtain ⟨records, hload⟩ := from_ofSettings hcontext captured before
  obtain ⟨hslashes, hlast⟩ := trimmed_spec settings.kube.apiUrl
  refine ⟨givenClient settings.kube token bundle context,
    records ++ [remark settings.kube.apiUrl context], ?_, hslashes, hlast, rfl, rfl, rfl⟩
  rw [hload, hgiven.from_ofContext, List.append_assoc]

/-- A kubeconfig file whose current context asks for certificates not to be checked, and says no
more. -/
def laxKubeconfig : String :=
  "current-context: a\ncontexts:\n- name: a\n  context:\n    cluster: a\n" ++
    "clusters:\n- name: a\n  cluster:\n    insecure-skip-tls-verify: true\n"

/-- A machine with this file. -/
def laxHost : Host where
  files := { entries := [(["config"], .file (FileTree.encode laxKubeconfig))] }

/-- Settings that give everything. -/
def fullSettings : Settings where
  kube :=
    { apiUrl := "https://here/", token := some "t", bundle := some "/ca.pem",
      kubeconfig := some "/config" }

theorem given_fullSettings : Given fullSettings.kube "t" "/ca.pem" :=
  ⟨by decide, rfl, by decide, by decide, rfl, by decide, rfl⟩

theorem outcome_laxHost :
    Kubeconfig.outcome laxHost fullSettings.kube.kubeconfig =
      .ok { name := "a", insecure := true } := by
  have hpath :
      Kubeconfig.pathOf laxHost fullSettings.kube.kubeconfig = .ok ⟨"/", ["config"]⟩ := by rfl
  have hentry :
      laxHost.files.entryAt ⟨"/", ["config"]⟩ = .ok (.file (FileTree.encode laxKubeconfig)) := by
    rfl
  have hread := FileTree.readText_of_entryAt hentry (by decide)
  rw [Kubeconfig.outcome_of_pathOf hpath, Kubeconfig.outcomeAt, hread]
  exact eq_ok_of_toOption (by decide +kernel)

/-- The main statement on a machine whose context asks for certificates not to be checked. -/
theorem from_ofSettings_fullSettings :
    Given fullSettings.kube "t" "/ca.pem" ∧
      Kubeconfig.outcome laxHost fullSettings.kube.kubeconfig =
        .ok { name := "a", insecure := true } ∧
      ∃ client records,
        Action.from {} (ofSettings laxHost [] fullSettings) = (.ok client, { journal := records }) ∧
        (∃ n, fullSettings.kube.apiUrl = client.server ++ String.ofList (List.replicate n '/')) ∧
        client.server.toList.getLast? ≠ some '/' ∧ client.authorization = some ("Bearer " ++ "t") ∧
        client.verification = .off ∧ client.temporary = none :=
  ⟨given_fullSettings, outcome_laxHost,
    from_ofSettings_given given_fullSettings outcome_laxHost [] {}⟩

/-- A context can keep a client from checking certificates against the bundle that its settings
give. -/
theorem verification_not_determined_by_settings :
    ¬ ∀ (host : Host) (captured : Environment) (settings : Settings) (context : ClusterContext)
        (token bundle : String), Given settings.kube token bundle →
      Kubeconfig.outcome host settings.kube.kubeconfig = .ok context →
      ∃ client, (ofSettings host captured settings).result = .ok client ∧
        client.verification = .bundle bundle := by
  intro hall
  have hgiven := hall laxHost [] fullSettings _ "t" "/ca.pem" given_fullSettings outcome_laxHost
  obtain ⟨records, hload⟩ := from_ofSettings outcome_laxHost [] {}
  rw [Action.result, Action.execute, hload, given_fullSettings.from_ofContext] at hgiven
  obtain ⟨client, hclient, hbundle⟩ := hgiven
  obtain rfl := Except.ok.inj hclient
  exact nomatch hbundle

end PipelineRuns.Client
