import PipelineRuns.Proofs.Descriptions

/-!
# Where a description fetches from

A description is about one namespace, and five places can name it: the command itself, the settings,
the current context of the kubeconfig file, the file of the service account, and at last the name
`default`. Each of them may say nothing. They do so in different ways: an option that is absent or
empty, a context that does not exist, a file that is missing, is not delivered, or is blank. What a
place says is a text here, and the empty text stands for nothing (`Describe.Candidates`). The
namespace is the first text that is not empty (`IsFirstGiven`).

That a description fetches from a namespace is said of what it ends in (`Describe.FetchesFrom`):
whatever source it is handed, and whichever it opens by itself, it ends as the fetch from this
namespace ends. A source that tells namespaces apart shows that this can be so of one namespace only
(`Describe.FetchesFrom.eq`).

Main statement: `Describe.fetchesFrom_iff`. A machine where only the service account names a
namespace is seen after it.
-/

namespace PipelineRuns

/-! ### The first text that is given -/

/-- The first of some texts that is not empty. -/
inductive IsFirstGiven : List String → String → Prop
  | here {s : String} (rest : List String) (h : s ≠ "") : IsFirstGiven (s :: rest) s
  | later {rest : List String} {s : String} (h : IsFirstGiven rest s) : IsFirstGiven ("" :: rest) s

namespace IsFirstGiven

variable {texts rest rest' shared : List String} {s t : String}

theorem ne_empty (h : IsFirstGiven texts s) : s ≠ "" := by
  induction h with
  | here _ h => exact h
  | later _ ih => exact ih

theorem eq (h : IsFirstGiven texts s) (h' : IsFirstGiven texts t) : s = t := by
  induction h with
  | here _ hs =>
    cases h' with
    | here => rfl
    | later => exact absurd rfl hs
  | later _ ih =>
    cases h' with
    | here _ ht => exact absurd rfl ht
    | later ht => exact ih ht

/-- What follows a text that is given does not matter. -/
theorem append_congr (h : IsFirstGiven (shared ++ rest) s) (hgiven : ∃ t ∈ shared, t ≠ "") :
    IsFirstGiven (shared ++ rest') s := by
  induction shared with
  | nil =>
    obtain ⟨t, ht, -⟩ := hgiven
    exact nomatch ht
  | cons first others ih =>
    rw [List.cons_append] at h ⊢
    cases h with
    | here _ hs => exact .here _ hs
    | later h =>
      obtain ⟨t, ht, hne⟩ := hgiven
      have hothers : t ∈ others := (List.mem_cons.mp ht).resolve_left hne
      exact .later (ih h ⟨t, hothers, hne⟩)

/-- An empty text leaves the choice to those that follow it. -/
theorem cons (h : IsFirstGiven rest s) (first : String) :
    IsFirstGiven (first :: rest) (if first = "" then s else first) := by
  split
  · next hempty =>
    subst hempty
    exact .later h
  · next hgiven => exact .here rest hgiven

end IsFirstGiven

/-! ### The ambient namespace -/

namespace Namespace

variable {host : Host} {kube : KubeSettings} {context : ClusterContext} {account : String}

/-- What the service account says on its namespace: nothing where its file is missing or is not
delivered, and otherwise the content of that file without the blanks around it. -/
inductive OfServiceAccount (host : Host) : String → Prop
  | missing (hfile : host.files.isFile host.namespaceFile = false) : OfServiceAccount host ""
  | undelivered {fault : FileFault} (hfile : host.files.isFile host.namespaceFile = true)
      (hread : host.files.readText host.namespaceFile = .error (.file fault)) :
      OfServiceAccount host ""
  | content {s : String} (hfile : host.files.isFile host.namespaceFile = true)
      (hread : host.files.readText host.namespaceFile = .ok s) :
      OfServiceAccount host (Text.strip s)

theorem OfServiceAccount.result_eq (h : OfServiceAccount host account) :
    (ofServiceAccount host).result = .ok account := by
  unfold ofServiceAccount
  dsimp only
  cases h with
  | missing hfile =>
    rw [hfile]
    rfl
  | undelivered hfile hread =>
    rw [hfile, hread]
    rfl
  | content hfile hread =>
    rw [hfile, hread]
    rfl

/-- Each place is asked only if those before it say nothing. -/
theorem result_current (hcontext : Kubeconfig.outcome host kube.kubeconfig = .ok context)
    (haccount : OfServiceAccount host account) :
    (current host kube).result =
      .ok (if kube.ns = "" then
          if context.ns = "" then if account = "" then fallback else account else context.ns
        else kube.ns) := by
  have hservice :
      (ofServiceAccount host >>= fun ns => pure (if ns = "" then fallback else ns)).result =
      .ok (if account = "" then fallback else account) := by
    rw [(onlyNotes_ofServiceAccount host).result_bind (fun _ => .pure _), haccount.result_eq]
    rfl
  unfold current
  by_cases hconfigured : kube.ns = ""
  · rw [if_neg (not_not_intro hconfigured), if_pos hconfigured]
    have hload : (Kubeconfig.load host kube.kubeconfig).result = .ok context := hcontext
    -- The load of the context only notes, so its result decides what comes next.
    rw [(Kubeconfig.onlyNotes_load host kube.kubeconfig).result_bind (fun c => ?_), hload]
    · change Action.result (if context.ns ≠ "" then _ else _) = _
      by_cases hns : context.ns = ""
      · rw [if_neg (not_not_intro hns), if_pos hns]
        exact hservice
      · rw [if_pos hns, if_neg hns]
        rfl
    · split
      · exact .pure _
      · exact .bind (onlyNotes_ofServiceAccount host) (fun _ => .pure _)
  · rw [if_pos hconfigured, if_neg hconfigured]
    rfl

/-- The ambient namespace is the first one that is given. -/
theorem exists_result_current (hcontext : Kubeconfig.outcome host kube.kubeconfig = .ok context)
    (haccount : OfServiceAccount host account) :
    ∃ ambient, (current host kube).result = .ok ambient ∧
      IsFirstGiven [kube.ns, context.ns, account, fallback] ambient := by
  have hfallback : IsFirstGiven [fallback] fallback := .here _ (by decide)
  exact ⟨_, result_current hcontext haccount,
    ((hfallback.cons account).cons context.ns).cons kube.ns⟩

end Namespace

/-! ### Descriptions -/

namespace Describe

variable {host host' : Host} {settings settings' : Settings} {options options' : Options}
  {texts : List String} {ns ns' : String}

/-- What the five places say on the namespace of a description, in the order in which they count. -/
inductive Candidates (host : Host) (settings : Settings) (options : Options) : List String → Prop
  | intro {context : ClusterContext} {account : String}
      (hcontext : Kubeconfig.outcome host settings.kube.kubeconfig = .ok context)
      (haccount : Namespace.OfServiceAccount host account) :
      Candidates host settings options [options.ns.orEmpty, settings.kube.ns, context.ns, account,
        "default"]

/-- Fetches a Repository from a namespace, and tells so. -/
def fetchIn (source : Source) (name ns : String) : Action Repository := do
  note (remark name ns)
  source.fetch name ns

/-- A description fetches from this namespace: it ends as the fetch of the Repository that is asked
for from there ends, after some notes, be the source handed over or opened by the command itself. -/
structure FetchesFrom (host : Host) (settings : Settings) (options : Options) (ns : String) :
    Prop where
  handed : ∀ (source : Source) (now : Moment) (isTerminal : Bool) (before : Effects), ∃ records,
    (Action.from before (runWith host settings options source now isTerminal)).1 =
      conclude now (selectStyle host.environment settings.display options.noColor isTerminal)
        (Action.from { before with journal := before.journal ++ records }
          (fetchIn source options.name ns)).1
  opened : ∀ (captured : Environment) (wire : Wire) (now : Moment) (isTerminal : Bool)
    (before : Effects),
    ∃ ambient records,
      (Action.from before (run host captured settings options wire now isTerminal)).1 =
        conclude now (selectStyle host.environment settings.display options.noColor isTerminal)
          (Action.from { before with journal := before.journal ++ records }
            (openSource host captured settings options wire ambient >>= fun source =>
              fetchIn source options.name ns)).1

/-- What is fetched after the ambient namespace has been found comes from the effective one. -/
theorem exists_from_fetched {ambient : String}
    (hambient : (Namespace.current host settings.kube).result = .ok ambient)
    (opened : String → Action Source) (before : Effects) : ∃ records,
      Action.from before (fetched host settings options opened) =
        Action.from { before with journal := before.journal ++ records }
          (opened ambient >>= fun source =>
            fetchIn source options.name (Namespace.effective ambient options.ns.orEmpty)) := by
  obtain ⟨records, hcurrent⟩ := Namespace.onlyNotes_current host settings.kube before
  refine ⟨records, ?_⟩
  unfold fetched
  rw [Action.from_bind, hcurrent, hambient]
  rfl

/-- The first candidate is fetched from. -/
theorem Candidates.exists_fetchesFrom (h : Candidates host settings options texts) :
    ∃ ns, IsFirstGiven texts ns ∧ FetchesFrom host settings options ns := by
  obtain ⟨hcontext, haccount⟩ := h
  obtain ⟨ambient, hambient, hfirst⟩ := Namespace.exists_result_current hcontext haccount
  refine ⟨Namespace.effective ambient options.ns.orEmpty, hfirst.cons _, ?_, ?_⟩
  · intro source now isTerminal before
    obtain ⟨records, hfetched⟩ := exists_from_fetched hambient (fun _ => pure source) before
    exact ⟨records, by rw [from_runWith, hfetched, pure_bind]⟩
  · intro captured wire now isTerminal before
    obtain ⟨records, hfetched⟩ :=
      exists_from_fetched hambient (openSource host captured settings options wire) before
    exact ⟨ambient, records, by rw [from_run, hfetched]⟩

/-- A source that can be fetched from in one namespace only; elsewhere it fails for another
reason. -/
def sourceOf (ns : String) : Source where
  fetch _ ns' := if ns' = ns then throw .interrupted else throw .notMapping

/-- No description fetches from two namespaces. -/
theorem FetchesFrom.eq (h : FetchesFrom host settings options ns)
    (h' : FetchesFrom host settings options ns') : ns = ns' := by
  obtain ⟨records, hends⟩ := h.handed (sourceOf ns) ⟨0, 0⟩ false {}
  obtain ⟨records', hends'⟩ := h'.handed (sourceOf ns) ⟨0, 0⟩ false {}
  have hthere : (sourceOf ns).fetch options.name ns = throw .interrupted := if_pos rfl
  by_cases hne : ns' = ns
  case pos => exact hne.symm
  have helsewhere : (sourceOf ns).fetch options.name ns' = throw .notMapping := if_neg hne
  unfold fetchIn at hends hends'
  rw [hthere] at hends
  rw [helsewhere] at hends'
  exact nomatch hends.symm.trans hends'

/-- **Where a description fetches from.** There is one namespace that a description fetches from,
and it is the first candidate that is not empty. What the candidates after it are does not matter:
where the same ones come first, up to one that is not empty, it is the same namespace. -/
theorem fetchesFrom_iff (h : Candidates host settings options texts) :
    (∃ ns, FetchesFrom host settings options ns) ∧
    (∀ ns, FetchesFrom host settings options ns ↔ IsFirstGiven texts ns) ∧
    (∀ ns, FetchesFrom host settings options ns → ns ≠ "") ∧
    ∀ (host' : Host) (settings' : Settings) (options' : Options) (shared rest rest' : List String),
      texts = shared ++ rest → (∃ s ∈ shared, s ≠ "") →
      Candidates host' settings' options' (shared ++ rest') →
      ∀ ns, FetchesFrom host settings options ns → FetchesFrom host' settings' options' ns := by
  -- One namespace is fetched from, and one text is given first, so either determines the other.
  have hiff {host : Host} {settings : Settings} {options : Options} {texts : List String}
      (h : Candidates host settings options texts) (ns : String) :
      FetchesFrom host settings options ns ↔ IsFirstGiven texts ns := by
    obtain ⟨first, hfirst, hfetches⟩ := h.exists_fetchesFrom
    constructor
    · intro hns
      rw [hns.eq hfetches]
      exact hfirst
    · intro hns
      rw [hns.eq hfirst]
      exact hfetches
  obtain ⟨first, -, hfetches⟩ := h.exists_fetchesFrom
  refine ⟨⟨first, hfetches⟩, hiff h, fun ns hns => ((hiff h ns).mp hns).ne_empty, ?_⟩
  rintro host' settings' options' shared rest rest' rfl hgiven h' ns hns
  exact (hiff h' ns).mpr (((hiff h ns).mp hns).append_congr hgiven)

/-- A machine with nothing but the namespace of a service account. -/
def accountHost : Host where
  files := { entries :=
    [(["sa"], .directory), (["sa", "namespace"], .file (FileTree.encode " team\n"))] }
  serviceAccount := FilePath.ofText "/sa"

theorem candidates_accountHost (options : Options) :
    Candidates accountHost {} options [options.ns.orEmpty, "", "", "team", "default"] := by
  have hcontext : Kubeconfig.outcome accountHost ({} : Settings).kube.kubeconfig = .ok {} :=
    eq_ok_of_toOption (by decide +kernel)
  have hread : accountHost.files.readText accountHost.namespaceFile = .ok " team\n" :=
    eq_ok_of_toOption (by decide +kernel)
  have hstrip : Text.strip " team\n" = "team" := by decide +kernel
  have haccount : Namespace.OfServiceAccount accountHost "team" :=
    hstrip ▸ .content (by decide +kernel) hread
  exact .intro hcontext haccount

/-- Without an option the service account names the namespace, and with one it does not matter. -/
theorem fetchesFrom_accountHost :
    Candidates accountHost {} { name := "a" } ["", "", "", "team", "default"] ∧
      FetchesFrom accountHost {} { name := "a" } "team" ∧
      FetchesFrom accountHost {} { name := "a", ns := .text "other" } "other" := by
  have hplain := candidates_accountHost { name := "a" }
  have hnamed := candidates_accountHost { name := "a", ns := .text "other" }
  have hfirst : IsFirstGiven ["", "", "", "team", "default"] "team" :=
    .later (.later (.later (.here _ (by decide))))
  exact ⟨hplain, ((fetchesFrom_iff hplain).2.1 "team").mpr hfirst,
    ((fetchesFrom_iff hnamed).2.1 "other").mpr (.here _ (by decide))⟩

end Describe

end PipelineRuns
