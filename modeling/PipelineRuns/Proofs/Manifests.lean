import PipelineRuns.Proofs.Descriptions
import PipelineRuns.Proofs.Entries

/-!
# The last resource counts

A shelf keeps, of the Repositories with the same key, the one that was added last
(`Shelf.fetch_of_last`, `Shelf.fetch_eq_notFound_iff`). A manifest fills one with the Repositories
of its resources: `Manifest.resources` are those of its documents in order, with lists flattened in
place, and a Repository without a namespace is put into the ambient one (`Manifest.placed`). So a
description from a manifest reports on the last resource that is addressed by the name and the
effective namespace, or says that there is none (`Manifest.Addressed`).

There is one exception. A list whose items are neither a list nor empty, and cannot be gone through,
ends the description, whatever the other documents hold.

Main statement: `Describe.from_run_manifest`. A manifest with such a list is seen after it.
-/

namespace PipelineRuns

/-! ### Shelves -/

namespace Shelf

variable {name ns : String} {earlier later repos : List Repository} {repo : Repository}

theorem hasKey_iff : hasKey name ns repo = true ↔ repo.ns = ns ∧ repo.name = name := by
  unfold hasKey
  rw [Bool.and_eq_true, decide_eq_true_iff, decide_eq_true_iff]

/-- A Repository is found under its own key, and under every other key what was found before. -/
theorem get?_add (s : Shelf) (repo : Repository) :
    (s.add repo).get? name ns = if hasKey name ns repo then some repo else s.get? name ns := by
  unfold add get?
  rw [List.find?_cons]
  by_cases hkey : hasKey name ns repo = true
  · rw [hkey, if_pos rfl]
  · rw [Bool.not_eq_true] at hkey
    rw [hkey, if_neg Bool.false_ne_true, List.find?_filter]
    -- What had to make room does not have the key that is looked for.
    have hsame : (fun r => (!hasKey repo.name repo.ns r) && hasKey name ns r) = hasKey name ns := by
      funext r
      cases hr : hasKey name ns r with
      | false => exact Bool.and_false _
      | true =>
        obtain ⟨rfl, rfl⟩ := hasKey_iff.mp hr
        have hother : hasKey repo.name repo.ns r = false := by
          rw [Bool.eq_false_iff, Ne, hasKey_iff]
          rintro ⟨hns, hname⟩
          rw [Bool.eq_false_iff, Ne, hasKey_iff] at hkey
          exact hkey ⟨hns.symm, hname.symm⟩
        rw [hother]
        rfl
    simp only [Bool.decide_and, Bool.decide_eq_true] at hsame ⊢
    rw [hsame]

/-- Of the Repositories that are added, the last one with the key is found. -/
theorem get?_foldl_add (repos : List Repository) (s : Shelf) :
    (repos.foldl add s).get? name ns = (repos.filter (hasKey name ns)).getLast?.or
      (s.get? name ns) := by
  induction repos generalizing s with
  | nil => rfl
  | cons repo rest ih =>
    rw [List.foldl_cons, ih, get?_add]
    -- `repo` counts if no later one has the key.
    by_cases hkey : hasKey name ns repo = true
    · rw [if_pos hkey, List.filter_cons_of_pos hkey, List.getLast?_cons]
      cases (rest.filter (hasKey name ns)).getLast? with
      | none => rfl
      | some last => rfl
    · rw [if_neg hkey, List.filter_cons_of_neg hkey]

theorem get?_ofList (repos : List Repository) :
    (ofList repos).get? name ns = (repos.filter (hasKey name ns)).getLast? := by
  unfold ofList
  rw [get?_foldl_add]
  exact Option.or_none

/-- A Repository is fetched if it has the key, and none that was added after it has. -/
theorem fetch_of_last (hkey : hasKey name ns repo = true)
    (hlater : ∀ r ∈ later, ¬ hasKey name ns r = true) :
    (ofList (earlier ++ repo :: later)).fetch name ns = .ok repo := by
  have hnone : later.filter (hasKey name ns) = [] := List.filter_eq_nil_iff.mpr hlater
  have hget : (ofList (earlier ++ repo :: later)).get? name ns = some repo := by
    rw [get?_ofList, List.filter_append, List.filter_cons_of_pos hkey, hnone, List.getLast?_concat]
  unfold fetch
  rw [hget]

/-- The fetch fails exactly if no Repository that was added has the key. -/
theorem fetch_eq_notFound_iff :
    (ofList repos).fetch name ns = .error (.fetch (.notFound name ns)) ↔
      ∀ repo ∈ repos, ¬ hasKey name ns repo = true := by
  have hnone :
      (ofList repos).get? name ns = none ↔ ∀ repo ∈ repos, ¬ hasKey name ns repo = true := by
    rw [get?_ofList, List.getLast?_eq_none_iff, List.filter_eq_nil_iff]
  rw [← hnone]
  unfold fetch
  cases (ofList repos).get? name ns with
  | none => exact ⟨fun _ => rfl, fun _ => rfl⟩
  | some repo => exact ⟨(fun h => nomatch h), (fun h => nomatch h)⟩

end Shelf

/-! ### Resources of a manifest -/

/-- Reading a resource has one result. -/
theorem Repository.onlyNotes_ofResource (data : Mapping) : (ofResource data).OnlyNotes := by
  have hruns : ((statusEntries data).mapM Run.load).OnlyNotes := by
    intro before
    refine ⟨(statusEntries data).flatMap Run.remarks, ?_⟩
    have hresult :
        ((statusEntries data).mapM Run.load).result =
          .ok ((statusEntries data).map Run.ofEntry) := by
      unfold Action.result Action.execute
      rw [Run.from_mapM_load]
    rw [Run.from_mapM_load, hresult]
  unfold ofResource
  exact .bind (.lift _)
    (fun metadata => .bind (.lift _) (fun spec => .bind hruns (fun runs => .lift _)))

namespace Manifest

variable {host : Host} {path : FilePath}

/-- The resource that a part is. -/
def Part.resource? : Part → Option Mapping
  | .resource data => some data
  | _ => none

/-- The resources of documents, in order, with lists flattened in place. -/
def resources (docs : List Value) : List Mapping :=
  (listParts docs).filterMap Part.resource?

theorem listParts_append (docs docs' : List Value) :
    listParts (docs ++ docs') = listParts docs ++ listParts docs' := by
  induction docs with
  | nil => rfl
  | cons doc rest ih => rw [List.cons_append, listParts, listParts, ih, List.append_assoc]

/-- The entry that is taken for the items is the one that a look-up finds. -/
theorem itemParts_eq (doc : Mapping) : itemParts doc = membersParts (doc.get "items") := by
  unfold Mapping.get
  induction doc with
  | nil => rfl
  | cons entry rest ih =>
    obtain ⟨k, v⟩ := entry
    rw [itemParts, Mapping.get?_cons]
    split
    · rfl
    · exact ih

/-- A list stands for its items, at its own place. -/
theorem resources_of_isList {before after items : List Value} {doc : Mapping}
    (hlist : isList doc = true) (hitems : doc.get "items" = .list items) :
    resources (before ++ .mapping doc :: after) = resources (before ++ items ++ after) := by
  unfold resources
  rw [listParts_append, listParts_append, listParts_append, listParts, parts, if_pos hlist,
    itemParts_eq, hitems, membersParts, List.append_assoc]

/-- A resource stands at its own place. -/
theorem resources_of_isRepository {before after : List Value} {doc : Mapping}
    (hlist : isList doc = false) (hrepository : isRepository doc = true) :
    resources (before ++ .mapping doc :: after) = resources before ++ doc :: resources after := by
  unfold resources
  rw [listParts_append, listParts, parts, hlist, if_neg Bool.false_ne_true, if_pos hrepository,
    List.filterMap_append, List.filterMap_append]
  rfl

theorem onlyNotes_repositories (found : List Part) : (repositories found).OnlyNotes := by
  induction found with
  | nil => exact .pure _
  | cons part rest ih =>
    cases part with
    | resource data =>
      exact .bind (Repository.onlyNotes_ofResource data)
        (fun repo => .bind ih (fun more => .pure _))
    | skipped kind => exact .bind (.note _) (fun _ => ih)
    | notItems => exact .throw _

/-- A resource is read before the parts that follow it. -/
theorem result_repositories_resource (data : Mapping) (rest : List Part) :
    (repositories (.resource data :: rest)).result =
      (Repository.ofResource data).result >>= fun repo =>
        (repositories rest).result >>= fun more => .ok (repo :: more) := by
  rw [repositories, (Repository.onlyNotes_ofResource data).result_bind (fun repo =>
    (onlyNotes_repositories rest).bind (fun more => .pure (repo :: more)))]
  refine bind_congr (fun repo => ?_)
  exact (onlyNotes_repositories rest).result_bind (fun more => .pure (repo :: more))

/-- A document that is skipped is noted and gives nothing. -/
theorem result_repositories_skipped (kind : Value) (rest : List Part) :
    (repositories (.skipped kind :: rest)).result = (repositories rest).result :=
  (Action.OnlyNotes.note _).result_bind (fun _ => onlyNotes_repositories rest)

/-- What the resources of parts are read as, in order. -/
def ReadAs (found : List Part) (repos : List Repository) : Prop :=
  (found.filterMap Part.resource?).map (fun data => (Repository.ofResource data).result) =
    repos.map .ok

/-- The Repositories of parts are those of the resources among them, unless there are items that
cannot be gone through. -/
theorem result_repositories {found : List Part} {repos : List Repository}
    (hread : ReadAs found repos) :
    (Part.notItems ∉ found → (repositories found).result = .ok repos) ∧
      (Part.notItems ∈ found → (repositories found).result = .error .wrongType) := by
  unfold ReadAs at hread
  induction found generalizing repos with
  | nil =>
    obtain rfl : repos = [] := List.map_eq_nil_iff.mp hread.symm
    exact ⟨fun _ => rfl, fun h => nomatch h⟩
  | cons part rest ih =>
    cases part with
    | skipped kind =>
      obtain ⟨hall, hnone⟩ := ih hread
      rw [result_repositories_skipped]
      exact ⟨fun h => hall (fun hmem => h (List.mem_cons_of_mem _ hmem)),
        fun h => hnone ((List.mem_cons.mp h).resolve_left (fun heq => nomatch heq))⟩
    | notItems => exact ⟨fun h => absurd List.mem_cons_self h, fun _ => rfl⟩
    | resource data =>
      -- The resource is the first one, so its Repository is the first one too.
      cases repos with
      | nil => exact nomatch hread
      | cons repo more =>
        obtain ⟨hfirst, hrest⟩ := List.cons.inj hread
        obtain ⟨hall, hnone⟩ := ih hrest
        have hboth : (repositories (.resource data :: rest)).result =
            (repositories rest).result >>= fun more => .ok (repo :: more) := by
          have hfirst : (Repository.ofResource data).result = .ok repo := hfirst
          rw [result_repositories_resource, hfirst]
          rfl
        rw [hboth]
        constructor
        · intro h
          rw [hall (fun hmem => h (List.mem_cons_of_mem _ hmem))]
          rfl
        · intro h
          rw [hnone ((List.mem_cons.mp h).resolve_left (fun heq => nomatch heq))]
          rfl

theorem onlyNotes_load (host : Host) (path : FilePath) : (load host path).OnlyNotes :=
  .bind (.lift _) (fun docs => .bind (onlyNotes_repositories (listParts docs)) (fun repos =>
    .bind (.note _) (fun _ => .pure repos)))

theorem result_load (host : Host) (path : FilePath) :
    (load host path).result = documents host path >>= fun docs =>
      (repositories (listParts docs)).result := by
  unfold load
  rw [Action.result_lift_bind]
  refine bind_congr (fun docs => ?_)
  rw [(onlyNotes_repositories (listParts docs)).result_bind (fun repos =>
    .bind (.note _) (fun _ => .pure repos))]
  cases (repositories (listParts docs)).result with
  | ok repos => rfl
  | error f => rfl

/-- The namespace of a Repository, or else the one given. -/
def nsIn (ambient : String) (repo : Repository) : String :=
  if repo.ns = "" then ambient else repo.ns

theorem placed_eq (ambient : String) (repo : Repository) :
    placed ambient repo = { repo with ns := nsIn ambient repo } := by
  unfold placed nsIn
  by_cases hns : repo.ns = ""
  · by_cases hambient : ambient = ""
    · rw [if_neg (by simp [hambient]), if_pos hns, hambient, ← hns]
    · rw [if_pos (by simp [hns, hambient]), if_pos hns]
  · rw [if_neg (by simp [hns]), if_neg hns]

/-- A Repository that has this name, and this namespace where `ambient` stands for a missing one. -/
structure Addressed (ambient name ns : String) (repo : Repository) : Prop where
  name_eq : repo.name = name
  ns_eq : nsIn ambient repo = ns

theorem hasKey_placed_iff {ambient name ns : String} {repo : Repository} :
    Shelf.hasKey name ns (placed ambient repo) = true ↔ Addressed ambient name ns repo := by
  rw [Shelf.hasKey_iff, placed_eq]
  exact ⟨fun ⟨hns, hname⟩ => ⟨hname, hns⟩, fun h => ⟨h.ns_eq, h.name_eq⟩⟩

end Manifest

namespace Describe

open Manifest

variable {host : Host} {settings : Settings} {options : Options} {path : String} {ambient : String}
  {docs : List Value} {repos : List Repository}

/-- A fetch from a manifest looks into a shelf with its Repositories. -/
theorem from_fetched_manifest (hfile : options.file = .text path) (captured : Environment)
    (wire : Wire) (before : Effects) :
    (Action.from before
      (fetched host settings options (openSource host captured settings options wire))).1 =
      (Namespace.current host settings.kube).result >>= fun ambient =>
        (Manifest.load host (FilePath.ofText path)).result >>= fun repos =>
          (Shelf.ofList (repos.map (placed ambient))).fetch options.name
            (Namespace.effective ambient options.ns.orEmpty) := by
  have hfetch (ambient : String) (repos : List Repository) :
      (fetchFrom (Source.ofShelf (Shelf.ofList (repos.map (placed ambient)))) options.name ambient
        options.ns.orEmpty).OnlyNotes :=
    .bind (.note _) (fun _ => .lift _)
  have hload := Manifest.onlyNotes_load host (FilePath.ofText path)
  -- The source is nothing but a shelf, so opening it and fetching from it is one action after the
  -- loading.
  have hopen (ambient : String) :
      (openSource host captured settings options wire ambient >>= fun source =>
        fetchFrom source options.name ambient options.ns.orEmpty) =
      Manifest.load host (FilePath.ofText path) >>= fun repos =>
        fetchFrom (Source.ofShelf (Shelf.ofList (repos.map (placed ambient)))) options.name ambient
          options.ns.orEmpty := by
    unfold openSource Source.ofManifest
    rw [hfile]
    simp only [bind_assoc, pure_bind]
  have hcurrent := Namespace.onlyNotes_current host settings.kube
  unfold fetched
  simp only [hopen]
  rw [(hcurrent.bind (fun ambient => hload.bind (hfetch ambient))).from_fst,
    hcurrent.result_bind (fun ambient => hload.bind (hfetch ambient))]
  refine bind_congr (fun ambient => ?_)
  rw [hload.result_bind (hfetch ambient)]
  rfl

/-- What is asked for is a Repository of a manifest that is read, all of whose resources are
Repositories, in a place with an ambient namespace. -/
structure FromManifest (host : Host) (settings : Settings) (options : Options) (docs : List Value)
    (repos : List Repository) (ambient : String) : Prop where
  exists_path : ∃ path, options.file = .text path ∧ documents host (FilePath.ofText path) = .ok docs
  readAs : ReadAs (listParts docs) repos
  current : (Namespace.current host settings.kube).result = .ok ambient

namespace FromManifest

variable {ns : String} {captured : Environment} {wire : Wire} {now : Moment} {isTerminal : Bool}
  {before : Effects}

/-- Only the parts of the documents decide. -/
theorem from_run_eq (h : FromManifest host settings options docs repos ambient)
    (hns : Namespace.effective ambient options.ns.orEmpty = ns) :
    (Action.from before (run host captured settings options wire now isTerminal)).1 =
      conclude now (selectStyle host.environment settings.display options.noColor isTerminal)
        ((repositories (listParts docs)).result >>= fun repos =>
          (Shelf.ofList (repos.map (placed ambient))).fetch options.name ns) := by
  obtain ⟨path, hfile, hdocs⟩ := h.exists_path
  have hload :
      (Manifest.load host (FilePath.ofText path)).result =
        (repositories (listParts docs)).result := by
    rw [result_load, hdocs]
    rfl
  rw [from_run, from_fetched_manifest hfile, h.current, ← hload, ← hns]
  rfl

theorem from_run_of_last (h : FromManifest host settings options docs repos ambient)
    (hns : Namespace.effective ambient options.ns.orEmpty = ns)
    (hitems : Part.notItems ∉ listParts docs) {earlier later : List Repository} {repo : Repository}
    (hrepos : repos = earlier ++ repo :: later)
    (haddressed : Addressed ambient options.name ns repo)
    (hlater : ∀ r ∈ later, ¬ Addressed ambient options.name ns r) :
    (Action.from before (run host captured settings options wire now isTerminal)).1 =
      .ok ⟨0, Report.render ⟨options.name, ns, repo.url, repo.runs⟩ now
        (selectStyle host.environment settings.display options.noColor isTerminal), ""⟩ := by
  have hplaced : placed ambient repo = ⟨options.name, ns, repo.url, repo.runs⟩ := by
    rw [placed_eq, haddressed.ns_eq, ← haddressed.name_eq]
  have hfetch : (Shelf.ofList (repos.map (placed ambient))).fetch options.name ns =
      .ok ⟨options.name, ns, repo.url, repo.runs⟩ := by
    rw [hrepos, List.map_append, List.map_cons, ← hplaced]
    refine Shelf.fetch_of_last (hasKey_placed_iff.mpr haddressed) (fun r hr => ?_)
    obtain ⟨r', hr', rfl⟩ := List.mem_map.mp hr
    rw [hasKey_placed_iff]
    exact hlater r' hr'
  rw [h.from_run_eq hns, (result_repositories h.readAs).1 hitems]
  change conclude _ _ ((Shelf.ofList (repos.map (placed ambient))).fetch options.name ns) = _
  rw [hfetch]
  rfl

theorem from_run_of_none (h : FromManifest host settings options docs repos ambient)
    (hns : Namespace.effective ambient options.ns.orEmpty = ns)
    (hitems : Part.notItems ∉ listParts docs)
    (hnone : ∀ r ∈ repos, ¬ Addressed ambient options.name ns r) :
    (Action.from before (run host captured settings options wire now isTerminal)).1 =
      .ok ⟨1, "", "Error: " ++ (FetchFailure.notFound options.name ns).message ++ "\n"⟩ := by
  have hfetch : (Shelf.ofList (repos.map (placed ambient))).fetch options.name ns =
      .error (.fetch (.notFound options.name ns)) := by
    rw [Shelf.fetch_eq_notFound_iff]
    intro r hr
    obtain ⟨r', hr', rfl⟩ := List.mem_map.mp hr
    rw [hasKey_placed_iff]
    exact hnone r' hr'
  rw [h.from_run_eq hns, (result_repositories h.readAs).1 hitems]
  change conclude _ _ ((Shelf.ofList (repos.map (placed ambient))).fetch options.name ns) = _
  rw [hfetch]
  exact conclude_fetch _

theorem from_run_of_notItems (h : FromManifest host settings options docs repos ambient)
    (hitems : Part.notItems ∈ listParts docs) :
    (Action.from before (run host captured settings options wire now isTerminal)).1 =
      .error .wrongType := by
  rw [h.from_run_eq rfl, (result_repositories h.readAs).2 hitems]
  rfl

end FromManifest

/-- **The last resource counts.** A description from a manifest reports on the last resource that is
addressed by the name and the effective namespace, in that namespace, and without one says that
there is none; where a list has items that cannot be gone through it fails. Of Repositories that are
put on a shelf, the last one with a key is fetched, and none exactly if there is none. -/
theorem from_run_manifest {ns : String} (h : FromManifest host settings options docs repos ambient)
    (hns : Namespace.effective ambient options.ns.orEmpty = ns) (captured : Environment)
    (wire : Wire) (now : Moment) (isTerminal : Bool) (before : Effects) :
    (Part.notItems ∉ listParts docs →
      (∀ earlier repo later, repos = earlier ++ repo :: later →
        Addressed ambient options.name ns repo →
        (∀ r ∈ later, ¬ Addressed ambient options.name ns r) →
        (Action.from before (run host captured settings options wire now isTerminal)).1 =
          .ok ⟨0, Report.render ⟨options.name, ns, repo.url, repo.runs⟩ now
            (selectStyle host.environment settings.display options.noColor isTerminal), ""⟩) ∧
      ((∀ r ∈ repos, ¬ Addressed ambient options.name ns r) →
        (Action.from before (run host captured settings options wire now isTerminal)).1 =
          .ok ⟨1, "", "Error: " ++ (FetchFailure.notFound options.name ns).message ++ "\n"⟩)) ∧
    (Part.notItems ∈ listParts docs →
      (Action.from before (run host captured settings options wire now isTerminal)).1 =
        .error .wrongType) ∧
    ∀ (added : List Repository) (name ns : String),
      (∀ earlier repo later, added = earlier ++ repo :: later → repo.ns = ns ∧ repo.name = name →
        (∀ r ∈ later, ¬ (r.ns = ns ∧ r.name = name)) →
        (Shelf.ofList added).fetch name ns = .ok repo) ∧
      ((Shelf.ofList added).fetch name ns = .error (.fetch (.notFound name ns)) ↔
        ∀ repo ∈ added, ¬ (repo.ns = ns ∧ repo.name = name)) := by
  refine ⟨fun hitems => ⟨?_, ?_⟩, ?_, ?_⟩
  · intro earlier repo later hrepos haddressed hlater
    exact h.from_run_of_last hns hitems hrepos haddressed hlater
  · intro hnone
    exact h.from_run_of_none hns hitems hnone
  · intro hitems
    exact h.from_run_of_notItems hitems
  · intro added name ns
    -- The same law of the last one holds for a shelf, whose key is the namespace with the name.
    simp only [← Shelf.hasKey_iff]
    refine ⟨?_, Shelf.fetch_eq_notFound_iff⟩
    rintro earlier repo later rfl hkey hlater
    exact Shelf.fetch_of_last hkey hlater

/-! ### Two manifests -/

/-- A machine with one manifest. -/
def manifestHost (text : String) : Host where
  files := { entries := [(["m.yaml"], .file (FileTree.encode text))] }

/-- What is asked for there. -/
def fromFile : Options where
  name := "a"
  file := .text "/m.yaml"

/-- A Repository in two versions, the later of which is in a list and does not name its
namespace. -/
def twoVersions : String :=
  "metadata:\n  name: a\n  namespace: default\n---\n" ++
    "kind: List\nitems:\n- metadata:\n    name: a\n  spec:\n    url: new\n"

/-- A list whose items are a number. -/
def numberOfItems : String := "kind: List\nitems: 5\n"

/-- The Repositories that the resources of documents are read as, as far as they are. -/
def observed (docs : List Value) : List (Option Repository) :=
  (resources docs).map (fun data => (Repository.ofResource data).result.toOption)

/-- Whether there are items that cannot be gone through. -/
def isStuck (docs : List Value) : Bool :=
  (listParts docs).any (fun part => match part with | .notItems => true | _ => false)

theorem readAs_of_observed (h : observed docs = repos.map some) :
    ReadAs (listParts docs) repos := by
  unfold ReadAs
  unfold observed resources at h
  generalize (listParts docs).filterMap Part.resource? = found at h ⊢
  induction found generalizing repos with
  | nil =>
    obtain rfl : repos = [] := List.map_eq_nil_iff.mp h.symm
    rfl
  | cons data rest ih =>
    cases repos with
    | nil => exact nomatch h
    | cons repo more =>
      obtain ⟨hfirst, hrest⟩ := List.cons.inj h
      rw [List.map_cons, List.map_cons, ih hrest, eq_ok_of_toOption hfirst]

theorem isStuck_iff : isStuck docs = true ↔ Part.notItems ∈ listParts docs := by
  unfold isStuck
  rw [List.any_eq_true]
  constructor
  · rintro ⟨part, hmem, hpart⟩
    cases part with
    | notItems => exact hmem
    | _ => exact nomatch hpart
  · exact fun hmem => ⟨_, hmem, rfl⟩

/-- What is seen of a manifest when it is parsed holds of the one that is read. -/
theorem exists_fromManifest {text : String} {stuck : Bool}
    (hcurrent : (Namespace.current (manifestHost text) {}).result.toOption = some "default")
    (hseen : (Yaml.parseAll (String.ofList (Text.unifyNewlines text.toList))).toOption.map
      (fun docs => (observed docs, isStuck docs)) = some (repos.map some, stuck)) :
    ∃ docs, FromManifest (manifestHost text) {} fromFile docs repos "default" ∧
      (Part.notItems ∈ listParts docs ↔ stuck = true) := by
  have hentry :
      (manifestHost text).files.entryAt (FilePath.ofText "/m.yaml") =
        .ok (.file (FileTree.encode text)) := by
    rfl
  have hread := FileTree.readText_of_entryAt hentry (by decide)
  cases hparse : Yaml.parseAll (String.ofList (Text.unifyNewlines text.toList)) with
  | error f =>
    rw [hparse] at hseen
    exact nomatch hseen
  | ok docs =>
    rw [hparse] at hseen
    obtain ⟨hrepos, hstuck⟩ := Prod.mk.inj (Option.some.inj hseen)
    refine ⟨docs, ⟨⟨"/m.yaml", rfl, ?_⟩, readAs_of_observed hrepos, eq_ok_of_toOption hcurrent⟩, ?_⟩
    · unfold documents
      simp only [hread, hparse]
    · rw [← isStuck_iff]
      exact hstuck ▸ Iff.rfl

/-- The later of the two versions is reported, in the ambient namespace. -/
theorem from_run_twoVersions :
    Namespace.effective "default" fromFile.ns.orEmpty = "default" ∧
    ∃ docs, FromManifest (manifestHost twoVersions) {} fromFile docs
        [⟨"a", "default", "", []⟩, ⟨"a", "", "new", []⟩] "default" ∧
      Part.notItems ∉ listParts docs ∧
      (Action.from {}
        (run (manifestHost twoVersions) [] {} fromFile (fun _ => .interrupted) ⟨0, 0⟩ false)).1 =
        .ok ⟨0, Report.render ⟨"a", "default", "new", []⟩ ⟨0, 0⟩ .plain, ""⟩ := by
  have hcurrent :
      (Namespace.current (manifestHost twoVersions) {}).result.toOption = some "default" := by
    decide +kernel
  have hseen : (Yaml.parseAll (String.ofList (Text.unifyNewlines twoVersions.toList))).toOption.map
      (fun docs => (observed docs, isStuck docs)) =
        some ([⟨"a", "default", "", []⟩, ⟨"a", "", "new", []⟩].map some, false) := by
    decide +kernel
  obtain ⟨docs, h, hstuck⟩ := exists_fromManifest hcurrent hseen
  have hitems : Part.notItems ∉ listParts docs := fun hmem => Bool.false_ne_true (hstuck.mp hmem)
  obtain ⟨hreport, -⟩ :=
    (from_run_manifest h rfl [] (fun _ => .interrupted) ⟨0, 0⟩ false {}).1 hitems
  exact ⟨rfl, docs, h, hitems,
    hreport [⟨"a", "default", "", []⟩] ⟨"a", "", "new", []⟩ [] rfl ⟨rfl, rfl⟩
    (fun _ hr => nomatch hr)⟩

/-- That no resource is addressed is not always what is reported, although all resources are
Repositories. -/
theorem notFound_not_always_reported :
    ¬ ∀ (host : Host) (captured : Environment) (settings : Settings) (options : Options)
      (docs : List Value)
        (repos : List Repository) (ambient ns : String) (wire : Wire) (now : Moment)
        (isTerminal : Bool),
      FromManifest host settings options docs repos ambient →
      Namespace.effective ambient options.ns.orEmpty = ns →
      (∀ r ∈ repos, ¬ Addressed ambient options.name ns r) →
      (run host captured settings options wire now isTerminal).result =
        .ok ⟨1, "", "Error: " ++ (FetchFailure.notFound options.name ns).message ++ "\n"⟩ := by
  intro hall
  have hcurrent :
      (Namespace.current (manifestHost numberOfItems) {}).result.toOption = some "default" := by
    decide +kernel
  have hseen :
      (Yaml.parseAll (String.ofList (Text.unifyNewlines numberOfItems.toList))).toOption.map
      (fun docs => (observed docs, isStuck docs)) =
        some (([] : List Repository).map some, true) := by
    decide +kernel
  obtain ⟨docs, h, hstuck⟩ := exists_fromManifest hcurrent hseen
  have hreported := hall _ [] {} fromFile docs [] "default" "default" (fun _ => .interrupted)
    ⟨0, 0⟩ false h rfl (fun _ hr => nomatch hr)
  have hfailed :
      (run (manifestHost numberOfItems) [] {} fromFile (fun _ => .interrupted)
        ⟨0, 0⟩ false).result =
      .error .wrongType :=
    h.from_run_of_notItems (hstuck.mpr rfl)
  rw [hfailed] at hreported
  exact nomatch hreported

end Describe

end PipelineRuns
