import PipelineRuns.Proofs.Manifests

/-!
# When a manifest is understood

Loading a manifest is meant to give the Repositories in it or to say, as a failed fetch, why there
are none (`Manifest.IsReported`), so that a description from a manifest that is of no use still ends
with an error and exit code 1. It does so where the system does not deliver the file, and where the
file is not YAML. Everything else has to be of the right kind: the file has to be UTF-8, each scalar
in it has to have a value, a list has to have items that can be gone through (`Manifest.HasItems`),
and a resource has to be readable (`Repository.IsReadable`). This is so for every document and for
everything that is listed in it, at any depth (`Manifest.Within`).

The parts of a manifest come from these values, one from each that is no list
(`Manifest.mem_parts_iff`). The two directions of this are proved in different ways: a part is
followed down the document that it comes from, by recursion on that document, and a value is
followed up through the lists that hold it, by induction on `Manifest.Within`.

All this is said of manifests whose values have a counterpart here (`Manifest.HasCounterpart`): no
collection is a part of itself, no text has a lone surrogate, a float that is not a number is
written `.nan`, and no number is too long where a text is made of it.

Main statement: `Manifest.isReported_load_iff`. A manifest that is not UTF-8 is seen after it.
-/

namespace PipelineRuns

/-! ### Resources -/

namespace Repository

variable {data : Mapping} {key : String}

/-- The entries of the mapping under a key; none where there is no mapping. -/
def entriesUnder (data : Mapping) (key : String) : Mapping :=
  (data.get key).entries?.getD []

/-- A resource whose metadata and specification are mappings, if they are given, and whose name,
namespace and URL are textual, if there are any. -/
structure IsReadable (data : Mapping) : Prop where
  parts : ∀ key ∈ ["metadata", "spec"], (data.get key).isTruthy = true →
    (data.get key).entries?.isSome = true
  identity : ∀ key ∈ ["name", "namespace"], ∀ v, (entriesUnder data "metadata").get? key = some v →
    v.IsTextual
  url : ((entriesUnder data "spec").get "url").isTruthy = true →
    ((entriesUnder data "spec").get "url").IsTextual

/-- A part of a resource is read as the entries that it has. -/
theorem part_eq_ok_iff {m : Mapping} : part data key = .ok m ↔
    ((data.get key).isTruthy = true → (data.get key).entries?.isSome = true) ∧
      entriesUnder data key = m := by
  unfold part entriesUnder
  cases hv : data.get key with
  | mapping entries =>
    cases entries with
    | nil => simp [Value.isTruthy, Value.entries?]
    | cons e rest => simp [Value.isTruthy, Value.entries?]
  | _ =>
    dsimp only
    split
    · next hgiven => simp [hgiven, Value.entries?]
    · next hgiven => simp [hgiven, Value.entries?]

theorem isTextual_textOrEmpty_iff {m : Mapping} :
    (textOrEmpty m key).IsTextual ↔ ∀ v, m.get? key = some v → v.IsTextual := by
  unfold textOrEmpty
  cases m.get? key with
  | none => simp [Value.IsTextual]
  | some v => simp

theorem isTextual_givenOrEmpty_iff {m : Mapping} :
    (givenOrEmpty m key).IsTextual ↔ ((m.get key).isTruthy = true → (m.get key).IsTextual) := by
  unfold givenOrEmpty
  split
  · next hgiven => simp [hgiven]
  · next hgiven => simp [hgiven, Value.IsTextual]

theorem exists_ofFields_iff {name ns url : Value} {runs : List Run} :
    (∃ repo, ofFields name ns url runs = .ok repo) ↔
      name.IsTextual ∧ ns.IsTextual ∧ url.IsTextual := by
  unfold ofFields
  constructor
  · rintro ⟨repo, h⟩
    split at h
    · next n s u hname hns hurl =>
      exact ⟨Field.exists_text_iff.mp ⟨_, hname⟩, Field.exists_text_iff.mp ⟨_, hns⟩,
        Field.exists_text_iff.mp ⟨_, hurl⟩⟩
    · exact nomatch h
  · rintro ⟨hname, hns, hurl⟩
    obtain ⟨_, hname⟩ := Field.exists_text_iff.mpr hname
    obtain ⟨_, hns⟩ := Field.exists_text_iff.mpr hns
    obtain ⟨_, hurl⟩ := Field.exists_text_iff.mpr hurl
    exact ⟨_, by rw [hname, hns, hurl]⟩

theorem result_ofResource (data : Mapping) : (ofResource data).result = (do
    let metadata ← part data "metadata"
    let spec ← part data "spec"
    ofFields (textOrEmpty metadata "name") (textOrEmpty metadata "namespace")
      (givenOrEmpty spec "url") ((statusEntries data).map Run.ofEntry)) :=
  outcome_eq data {}

/-- A resource is read exactly if it is readable. -/
theorem exists_ofResource_iff :
    (∃ repo, (ofResource data).result = .ok repo) ↔ IsReadable data := by
  rw [result_ofResource]
  simp only [bind_eq_ok_iff, part_eq_ok_iff]
  constructor
  · rintro ⟨repo, metadata, ⟨hmetadata, rfl⟩, spec, ⟨hspec, rfl⟩, hfields⟩
    obtain ⟨hname, hns, hurl⟩ := exists_ofFields_iff.mp ⟨repo, hfields⟩
    exact ⟨by simpa using ⟨hmetadata, hspec⟩,
      by simpa using ⟨isTextual_textOrEmpty_iff.mp hname, isTextual_textOrEmpty_iff.mp hns⟩,
      isTextual_givenOrEmpty_iff.mp hurl⟩
  · intro h
    have hname := isTextual_textOrEmpty_iff.mpr (h.identity "name" (by simp))
    have hns := isTextual_textOrEmpty_iff.mpr (h.identity "namespace" (by simp))
    obtain ⟨repo, hrepo⟩ :=
      exists_ofFields_iff.mpr ⟨hname, hns, isTextual_givenOrEmpty_iff.mpr h.url⟩
    exact ⟨repo, _, ⟨h.parts "metadata" (by simp), rfl⟩, _, ⟨h.parts "spec" (by simp), rfl⟩, hrepo⟩

/-- A resource that is not read is no failed fetch. -/
theorem failsOnly_ofResource (data : Mapping) : (ofResource data).FailsOnly Failure.IsNoFetch := by
  have hpart (key : String) : FailsOnly Failure.IsNoFetch (part data key) := by
    unfold part
    dsimp only
    split
    · split
      · exact .ok _
      · exact .error (fun _ h => nomatch h)
    · exact .ok _
  -- Runs are read without a failure, whatever stands in them.
  have hruns : ((statusEntries data).mapM Run.load).FailsOnly Failure.IsNoFetch := by
    intro before
    rw [Run.from_mapM_load]
    exact .ok _
  unfold ofResource
  refine .bind (.lift (hpart _)) (fun metadata => .bind (.lift (hpart _)) (fun spec =>
    .bind hruns (fun runs => .lift ?_)))
  unfold ofFields
  split
  · exact .ok _
  · exact .error (fun _ h => nomatch h)

end Repository

namespace Manifest

/-! ### Documents and what is listed in them -/

/-- A value stands in a document: it is the document, or it stands in an item of a list that the
document is. -/
inductive Within : Value → Value → Prop
  | self (v : Value) : Within v v
  | item {doc : Mapping} {items : List Value} {v w : Value} (hlist : isList doc = true)
      (hitems : doc.get "items" = .list items) (hv : v ∈ items) (h : Within v w) :
      Within (.mapping doc) w

/-- Items that can be gone through: they are a list, they are not given, or they have members of
another kind. -/
def HasItems (v : Value) : Prop :=
  (∃ items, v = .list items) ∨ v.isTruthy = false ∨ hasMembers v = true

/-- A value that is no list of items is one part, or none where it is no mapping. -/
inductive Yields : Value → Part → Prop
  | resource {doc : Mapping} (hlist : isList doc = false) (h : isRepository doc = true) :
      Yields (.mapping doc) (.resource doc)
  | skipped {doc : Mapping} (hlist : isList doc = false) (h : isRepository doc = false) :
      Yields (.mapping doc) (.skipped (doc.get "kind"))
  | notItems {doc : Mapping} (hlist : isList doc = true) (h : ¬ HasItems (doc.get "items")) :
      Yields (.mapping doc) .notItems

variable {v : Value} {p : Part} {docs : List Value}

/-- A part that comes from one of these values. -/
def ComesFrom (p : Part) (vs : List Value) : Prop :=
  ∃ v ∈ vs, ∃ w, Within v w ∧ Yields w p

/-- A part that comes from the items `v` of a list. -/
def ComesFromItems (p : Part) (v : Value) : Prop :=
  p = .notItems ∧ ¬ HasItems v ∨ ∃ items, v = .list items ∧ ComesFrom p items

theorem not_hasItems_iff (hnot : ∀ items, v ≠ .list items) :
    ¬ HasItems v ↔ (v.isTruthy && !hasMembers v) = true := by
  unfold HasItems
  simp [hnot]

mutual

theorem exists_of_mem_parts : ∀ (v : Value) (p : Part), p ∈ parts v → ∃ w, Within v w ∧ Yields w p
  | .mapping doc, p, hp => by
    rw [parts] at hp
    split at hp
    case isTrue hlist =>
      rcases comesFromItems_of_mem_itemParts doc p hp with ⟨rfl, hnot⟩
        | ⟨items, hitems, v, hv, w, hw, hyields⟩
      · exact ⟨_, .self _, .notItems hlist hnot⟩
      · exact ⟨w, .item hlist hitems hv hw, hyields⟩
    case isFalse hlist =>
      rw [Bool.not_eq_true] at hlist
      split at hp
      case isTrue hrepository =>
        rw [List.mem_singleton.mp hp]
        exact ⟨_, .self _, .resource hlist hrepository⟩
      case isFalse hrepository =>
        rw [List.mem_singleton.mp hp]
        exact ⟨_, .self _, .skipped hlist ((Bool.not_eq_true _).mp hrepository)⟩
  | .null, p, hp | .bool _, p, hp | .int _, p, hp | .float _, p, hp | .text _, p, hp
      | .bytes _, p, hp
  | .date _, p, hp | .timestamp _ _, p, hp | .pair _ _, p, hp | .list _, p, hp | .set _, p, hp => by
    simp [parts] at hp

theorem comesFromItems_of_mem_itemParts :
    ∀ (doc : List (Value × Value)) (p : Part), p ∈ itemParts doc →
      ComesFromItems p (Mapping.get doc "items")
  | [], p, hp => by
    rw [itemParts] at hp
    exact nomatch hp
  | (k, v) :: rest, p, hp => by
    rw [itemParts] at hp
    unfold Mapping.get
    rw [Mapping.get?_cons]
    split at hp
    case isTrue hkey =>
      rw [if_pos hkey]
      exact comesFromItems_of_mem_membersParts v p hp
    case isFalse hkey =>
      rw [if_neg hkey]
      exact comesFromItems_of_mem_itemParts rest p hp

theorem comesFromItems_of_mem_membersParts :
    ∀ (v : Value) (p : Part), p ∈ membersParts v → ComesFromItems p v
  | .list items, p, hp => by
    rw [membersParts] at hp
    exact Or.inr ⟨items, rfl, comesFrom_of_mem_listParts items p hp⟩
  | .null, p, hp | .bool _, p, hp | .int _, p, hp | .float _, p, hp | .text _, p, hp
      | .bytes _, p, hp
  | .date _, p, hp | .timestamp _ _, p, hp | .pair _ _, p, hp | .mapping _, p, hp
      | .set _, p, hp => by
    rw [membersParts] at hp
    · split at hp
      case isTrue hstuck =>
        exact Or.inl ⟨List.mem_singleton.mp hp, (not_hasItems_iff (by simp)).mpr hstuck⟩
      case isFalse => exact nomatch hp
    · exact fun _ h => nomatch h

theorem comesFrom_of_mem_listParts :
    ∀ (vs : List Value) (p : Part), p ∈ listParts vs → ComesFrom p vs
  | [], p, hp => by
    rw [listParts] at hp
    exact nomatch hp
  | v :: rest, p, hp => by
    rw [listParts, List.mem_append] at hp
    rcases hp with hp | hp
    · obtain ⟨w, hw, hyields⟩ := exists_of_mem_parts v p hp
      exact ⟨v, List.mem_cons_self, w, hw, hyields⟩
    · obtain ⟨u, hu, w, hw, hyields⟩ := comesFrom_of_mem_listParts rest p hp
      exact ⟨u, List.mem_cons_of_mem v hu, w, hw, hyields⟩

end

theorem mem_listParts_of_mem (hv : v ∈ docs) (hp : p ∈ parts v) : p ∈ listParts docs := by
  obtain ⟨before, after, rfl⟩ := List.append_of_mem hv
  rw [listParts_append, listParts]
  exact List.mem_append_right _ (List.mem_append_left _ hp)

theorem mem_parts_of_yields (h : Yields v p) : p ∈ parts v := by
  cases h with
  | resource hlist hrepository =>
    rw [parts, hlist, if_neg Bool.false_ne_true, if_pos hrepository]
    exact List.mem_cons_self
  | skipped hlist hrepository =>
    rw [parts, hlist, if_neg Bool.false_ne_true, hrepository, if_neg Bool.false_ne_true]
    exact List.mem_cons_self
  | @notItems doc hlist hitems =>
    have hnot (items : List Value) : doc.get "items" ≠ .list items :=
      fun h => hitems (Or.inl ⟨items, h⟩)
    have hstuck := (not_hasItems_iff hnot).mp hitems
    rw [parts, if_pos hlist, itemParts_eq]
    -- Something else than a list that is given and has no members is one part.
    cases hget : doc.get "items" with
    | list items => exact absurd hget (hnot items)
    | _ =>
      rw [hget] at hstuck
      rw [membersParts, if_pos hstuck]
      · exact List.mem_cons_self
      · exact fun _ h => nomatch h

/-- The parts of a document are those of the values that stand in it. -/
theorem mem_parts_iff : p ∈ parts v ↔ ∃ w, Within v w ∧ Yields w p := by
  refine ⟨exists_of_mem_parts v p, ?_⟩
  rintro ⟨w, hw, hyields⟩
  induction hw with
  | self v => exact mem_parts_of_yields hyields
  | @item doc items v w hlist hitems hv hw ih =>
    rw [parts, if_pos hlist, itemParts_eq, hitems, membersParts]
    exact mem_listParts_of_mem hv (ih hyields)

theorem mem_listParts_iff : p ∈ listParts docs ↔ ComesFrom p docs := by
  refine ⟨comesFrom_of_mem_listParts docs p, ?_⟩
  rintro ⟨v, hv, hw⟩
  exact mem_listParts_of_mem hv (mem_parts_iff.mpr hw)

/-! ### Parts that are understood -/

/-- A part that is understood: a resource has to be readable, and there are items to go through. -/
def Part.IsUnderstood : Part → Prop
  | .resource data => Repository.IsReadable data
  | .skipped _ => True
  | .notItems => False

theorem failsOnly_repositories (found : List Part) :
    (repositories found).FailsOnly Failure.IsNoFetch := by
  induction found with
  | nil => exact .pure _
  | cons part rest ih =>
    cases part with
    | resource data =>
      exact .bind (Repository.failsOnly_ofResource data)
        (fun repo => .bind ih (fun more => .pure _))
    | skipped kind => exact .bind (.note _) (fun _ => ih)
    | notItems => exact .throw (fun _ h => nomatch h)

/-- Parts give Repositories exactly if all of them are understood. -/
theorem exists_repositories_iff {found : List Part} :
    (∃ repos, (repositories found).result = .ok repos) ↔ ∀ part ∈ found, part.IsUnderstood := by
  induction found with
  | nil => exact ⟨fun _ _ h => (nomatch h), fun _ => ⟨[], rfl⟩⟩
  | cons part rest ih =>
    rw [List.forall_mem_cons, ← ih]
    cases part with
    | resource data =>
      rw [result_repositories_resource, Part.IsUnderstood, ← Repository.exists_ofResource_iff]
      simp only [bind_eq_ok_iff]
      constructor
      · rintro ⟨_, repo, hrepo, more, hmore, -⟩
        exact ⟨⟨repo, hrepo⟩, ⟨more, hmore⟩⟩
      · rintro ⟨⟨repo, hrepo⟩, ⟨more, hmore⟩⟩
        exact ⟨_, repo, hrepo, more, hmore, rfl⟩
    | skipped kind =>
      rw [result_repositories_skipped]
      exact ⟨fun h => ⟨trivial, h⟩, And.right⟩
    | notItems => exact ⟨fun ⟨_, h⟩ => (nomatch h), fun ⟨h, _⟩ => h.elim⟩

/-- A value that is understood where it stands: a list has items that can be gone through, and a
resource is readable. -/
structure IsSound (doc : Mapping) : Prop where
  items : isList doc = true → HasItems (doc.get "items")
  resource : isList doc = false → isRepository doc = true → Repository.IsReadable doc

/-- A value yields parts that are understood exactly if it is understood itself. -/
theorem isSound_iff {doc : Mapping} :
    IsSound doc ↔ ∀ part, Yields (.mapping doc) part → part.IsUnderstood := by
  constructor
  · intro h part hyields
    cases hyields with
    | resource hlist hrepository => exact h.resource hlist hrepository
    | skipped hlist hrepository => trivial
    | notItems hlist hnot => exact hnot (h.items hlist)
  · intro h
    refine ⟨fun hlist => Classical.byContradiction (fun hnot => ?_), fun hlist hrepository => ?_⟩
    · exact h _ (.notItems hlist hnot)
    · exact h _ (.resource hlist hrepository)

/-- Documents give Repositories exactly if everything that stands in them is understood. -/
theorem exists_repositories_listParts_iff :
    (∃ repos, (repositories (listParts docs)).result = .ok repos) ↔
    ∀ v ∈ docs, ∀ doc, Within v (.mapping doc) → IsSound doc := by
  rw [exists_repositories_iff]
  simp only [mem_listParts_iff]
  constructor
  · intro h v hv doc hdoc
    exact isSound_iff.mpr (fun part hyields => h part ⟨v, hv, _, hdoc, hyields⟩)
  · rintro h part ⟨v, hv, w, hw, hyields⟩
    -- Only a mapping yields parts.
    obtain ⟨doc, rfl⟩ : ∃ doc, w = .mapping doc := by
      cases hyields with
      | resource => exact ⟨_, rfl⟩
      | skipped => exact ⟨_, rfl⟩
      | notItems => exact ⟨_, rfl⟩
    exact isSound_iff.mp (h v hv doc hw) part hyields

end Manifest

/-! ### Results that are reported -/

section Reported

variable {α β : Type} {x : Except Failure α} {f : Failure}

/-- A result, or a failed fetch, which is told to the user. -/
def IsReported (x : Except Failure α) : Prop :=
  (∃ a, x = .ok a) ∨ ∃ reason, x = .error (.fetch reason)

theorem isReported_ok (a : α) : IsReported (.ok a : Except Failure α) := Or.inl ⟨a, rfl⟩

theorem isReported_fetch (reason : FetchFailure) :
    IsReported (.error (.fetch reason) : Except Failure α) :=
  Or.inr ⟨reason, rfl⟩

theorem not_isReported_error (h : f.IsNoFetch) : ¬ IsReported (.error f : Except Failure α) := by
  rintro (⟨a, ha⟩ | ⟨reason, hreason⟩)
  · exact nomatch ha
  · exact h reason (Except.error.inj hreason)

/-- Where no other failure is a failed fetch, only a result is reported. -/
theorem isReported_iff_of_failsOnly (h : FailsOnly Failure.IsNoFetch x) :
    IsReported x ↔ ∃ a, x = .ok a := by
  cases x with
  | ok a => exact ⟨fun _ => ⟨a, rfl⟩, fun _ => isReported_ok a⟩
  | error f =>
    exact ⟨fun hreported => absurd hreported (not_isReported_error (h f rfl)),
      fun ⟨a, ha⟩ => nomatch ha⟩

/-- What is not reported has failed for another reason. -/
theorem exists_of_not_isReported (hknown : x ≠ .error .leftOut) (h : ¬ IsReported x) :
    ∃ f, f ≠ .leftOut ∧ f.IsNoFetch ∧ x = .error f := by
  cases x with
  | ok a => exact absurd (isReported_ok a) h
  | error f =>
    exact ⟨f, fun hf => hknown (congrArg _ hf),
      fun reason hf => h (hf ▸ isReported_fetch reason), rfl⟩

/-- What is always reported does not matter. -/
theorem isReported_bind_iff {g : α → Except Failure β} (hg : ∀ a, IsReported (g a)) :
    IsReported (x >>= g) ↔ IsReported x := by
  cases x with
  | ok a => exact ⟨fun _ => isReported_ok a, fun _ => hg a⟩
  | error f =>
    change IsReported (.error f) ↔ IsReported (.error f)
    unfold IsReported
    simp

theorem Shelf.isReported_fetch (shelf : Shelf) (name ns : String) :
    IsReported (shelf.fetch name ns) := by
  unfold fetch
  cases shelf.get? name ns with
  | none => exact PipelineRuns.isReported_fetch _
  | some repo => exact isReported_ok repo

/-- A description has an outcome exactly if its fetch is reported. -/
theorem Describe.exists_conclude_iff {now : Moment} {style : Style}
    {r : Except Failure Repository} : (∃ o, conclude now style r = .ok o) ↔ IsReported r := by
  cases r with
  | ok repo => exact ⟨fun _ => isReported_ok repo, fun _ => ⟨_, rfl⟩⟩
  | error f =>
    cases f with
    | fetch reason =>
      exact ⟨fun _ => PipelineRuns.isReported_fetch reason, fun _ => ⟨_, conclude_fetch reason⟩⟩
    | _ => exact ⟨fun ⟨_, h⟩ => (nomatch h),
        fun h => absurd h (not_isReported_error (fun _ h => nomatch h))⟩

end Reported

namespace Manifest

/-! ### Files -/

variable {host : Host} {path : FilePath} {text : String} {docs : List Value}

/-- A file that is of use, or that can be told to be of none: the system does not deliver it, it is
not YAML, or everything in it is understood. -/
inductive IsManageable (host : Host) (path : FilePath) : Prop
  | undelivered {fault : FileFault} (hread : host.files.readText path = .error (.file fault))
  | notYaml {text : String} (hread : host.files.readText path = .ok text)
      (hparse : Yaml.parseAll text = .error .notYaml)
  | understood {text : String} {docs : List Value} (hread : host.files.readText path = .ok text)
      (hparse : Yaml.parseAll text = .ok docs) (hdocs : ∀ v ∈ docs, ∀ doc, Within v (.mapping doc) →
        IsSound doc)

/-- What stands in a file has a counterpart here: loading it does not end at a value without one,
and the texts of its runs can be shown. -/
structure HasCounterpart (host : Host) (path : FilePath) : Prop where
  known : (load host path).result ≠ .error .leftOut
  shown : ∀ text docs, host.files.readText path = .ok text → Yaml.parseAll text = .ok docs →
    ∀ v ∈ docs, ∀ doc, Within v (.mapping doc) → isList doc = false → isRepository doc = true →
      ∀ entry ∈ Repository.statusEntries doc, Run.canBeShown entry = true

theorem result_load_of_undelivered {fault : FileFault}
    (hread : host.files.readText path = .error (.file fault)) :
    (load host path).result = .error (.fetch (.unreadable path.text fault)) := by
  rw [result_load]
  unfold documents
  rw [hread]
  rfl

theorem result_load_of_notYaml (hread : host.files.readText path = .ok text)
    (hparse : Yaml.parseAll text = .error .notYaml) :
    (load host path).result = .error (.fetch (.notYaml path.text Yaml.faultText)) := by
  rw [result_load]
  unfold documents
  simp only [hread, hparse]
  rfl

theorem result_load_of_parseAll (hread : host.files.readText path = .ok text)
    (hparse : Yaml.parseAll text = .ok docs) :
    (load host path).result = (repositories (listParts docs)).result := by
  rw [result_load]
  unfold documents
  simp only [hread, hparse]
  rfl

/-- A scalar without a value is not told as a text that is not YAML. -/
theorem result_load_of_fault {f : Failure} (hread : host.files.readText path = .ok text)
    (hparse : Yaml.parseAll text = .error f) (hf : f ≠ .notYaml) :
    (load host path).result = .error f := by
  rw [result_load]
  unfold documents
  simp only [hread, hparse]
  cases f with
  | notYaml => exact absurd rfl hf
  | _ => rfl

theorem isReported_load_of_isManageable (h : IsManageable host path) :
    IsReported (load host path).result := by
  cases h with
  | undelivered hread =>
    rw [result_load_of_undelivered hread]
    exact isReported_fetch _
  | notYaml hread hparse =>
    rw [result_load_of_notYaml hread hparse]
    exact isReported_fetch _
  | understood hread hparse hdocs =>
    rw [result_load_of_parseAll hread hparse]
    exact Or.inl (exists_repositories_listParts_iff.mpr hdocs)

theorem isManageable_of_isReported_load (h : IsReported (load host path).result) :
    IsManageable host path := by
  -- In the order in which a file is examined: what is not told as a failed fetch is not reported.
  cases hread : host.files.readText path with
  | error f =>
    cases f with
    | file fault => exact .undelivered hread
    | _ =>
      have hnone := host.files.failsOnly_readText path _ hread
      rw [result_load] at h
      unfold documents at h
      simp only [hread] at h
      exact absurd h (not_isReported_error hnone)
  | ok text =>
    cases hparse : Yaml.parseAll text with
    | error f =>
      by_cases hf : f = .notYaml
      · exact .notYaml hread (hf ▸ hparse)
      · rw [result_load_of_fault hread hparse hf] at h
        exact absurd h (not_isReported_error (Yaml.failsOnly_parseAll text f hparse).isNoFetch)
    | ok docs =>
      have hfails : FailsOnly Failure.IsNoFetch (repositories (listParts docs)).result :=
        failsOnly_repositories (listParts docs) {}
      rw [result_load_of_parseAll hread hparse, isReported_iff_of_failsOnly hfails] at h
      exact .understood hread hparse (exists_repositories_listParts_iff.mp h)

theorem isReported_load_iff_isManageable :
    IsReported (load host path).result ↔ IsManageable host path :=
  ⟨isManageable_of_isReported_load, isReported_load_of_isManageable⟩

/-! ### Sources and descriptions -/

theorem result_ofManifest (host : Host) (path : FilePath) (ns : String) :
    (Source.ofManifest host path ns).result = (load host path).result >>= fun repos =>
      .ok (Source.ofShelf (Shelf.ofList (repos.map (placed ns)))) :=
  (onlyNotes_load host path).result_bind (fun _ => .pure _)

/-- A description from a manifest concludes the loading and a look-up. -/
theorem from_run_manifestFile {settings : Settings} {options : Describe.Options}
    {file ambient : String} (hfile : options.file = .text file)
    (hcurrent : (Namespace.current host settings.kube).result = .ok ambient)
    (captured : Environment) (wire : Wire) (now : Moment) (isTerminal : Bool) (before : Effects) :
    (Action.from before (Describe.run host captured settings options wire now isTerminal)).1 =
      Describe.conclude now
        (Describe.selectStyle host.environment settings.display options.noColor isTerminal)
        ((load host (FilePath.ofText file)).result >>= fun repos =>
          (Shelf.ofList (repos.map (placed ambient))).fetch options.name
            (Namespace.effective ambient options.ns.orEmpty)) := by
  rw [Describe.from_run, Describe.from_fetched_manifest hfile, hcurrent]
  rfl

/-- A machine with a manifest of two bytes that no text in UTF-8 begins with. -/
def garbledManifest : Host where
  files := { entries := [(["m.yaml"], .file [0xff, 0xff])] }

end Manifest

end PipelineRuns
