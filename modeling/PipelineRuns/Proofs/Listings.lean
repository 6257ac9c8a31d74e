import PipelineRuns.Proofs.Manifests

/-!
# A list stands for its items

How the documents of a manifest are put together does not matter. A list of resources
(`Manifest.Lists`) gives what its items would give as documents in its place, and what is neither a
list nor a Repository (`Manifest.IsUnrelated`) gives nothing. This holds for lists in lists as well:
documents may be unfolded at any depth, and at as many places as one likes (`Manifest.Unfolds`).

What documents give is `Manifest.loaded`. It can be a failure, and then it is the first one that is
met, so a list may only be replaced by its items if nothing changes its place. Everything here rests
on `Manifest.loaded_append`: documents give what the first of them give and then what the others
give. With it, the induction on how documents are unfolded has to look at one document at a time.

Main statement: `Manifest.load_unfolded`. A manifest with lists of both forms in one another is seen
after it.
-/

namespace PipelineRuns.Manifest

variable {doc : Mapping} {items docs docs' : List Value} {v : Value}

/-! ### Documents one after the other -/

/-- What loading a manifest with these documents results in. -/
def loaded (docs : List Value) : Except Failure (List Repository) :=
  (repositories (listParts docs)).result

/-- The Repositories of parts are followed by those of the parts after them, unless there is a
failure before. -/
theorem result_repositories_append (found later : List Part) :
    (repositories (found ++ later)).result =
      (repositories found).result >>= fun repos =>
        (repositories later).result >>= fun more => .ok (repos ++ more) := by
  induction found with
  | nil =>
    change (repositories later).result = (repositories later).result >>= fun more => pure more
    rw [bind_pure]
  | cons part rest ih =>
    cases part with
    | resource data =>
      rw [List.cons_append, result_repositories_resource, result_repositories_resource, ih]
      -- Both sides stop at the first failure, and give the same list if there is none.
      cases (Repository.ofResource data).result with
      | error f => rfl
      | ok repo =>
        cases (repositories rest).result with
        | error f => rfl
        | ok repos =>
          cases (repositories later).result with
          | error f => rfl
          | ok more => rfl
    | skipped kind =>
      rw [List.cons_append, result_repositories_skipped, result_repositories_skipped]
      exact ih
    | notItems => rfl

theorem loaded_append (docs docs' : List Value) :
    loaded (docs ++ docs') =
      loaded docs >>= fun repos => loaded docs' >>= fun more => .ok (repos ++ more) := by
  unfold loaded
  rw [listParts_append]
  exact result_repositories_append _ _

/-- A document is loaded before those that follow it. -/
theorem loaded_cons (v : Value) (docs : List Value) :
    loaded (v :: docs) = loaded [v] >>= fun repos => loaded docs >>= fun more =>
      .ok (repos ++ more) :=
  loaded_append [v] docs

/-! ### Lists and other documents -/

/-- A document lists these items: it is of the kind of a list, or it does not tell its kind. -/
inductive Lists (doc : Mapping) (items : List Value) : Prop
  | ofKind (hkind : doc.get? "kind" = some (.text "List"))
    (hitems : doc.get? "items" = some (.list items))
  | withoutKind (hkind : doc.get? "kind" = none) (hitems : doc.get? "items" = some (.list items))

/-- A value that is neither a list nor a Repository: it is no mapping, or it tells that it is of
another kind. -/
inductive IsUnrelated : Value → Prop
  | noMapping {v : Value} (h : v.entries? = none) : IsUnrelated v
  | ofKind {doc : Mapping} {kind : Value} (hkind : doc.get? "kind" = some kind)
      (hlist : kind ≠ .text "List") (hrepository : kind ≠ .text Repository.kind) :
      IsUnrelated (.mapping doc)

theorem Lists.isList (h : Lists doc items) : isList doc = true := by
  unfold Manifest.isList Mapping.contains Mapping.get
  cases h with
  | ofKind hkind hitems =>
    rw [hkind]
    rfl
  | withoutKind hkind hitems =>
    rw [hkind, hitems]
    rfl

theorem Lists.get_items (h : Lists doc items) : doc.get "items" = .list items := by
  unfold Mapping.get
  cases h with
  | ofKind _ hitems => rw [hitems, Option.getD_some]
  | withoutKind _ hitems => rw [hitems, Option.getD_some]

/-- A list gives what its items give. -/
theorem Lists.loaded_eq (h : Lists doc items) : loaded [.mapping doc] = loaded items := by
  have hparts : listParts [.mapping doc] = listParts items := by
    rw [listParts, listParts, parts, if_pos h.isList, itemParts_eq, h.get_items, membersParts,
      List.append_nil]
  unfold loaded
  rw [hparts]

theorem isText_eq_false {s : String} (h : v ≠ .text s) : v.isText s = false := by
  cases v with
  | text t => exact decide_eq_false (fun heq => h (congrArg Value.text heq))
  | _ => rfl

/-- What is unrelated gives nothing, whatever it holds. -/
theorem IsUnrelated.loaded_eq (h : IsUnrelated v) : loaded [v] = .ok [] := by
  cases h with
  | noMapping hentries =>
    cases v with
    | mapping doc => exact nomatch hentries
    | _ => rfl
  -- A kind of its own rules out both a list, which may come without a kind, and a resource.
  | @ofKind doc kind hkind hlist hrepository =>
    have hget : doc.get "kind" = kind := by
      unfold Mapping.get
      rw [hkind, Option.getD_some]
    have hnoList : isList doc = false := by
      unfold isList Mapping.contains
      rw [hget, hkind, isText_eq_false hlist, Option.isSome_some, Bool.not_true, Bool.and_false,
        Bool.or_false]
    have hnoRepository : isRepository doc = false := by
      unfold isRepository
      rw [hkind]
      exact isText_eq_false hrepository
    unfold loaded
    rw [listParts, listParts, parts, hnoList, if_neg Bool.false_ne_true, hnoRepository,
      if_neg Bool.false_ne_true, List.append_nil, result_repositories_skipped]
    rfl

/-! ### Unfolding -/

/-- Documents with some of their lists replaced by the items, which may be unfolded in turn, and
with some unrelated ones left out. -/
inductive Unfolds : List Value → List Value → Prop
  | nil : Unfolds [] []
  | keep {docs docs' : List Value} (v : Value) (h : Unfolds docs docs') : Unfolds (v :: docs)
      (v :: docs')
  | leave {docs docs' : List Value} {v : Value} (hv : IsUnrelated v) (h : Unfolds docs docs') :
      Unfolds (v :: docs) docs'
  | replace {docs docs' : List Value} {doc : Mapping} {items items' : List Value}
      (hlists : Lists doc items) (hitems : Unfolds items items') (h : Unfolds docs docs') :
      Unfolds (.mapping doc :: docs) (items' ++ docs')

/-- Documents that are unfolded give what they gave before. -/
theorem Unfolds.loaded_eq (h : Unfolds docs docs') : loaded docs = loaded docs' := by
  induction h with
  | nil => rfl
  | keep v _ ih => rw [loaded_cons, ih, ← loaded_cons]
  | @leave docs docs' v hv _ ih =>
    rw [loaded_cons, hv.loaded_eq, ih]
    change (loaded docs' >>= fun more => pure more) = loaded docs'
    rw [bind_pure]
  | replace hlists _ _ ihitems ih =>
    rw [loaded_cons, hlists.loaded_eq, ihitems, ih, ← loaded_append]

/-- A list of these items, and nothing besides. -/
def listOf (items : List Value) : Mapping :=
  [(.text "kind", .text "List"), (.text "items", .list items)]

theorem lists_listOf (items : List Value) : Lists (listOf items) items :=
  .ofKind (by simp [listOf]) (by simp [listOf])

/-- **A list stands for its items.** What a manifest gives is decided by its documents. The items of
a list give the same Repositories in the same order, or the same failure, be they listed or
documents themselves, and what is unrelated gives nothing; this is so at any depth. Documents that
follow others add what they give to what the others give. -/
theorem load_unfolded (host : Host) (path : FilePath) :
    (load host path).result = documents host path >>= loaded ∧
    (∀ items, loaded [.mapping (listOf items)] = loaded items) ∧
    (∀ v, IsUnrelated v → loaded [v] = .ok []) ∧
    (∀ docs docs', Unfolds docs docs' → loaded docs = loaded docs') ∧
    ∀ docs docs', loaded (docs ++ docs') =
      loaded docs >>= fun repos => loaded docs' >>= fun more => .ok (repos ++ more) := by
  refine ⟨result_load host path, ?_, ?_, ?_, loaded_append⟩
  · intro items
    exact (lists_listOf items).loaded_eq
  · intro v h
    exact h.loaded_eq
  · intro docs docs' h
    exact h.loaded_eq

/-- A resource with a name. -/
def resourceNamed (name : String) : Mapping :=
  [(.text "metadata", .object [("name", .text name)])]

/-- A list in a list, beside a text and a resource. -/
def nestedLists : Value :=
  .mapping (listOf [.text "note", .object [("items", .list [.mapping (resourceNamed "a")])],
    .mapping (resourceNamed "b")])

theorem unfolds_nestedLists :
    Unfolds [nestedLists] [.mapping (resourceNamed "a"), .mapping (resourceNamed "b")] := by
  have hinner :
      Lists [(.text "items", .list [.mapping (resourceNamed "a")])]
      [.mapping (resourceNamed "a")] :=
    .withoutKind (by simp) (by simp)
  have hitems := Unfolds.leave (.noMapping (v := .text "note") rfl)
    (.replace hinner (.keep _ .nil) (.keep (.mapping (resourceNamed "b")) .nil))
  exact .replace (lists_listOf _) hitems .nil

/-- Lists of both forms, one in the other, give what is in them. -/
theorem load_unfolded_nestedLists :
    Unfolds [nestedLists] [.mapping (resourceNamed "a"), .mapping (resourceNamed "b")] ∧
      loaded [nestedLists] = .ok [⟨"a", "", "", []⟩, ⟨"b", "", "", []⟩] := by
  obtain ⟨-, -, -, hunfolds, -⟩ := load_unfolded {} (FilePath.ofText "/m.yaml")
  refine ⟨unfolds_nestedLists, ?_⟩
  rw [hunfolds _ _ unfolds_nestedLists]
  exact eq_ok_of_toOption (by decide +kernel)

end PipelineRuns.Manifest
