import Mathlib.Data.Option.Basic
import PipelineRuns.Proofs.Secrets

/-!
# What the current context leads to

A kubeconfig document can hold the clusters and the users of many contexts, with all their tokens.
What is taken from it is decided by a chain of names. The current context names an entry of the
first list, and this names one entry each of the other two. Of several entries with a name the first
one counts (`Kubeconfig.First`).

Two documents lead alike if they agree on that chain and on the token file at its end
(`Kubeconfig.LeadsAlike`), and this is all that reading depends on. So reading is the same, down to
the notes and the failures. The links are followed in turn: what comes second is asked of the lists
only for the name that the first one gives, which is why the conditions on clusters and users speak
of the context that was found.

Changes of a list in other places than the first entry of a name are those of `Kubeconfig.Edited`.
They keep the first entry (`Kubeconfig.sameFirst_of_edited`), and so documents that are changed in
this way lead alike.

Main statement: `Kubeconfig.read_of_leadsAlike`, which also says from where the values of a context
are taken.
-/

namespace PipelineRuns.Kubeconfig

variable {name v : Value} {items items' : List Value} {key : String} {m part : Mapping}

/-! ### The first entry of a name -/

/-- An item of a list that is an entry of this name. -/
def IsNamed (name v : Value) : Prop :=
  ∃ m, v = .mapping m ∧ (Mapping.get m "name").same name = true

/-- The first entry of a name in a list, if there is one. -/
inductive First (name : Value) (items : List Value) : Option Mapping → Prop
  | entry (before after : List Value) {m : Mapping} (hitems : items = before ++ .mapping m :: after)
      (hname : (m.get "name").same name = true) (hbefore : ∀ v ∈ before, ¬ IsNamed name v) :
      First name items (some m)
  | absent (hitems : ∀ v ∈ items, ¬ IsNamed name v) : First name items none

/-- Two lists with the same first entry of a name, or without one. -/
def SameFirst (name : Value) (items items' : List Value) : Prop :=
  ∀ e, First name items e ↔ First name items' e

/-- Changes of a list that leave the first entry of a name alone: items that are no entries of this
name are put in the place of others, or anything is put behind such an entry. -/
inductive Edited (name : Value) : List Value → List Value → Prop
  | others (before after : List Value) {gone put : List Value}
    (hgone : ∀ v ∈ gone, ¬ IsNamed name v)
      (hput : ∀ v ∈ put, ¬ IsNamed name v) :
        Edited name (before ++ gone ++ after) (before ++ put ++ after)
  | later (before after after' : List Value) {v : Value} (hv : IsNamed name v) :
      Edited name (before ++ v :: after) (before ++ v :: after')
  | trans {items items' items'' : List Value} (h : Edited name items items')
      (h' : Edited name items' items'') :
      Edited name items items''

/-- The first mapping in a list whose name is this one. -/
def first? (name : Value) (items : List Value) : Option Mapping :=
  (items.filterMap Value.entries?).find? (fun m => (m.get "name").same name)

/-- The first of two lists is that of the former, if it has one. -/
theorem first?_append (name : Value) (items items' : List Value) :
    first? name (items ++ items') = (first? name items).or (first? name items') := by
  unfold first?
  rw [List.filterMap_append, List.find?_append]

theorem first?_cons (name v : Value) (items : List Value) :
    first? name (v :: items) = (first? name [v]).or (first? name items) :=
  first?_append name [v] items

theorem first?_of_isNamed (h : IsNamed name v) :
    ∃ m, v = .mapping m ∧ first? name [v] = some m := by
  obtain ⟨m, rfl, hname⟩ := h
  refine ⟨m, rfl, ?_⟩
  exact List.find?_cons_of_pos hname

theorem first?_of_not_isNamed (h : ¬ IsNamed name v) : first? name [v] = none := by
  cases v with
  | mapping m =>
    exact List.find?_cons_of_neg (fun hname => h ⟨m, rfl, hname⟩)
  | _ => rfl

theorem first?_eq_none (h : ∀ v ∈ items, ¬ IsNamed name v) : first? name items = none := by
  induction items with
  | nil => rfl
  | cons v rest ih =>
    rw [first?_cons, first?_of_not_isNamed (h v List.mem_cons_self), Option.none_or]
    exact ih (fun w hw => h w (List.mem_cons_of_mem v hw))

/-- What is first in the sense of the statement is what the search finds. -/
theorem first?_of_first {e : Option Mapping} (h : First name items e) : first? name items = e := by
  cases h with
  | @entry before after m hitems hname hbefore =>
    have hnamed : IsNamed name (.mapping m) := ⟨m, rfl, hname⟩
    obtain ⟨m', hm', hfirst⟩ := first?_of_isNamed hnamed
    obtain rfl := Value.mapping.inj hm'
    -- What stands before the entry gives nothing, and what stands behind it is not reached.
    rw [hitems, first?_append, first?_eq_none hbefore, Option.none_or, first?_cons, hfirst,
      Option.some_or]
  | absent hitems => exact first?_eq_none hitems

/-- There is a first entry or there is none. -/
theorem exists_first (name : Value) (items : List Value) : ∃ e, First name items e := by
  induction items with
  | nil => exact ⟨none, .absent (fun v hv => nomatch hv)⟩
  | cons v rest ih =>
    by_cases hv : IsNamed name v
    · obtain ⟨m, rfl, hname⟩ := hv
      exact ⟨some m, .entry [] rest rfl hname (fun w hw => nomatch hw)⟩
    · -- The first entry of the rest, behind one more item that is none.
      have hcons {before : List Value} (h : ∀ w ∈ before, ¬ IsNamed name w) :
          ∀ w ∈ v :: before, ¬ IsNamed name w := by
        intro w hw
        rcases List.mem_cons.mp hw with rfl | hw
        · exact hv
        · exact h w hw
      obtain ⟨e, he⟩ := ih
      cases he with
      | entry before after hitems hname hbefore =>
        exact ⟨_, .entry (v :: before) after (congrArg (v :: ·) hitems) hname (hcons hbefore)⟩
      | absent hitems => exact ⟨none, .absent (hcons hitems)⟩

theorem first_iff {e : Option Mapping} : First name items e ↔ first? name items = e := by
  refine ⟨first?_of_first, ?_⟩
  rintro rfl
  -- Some first entry there is, and it can only be the one that is found.
  obtain ⟨e, he⟩ := exists_first name items
  rwa [first?_of_first he]

/-- Two lists agree on a name where the search finds the same in both. -/
theorem sameFirst_iff : SameFirst name items items' ↔ first? name items = first? name items' := by
  unfold SameFirst
  simp only [first_iff]
  constructor
  · intro h
    exact ((h _).mp rfl).symm
  · intro h e
    rw [h]

/-- **Edits of other entries.** They keep the first entry of a name. -/
theorem sameFirst_of_edited (h : Edited name items items') : SameFirst name items items' := by
  rw [sameFirst_iff]
  induction h with
  | others before after hgone hput =>
    simp only [first?_append, first?_eq_none hgone, first?_eq_none hput]
  | later before after after' hv =>
    obtain ⟨m, -, hfirst⟩ := first?_of_isNamed hv
    rw [first?_append, first?_append, first?_cons _ _ after, first?_cons _ _ after', hfirst,
      Option.some_or, Option.some_or]
  | trans _ _ ih ih' => exact ih.trans ih'

/-! ### The parts that are found -/

/-- The part under `key` that a list gives for a name: that of the first entry of the name, and an
empty one where there is no such entry or it gives nothing. -/
inductive Gives (items : List Value) (name : Value) (key : String) : Mapping → Prop
  | entry {m part : Mapping} (hfirst : First name items (some m))
    (hpart : m.get key = .mapping part) :
      Gives items name key part
  | blank {m : Mapping} (hfirst : First name items (some m))
    (hpart : (m.get key).isTruthy = false) :
      Gives items name key []
  | absent (hfirst : First name items none) : Gives items name key []

theorem named_eq (items : List Value) (name : Value) (key : String) :
    named items name key = match first? name items with
      | none => .mapping []
      | some m => if (m.get key).isTruthy then m.get key else .mapping [] := rfl

/-- What is looked up by a name is a function of the first entry with it. -/
theorem named_congr (h : SameFirst name items items') (key : String) :
    named items' name key = named items name key := by
  rw [named_eq, named_eq, sameFirst_iff.mp h]

/-- A list gives the part that is looked up in it. -/
theorem gives_iff : Gives items name key part ↔ named items name key = .mapping part := by
  rw [named_eq]
  constructor
  · intro h
    cases h with
    | entry hfirst hpart =>
      rw [first?_of_first hfirst]
      dsimp only
      rw [hpart]
      -- An empty part counts as none, which is taken for an empty one again.
      cases part with
      | nil => rfl
      | cons e rest => rfl
    | blank hfirst hpart =>
      rw [first?_of_first hfirst]
      dsimp only
      rw [hpart]
      rfl
    | absent hfirst => rw [first?_of_first hfirst]
  · intro h
    -- The cases are those of the look-up: no entry, or one whose part counts as given or not.
    cases hfirst : first? name items with
    | none =>
      rw [hfirst] at h
      obtain rfl := Value.mapping.inj h
      exact .absent (first_iff.mpr hfirst)
    | some m =>
      rw [hfirst] at h
      dsimp only at h
      split at h
      case isTrue => exact .entry (first_iff.mpr hfirst) h
      case isFalse hblank =>
        obtain rfl := Value.mapping.inj h
        exact .blank (first_iff.mpr hfirst) ((Bool.not_eq_true _).mp hblank)

/-- The context that a document gives as the current one. -/
def GivesContext (data context : Mapping) : Prop :=
  Gives (data.get "contexts").items (data.get "current-context") "context" context

/-- The cluster that a document gives for a context. -/
def GivesCluster (data context cluster : Mapping) : Prop :=
  Gives (data.get "clusters").items (nameUnder context "cluster") "cluster" cluster

/-- The user that a document gives for a context. -/
def GivesUser (data context user : Mapping) : Prop :=
  Gives (data.get "users").items (nameUnder context "user") "user" user

/-! ### Documents that lead alike -/

variable {base : FilePath} {host host' : Host} {data data' : Mapping}

/-- Two documents, each on its machine, that agree on the entries to which the current context
leads, and on the token file of the user. -/
structure LeadsAlike (base : FilePath) (host host' : Host) (data data' : Mapping) : Prop where
  contexts : SameFirst (data.get "current-context") (data.get "contexts").items
    (data'.get "contexts").items
  clusters : ∀ context, GivesContext data context →
    SameFirst (nameUnder context "cluster") (data.get "clusters").items (data'.get "clusters").items
  users : ∀ context, GivesContext data context →
    SameFirst (nameUnder context "user") (data.get "users").items (data'.get "users").items
  tokenFile : ∀ context user path, GivesContext data context → GivesUser data context user →
    user.get "tokenFile" = .text path → host'.files.readText (base.join (FilePath.ofText path)) =
      host.files.readText (base.join (FilePath.ofText path))

/-- Reading does not look at the lists otherwise. -/
theorem LeadsAlike.read_eq (h : LeadsAlike base host host' data data')
    (hcurrent : data'.get "current-context" = data.get "current-context") :
    read host' data' base = read host' data base := by
  unfold read
  dsimp only
  rw [hcurrent, named_congr h.contexts]
  split
  · rfl
  · -- From here on the context is known, and the other lists are asked for the names that it gives.
    refine Action.lift_bind_congr (fun context hcontext => ?_)
    have hgives : GivesContext data context := gives_iff.mpr (entries_eq_ok_iff.mp hcontext)
    rw [named_congr (h.clusters context hgives), named_congr (h.users context hgives)]

/-- Files that lead alike are read alike: each look-up of the one is a look-up of the other. -/
theorem LeadsAlike.read_congr (h : LeadsAlike base host host' data data') :
    read host' data base = read host data base := by
  refine Kubeconfig.read_congr (fun s path hs hpath _ => ?_)
  obtain ⟨hcontext, -, huser⟩ := select_eq_ok_iff.mp hs
  exact h.tokenFile s.context s.user path (gives_iff.mpr hcontext) (gives_iff.mpr huser) hpath

/-! ### From where the values are taken -/

/-- The server, certificates and token of a context are those of this cluster and this user. -/
structure TakenFrom (host : Host) (base : FilePath) (cluster user : Mapping) (c : ClusterContext) :
    Prop where
  server : Field.text "server" (givenUnder cluster "server") = .ok c.server
  authority : ∃ v, authorityPath base (cluster.get "certificate-authority") = .ok v ∧
    Field.textOrNull "certificate_authority" v = .ok c.certificateAuthority
  certificates : Field.textOrNull "certificate_authority_data"
    (cluster.get "certificate-authority-data") =
    .ok c.certificateAuthorityData
  insecure : c.insecure = (cluster.get "insecure-skip-tls-verify").isTruthy
  token : ∃ v, (token host base user).result = .ok v ∧ Field.textOrNull "token" v = .ok c.token

/-- What a context consists of is taken from the three entries that the name of the context leads
to. -/
theorem exists_takenFrom {c : ClusterContext} (hc : (read host data base).result = .ok c)
    (hcurrent : (data.get "current-context").isTruthy = true) :
    ∃ context cluster user, GivesContext data context ∧ GivesCluster data context cluster ∧
      GivesUser data context user ∧ TakenFrom host base cluster user c := by
  rw [result_read hcurrent] at hc
  -- Each link of the chain succeeded, in the order in which they are followed.
  simp only [bind_eq_ok_iff, entries_eq_ok_iff] at hc
  obtain ⟨context, hcontext, cluster, hcluster, authority, hauthority, user, huser, token, htoken,
    hfields⟩ := hc
  refine ⟨context, cluster, user, gives_iff.mpr hcontext, gives_iff.mpr hcluster,
    gives_iff.mpr huser, ?_⟩
  -- The fields are kept as they are, once all of them have their types.
  unfold ofFields at hfields
  split at hfields
  · next hname hns hserver hca hdata hfieldToken =>
    obtain rfl := Except.ok.inj hfields
    exact ⟨hserver, ⟨authority, hauthority, hca⟩, hdata, rfl, ⟨token, htoken, hfieldToken⟩⟩
  · exact nomatch hfields

/-- **Only the current context counts.** Reading two documents that name the same current context
and, if this counts as given, lead alike from there, is the same: the same context or failure, with
the same notes. All edits of other entries of a list keep the entry that a name leads to. And the
server, the certificates and the token of a context that is read are those of the cluster and the
user to which its document leads, and there are none if no context counts as given. -/
theorem read_of_leadsAlike (hcurrent : data'.get "current-context" = data.get "current-context")
    (halike : (data.get "current-context").isTruthy = true →
      LeadsAlike base host host' data data') :
    read host' data' base = read host data base ∧
    (∀ name items items', Edited name items items' → SameFirst name items items') ∧
    (∀ c, (read host data base).result = .ok c →
      ((data.get "current-context").isTruthy = false ∧ c = {}) ∨
      ∃ context cluster user, GivesContext data context ∧ GivesCluster data context cluster ∧
        GivesUser data context user ∧ TakenFrom host base cluster user c) := by
  refine ⟨?same, fun name items items' => sameFirst_of_edited, ?taken⟩
  case same =>
    cases hgiven : (data.get "current-context").isTruthy with
    | false =>
      have hgiven' : (data'.get "current-context").isTruthy = false := by rw [hcurrent, hgiven]
      rw [read_of_not_isTruthy hgiven, read_of_not_isTruthy hgiven']
    | true =>
      -- First the other document on its machine, then the same document on two machines.
      have h := halike hgiven
      calc
        read host' data' base = read host' data base := h.read_eq hcurrent
        _ = read host data base := h.read_congr
  case taken =>
    intro c hc
    cases hgiven : (data.get "current-context").isTruthy with
    | false =>
      rw [read_of_not_isTruthy hgiven] at hc
      exact Or.inl ⟨rfl, (Except.ok.inj hc).symm⟩
    | true => exact Or.inr (exists_takenFrom hc hgiven)

/-- An entry of a list with a name and a part. -/
def entryNamed (name key : String) (part : Mapping) : Value :=
  .mapping [(.text "name", .text name), (.text key, .mapping part)]

theorem isNamed_entryNamed {s t : String} : IsNamed (.text s) (entryNamed t key part) ↔ s = t := by
  constructor
  · rintro ⟨m, hm, hname⟩
    obtain rfl := Value.mapping.inj hm
    simpa [Mapping.get, Mapping.get?, Value.same, eq_comm] using hname
  · rintro rfl
    exact ⟨_, rfl, by simp [Mapping.get, Mapping.get?, Value.same]⟩

/-- A document with these lists around the entries to which the context `dev` leads. -/
def devDocument (before after : List Value) : Mapping :=
  [(.text "current-context", .text "dev"),
   (.text "contexts", .list (before ++
      entryNamed "dev" "context" [(.text "cluster", .text "main"), (.text "user", .text "ann")] ::
      after)),
   (.text "clusters",
     .list (before ++ entryNamed "main" "cluster"
       [(.text "server", .text "https://main")] :: after)),
   (.text "users",
     .list (before ++ entryNamed "ann" "user" [(.text "tokenFile", .text "ann.token")] :: after))]

/-- A machine with the token file of one user. -/
def annsDesk : Host where
  files := { entries := [(["ann.token"], .file (FileTree.encode "a1"))] }

/-- The same machine with the token file of another user. -/
def sharedDesk : Host :=
  { annsDesk with files := annsDesk.files.put ["bob.token"] (.file (FileTree.encode "b2")) }

/-- An item that is no entry, an entry of another name and one of no name. -/
def othersBefore : List Value :=
  [.text "dev", entryNamed "prod" "context" [(.text "cluster", .text "other")], .mapping []]

/-- Entries of the same names with other parts. -/
def othersAfter : List Value :=
  [entryNamed "dev" "context" [(.text "cluster", .text "other"), (.text "user", .text "bob")],
   entryNamed "main" "cluster" [(.text "server", .text "https://other")],
   entryNamed "ann" "user" [(.text "token", .text "b2")]]

theorem not_isNamed_othersBefore {s : String} (hs : s ≠ "prod") :
    ∀ v ∈ othersBefore, ¬ IsNamed (.text s) v := by
  unfold othersBefore
  simp only [List.forall_mem_cons, List.not_mem_nil, false_imp_iff, implies_true, and_true]
  refine ⟨?_, ?_, ?_⟩
  · rintro ⟨m, hm, -⟩
    exact nomatch hm
  · exact fun h => hs (isNamed_entryNamed.mp h)
  · rintro ⟨m, hm, hname⟩
    obtain rfl := Value.mapping.inj hm
    exact absurd hname (by simp [Mapping.get, Mapping.get?, Value.same])

theorem sameFirst_othersBefore {s : String} (hs : s ≠ "prod") :
    SameFirst (.text s) ([] ++ entryNamed s key part :: [])
      (othersBefore ++ entryNamed s key part :: othersAfter) :=
  sameFirst_of_edited (.trans (.others [] _ (fun _ hv => nomatch hv) (not_isNamed_othersBefore hs))
    (.later othersBefore _ _ (isNamed_entryNamed.mpr rfl)))

theorem eq_of_gives_entryNamed {s : String} (hkey : key ≠ "name")
    (h : Gives [entryNamed s key part] (.text s) key m) : part = m := by
  have hfirst :
      first? (.text s) [entryNamed s key part] =
        some [(.text "name", .text s), (.text key, .mapping part)] := by
    obtain ⟨m, hm, hfirst⟩ := first?_of_isNamed (isNamed_entryNamed.mpr (rfl : s = s))
    obtain rfl := Value.mapping.inj hm
    exact hfirst
  have hget : Mapping.get [(.text "name", .text s), (.text key, .mapping part)] key =
      .mapping part := by
    simp [Mapping.get, Mapping.get?, hkey.symm]
  -- The one entry has the name, so the first entry with the name is this one in each case.
  cases h with
  | entry hentry hpart =>
    obtain rfl := Option.some.inj (hfirst.symm.trans (first?_of_first hentry))
    exact Value.mapping.inj (hget.symm.trans hpart)
  | blank hentry hpart =>
    obtain rfl := Option.some.inj (hfirst.symm.trans (first?_of_first hentry))
    rw [hget] at hpart
    exact List.isEmpty_iff.mp (by simpa [Value.isTruthy] using hpart)
  | absent hentry =>
    exact absurd (hfirst.symm.trans (first?_of_first hentry)) (Option.some_ne_none _)

theorem leadsAlike_devDocument :
    LeadsAlike (FilePath.ofText "/") annsDesk sharedDesk (devDocument [] [])
      (devDocument othersBefore othersAfter) := by
  constructor
  case contexts => exact sameFirst_othersBefore (by decide)
  case clusters =>
    intro context hcontext
    obtain rfl := eq_of_gives_entryNamed (by decide) hcontext
    exact sameFirst_othersBefore (by decide)
  case users =>
    intro context hcontext
    obtain rfl := eq_of_gives_entryNamed (by decide) hcontext
    exact sameFirst_othersBefore (by decide)
  case tokenFile =>
    intro context user path hcontext huser hpath
    obtain rfl := eq_of_gives_entryNamed (by decide) hcontext
    obtain rfl := eq_of_gives_entryNamed (by decide) huser
    obtain rfl : "ann.token" = path := Value.text.inj hpath
    rfl

/-- The main statement on these documents: the token is still that of the one user. -/
theorem read_devDocument :
    (devDocument othersBefore othersAfter).get "current-context" =
      (devDocument [] []).get "current-context" ∧
      LeadsAlike (FilePath.ofText "/") annsDesk sharedDesk (devDocument [] [])
        (devDocument othersBefore othersAfter) ∧
      read sharedDesk (devDocument othersBefore othersAfter) (FilePath.ofText "/") =
        read annsDesk (devDocument [] []) (FilePath.ofText "/") ∧
      (read annsDesk (devDocument [] []) (FilePath.ofText "/")).result =
        .ok { name := "dev", server := "https://main", token := some "a1" } := by
  have hcurrent : (devDocument othersBefore othersAfter).get "current-context" =
      (devDocument [] []).get "current-context" := rfl
  have hsame := (read_of_leadsAlike hcurrent (fun _ => leadsAlike_devDocument)).1
  exact ⟨hcurrent, leadsAlike_devDocument, hsame, by decide +kernel⟩

end PipelineRuns.Kubeconfig
