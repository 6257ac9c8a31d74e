import Mathlib.Data.List.Infix
import PipelineRuns.Files.Tree
import PipelineRuns.Proofs.Lists

/-!
# What stands where after directories are made

The list of entries of a `FileTree` may hold anything; `FileTree.IsTree` says that it is a tree:
whatever stands somewhere stands in a directory. In a tree a path without double dots leads to one
place (`FileTree.place`), and what is found there does not depend on the way to it
(`IsTree.entryAt_eq_ok_iff`).

Two operations change a tree. `FileTree.makeDirectories` adds the directories down to a place
(`WithDirectories`), which is an induction on the number of parts that are made, and
`FileTree.write` then puts a file into the last of them. What both do together is
`FileTree.WithFile`: the file is there, the places above it are directories that were there before
or were missing, and every other place is as it was.

Where a path goes up through double dots, less can be said, but `FileTree.Keeps` still holds of the
directories that are made: nothing that stood somewhere is touched.
-/

namespace PipelineRuns.FileTree

variable {t t' t'' : FileTree} {p : FilePath}

/-! ### The view of a tree -/

@[simp] theorem get?_root (t : FileTree) : t.get? [] = some .directory := rfl

/-- Putting something at a place is seen there and nowhere else. -/
theorem get?_put (t : FileTree) {place : Place} (h : place ≠ []) (e : FileEntry) (q : Place) :
    (t.put place e).get? q = if q = place then some e else t.get? q := by
  by_cases hq : q = place
  · rw [if_pos hq, hq, get?_put_self t h]
  · have hbeq : (q == place) = false := beq_eq_false_iff_ne.mpr hq
    rw [if_neg hq]
    unfold get? put
    simp only [List.lookup_cons, hbeq, lookup_filter_ne hq t.entries]

/-- What stands in a tree stands in a directory, and relative paths start from a directory. -/
structure IsTree (t : FileTree) : Prop where
  here : t.get? t.here = some .directory
  parent : ∀ place, t.get? place ≠ none → t.get? place.dropLast = some .directory

theorem isTree_iff (t : FileTree) :
    t.IsTree ↔ t.get? t.here = some .directory ∧
      ∀ e ∈ t.entries, t.get? e.1.dropLast = some .directory := by
  constructor
  · intro h
    refine ⟨h.here, fun e he => h.parent e.1 ?_⟩
    unfold get?
    split
    · exact Option.some_ne_none _
    · rw [Ne, List.lookup_eq_none_iff]
      intro hnone
      exact absurd (hnone e he) (by simp)
  · rintro ⟨hhere, hentries⟩
    refine ⟨hhere, fun place hplace => ?_⟩
    cases place with
    | nil => rfl
    | cons name rest =>
      -- What stands at a place below the root has an entry, whose key is that place.
      have hlookup : t.entries.lookup (name :: rest) ≠ none := hplace
      rw [Ne, List.lookup_eq_none_iff, not_forall] at hlookup
      obtain ⟨e, he⟩ := hlookup
      obtain ⟨hmem, heq⟩ := Classical.not_imp.mp he
      have hkey : name :: rest = e.1 := by simpa using heq
      rw [hkey]
      exact hentries e hmem

instance (t : FileTree) : Decidable t.IsTree :=
  decidable_of_iff _ (isTree_iff t).symm

/-- All places above one where something stands are directories. -/
theorem IsTree.get?_of_prefix (h : t.IsTree) {q place : Place} (hq : q <+: place) (hne : q ≠ place)
    (hplace : t.get? place ≠ none) : t.get? q = some .directory := by
  -- From the place up to the root: each step is one use of `IsTree.parent`.
  induction place using List.reverseRecOn with
  | nil => exact absurd (List.prefix_nil.mp hq) hne
  | append_singleton above name ih =>
    have habove : t.get? above = some .directory := by
      have hparent := h.parent _ hplace
      rwa [List.dropLast_concat] at hparent
    rcases List.prefix_concat_iff.mp hq with heq | hq
    · exact absurd heq hne
    by_cases heq : q = above
    · rw [heq, habove]
    · exact ih hq heq (by rw [habove]; exact Option.some_ne_none _)

/-! ### Where paths lead -/

/-- Where the way of a path starts. -/
def start (t : FileTree) (p : FilePath) : Place :=
  if p.isAbsolute then [] else t.here

/-- The place that a path without double dots stands for. -/
def place (t : FileTree) (p : FilePath) : Place :=
  t.start p ++ p.parts

/-- The way along names without double dots leads down, through directories only. -/
theorem follow_eq_ok_iff {spot q : Place} {names : List String} (hdots : ".." ∉ names) :
    t.follow spot names = .ok q ↔
      q = spot ++ names ∧ ∀ part, part <+: names → part ≠ names →
      t.get? (spot ++ part) = some .directory := by
  induction names generalizing spot with
  | nil =>
    rw [follow, List.append_nil]
    constructor
    · intro h
      exact ⟨(Except.ok.inj h).symm, fun part hpart hne => absurd (List.prefix_nil.mp hpart) hne⟩
    · rintro ⟨rfl, -⟩
      rfl
  | cons name rest ih =>
    rw [List.mem_cons, not_or] at hdots
    -- The way goes on from `spot` only if there is a directory.
    have hcons : t.follow spot (name :: rest) = .ok q ↔
        t.get? spot = some .directory ∧ t.follow (spot ++ [name]) rest = .ok q := by
      rw [follow]
      cases hspot : t.get? spot with
      | none => simp
      | some e =>
        cases e with
        | directory => simp [Ne.symm hdots.1]
        | file content => simp
        | damaged => simp
    rw [hcons, ih hdots.2, List.append_assoc, List.singleton_append]
    -- A beginning of `name :: rest` is empty, which is about `spot`, or begins with `name`.
    constructor
    · rintro ⟨hspot, rfl, hrest⟩
      refine ⟨rfl, fun part hpart hne => ?_⟩
      rcases List.prefix_cons_iff.mp hpart with rfl | ⟨below, rfl, hbelow⟩
      · rwa [List.append_nil]
      · have hgoes := hrest below hbelow (fun heq => hne (heq ▸ rfl))
        rwa [List.append_assoc, List.singleton_append] at hgoes
    · rintro ⟨rfl, hall⟩
      refine ⟨?_, rfl, fun part hpart hne => ?_⟩
      · have hspot := hall [] List.nil_prefix (List.cons_ne_nil _ _).symm
        rwa [List.append_nil] at hspot
      · rw [List.append_assoc, List.singleton_append]
        exact hall (name :: part) (List.prefix_cons_inj name |>.mpr hpart)
          (fun heq => hne (List.cons.inj heq).2)

theorem prefix_dropLast_of_ne {q place : Place} (hq : q <+: place) (hne : q ≠ place) :
    q <+: place.dropLast := by
  rcases List.eq_nil_or_concat place with rfl | ⟨above, name, rfl⟩
  · exact absurd (List.prefix_nil.mp hq) hne
  · rw [List.concat_eq_append] at hq hne ⊢
    rw [List.dropLast_concat]
    exact (List.prefix_concat_iff.mp hq).resolve_left hne

theorem IsTree.start (h : t.IsTree) (p : FilePath) : t.get? (t.start p) = some .directory := by
  unfold FileTree.start
  split
  · rfl
  · exact h.here

theorem dropLast_place (hparts : p.parts ≠ []) :
    (t.place p).dropLast = t.start p ++ p.parts.dropLast :=
  List.dropLast_append_of_ne_nil hparts

theorem place_ne_nil (t : FileTree) (hparts : p.parts ≠ []) : t.place p ≠ [] :=
  List.append_ne_nil_of_right_ne_nil _ hparts

theorem place_parent (hparts : p.parts ≠ []) : t.place p.parent = (t.place p).dropLast :=
  (dropLast_place hparts).symm

/-- A path leads to its place when the place is in a directory. -/
theorem IsTree.locate_eq_ok_iff (h : t.IsTree) (hdots : ".." ∉ p.parts) {q : Place} :
    t.locate p = .ok q ↔
      q = t.place p ∧ (p.parts ≠ [] → t.get? (t.place p).dropLast = some .directory) := by
  have hfollow : t.locate p = .ok q ↔ q = t.place p ∧
      ∀ part, part <+: p.parts → part ≠ p.parts → t.get? (t.start p ++ part) = some .directory :=
    follow_eq_ok_iff hdots
  rw [hfollow]
  -- In a tree it is enough that the last directory on the way is there: those above it are, too.
  refine and_congr_right (fun _ => ⟨fun hall hparts => ?_, fun hparent part hpart hne => ?_⟩)
  · rw [dropLast_place hparts]
    refine hall _ (List.dropLast_prefix _) (fun heq => ?_)
    have hlength := congrArg List.length heq
    have hpos := List.length_pos_of_ne_nil hparts
    rw [List.length_dropLast] at hlength
    omega
  · have hparts : p.parts ≠ [] := fun hnil => hne (hnil ▸ List.prefix_nil.mp (hnil ▸ hpart))
    have hlast := hparent hparts
    rw [dropLast_place hparts] at hlast
    by_cases heq : part = p.parts.dropLast
    · rw [heq, hlast]
    · refine h.get?_of_prefix ?_ (fun hsame => heq (List.append_cancel_left hsame))
        (by rw [hlast]; exact Option.some_ne_none _)
      exact (List.prefix_append_right_inj _).mpr (prefix_dropLast_of_ne hpart hne)

/-- **In a tree, what a path leads to is what stands at its place.** -/
theorem IsTree.entryAt_eq_ok_iff (h : t.IsTree) (hdots : ".." ∉ p.parts) {e : FileEntry} :
    t.entryAt p = .ok e ↔ t.get? (t.place p) = some e := by
  unfold entryAt
  cases hlocate : t.locate p with
  | ok q =>
    obtain ⟨rfl, -⟩ := (h.locate_eq_ok_iff hdots).mp hlocate
    cases hget : t.get? (t.place p) with
    | none => simp [hget]
    | some found => simp [hget]
  | error c =>
    -- Nothing stands where no way leads.
    have hnone : t.get? (t.place p) = none := by
      by_contra hsome
      have hok := (h.locate_eq_ok_iff hdots).mpr ⟨rfl, fun _ => h.parent _ hsome⟩
      exact nomatch hlocate.symm.trans hok
    simp [hnone]

theorem IsTree.isDirectory_iff (h : t.IsTree) (hdots : ".." ∉ p.parts) :
    t.isDirectory p = true ↔ t.get? (t.place p) = some .directory := by
  rw [← h.entryAt_eq_ok_iff hdots]
  unfold isDirectory
  split
  · next heq => simp [heq]
  · next hne =>
    constructor
    · exact fun hfalse => nomatch hfalse
    · exact fun heq => absurd heq hne

theorem IsTree.isPresent_iff (h : t.IsTree) (hdots : ".." ∉ p.parts) :
    t.isPresent p = true ↔ t.get? (t.place p) ≠ none := by
  have hentry (e : FileEntry) := h.entryAt_eq_ok_iff hdots (e := e)
  unfold isPresent
  cases hp : t.entryAt p with
  | ok e => simp [(hentry e).mp hp]
  | error c =>
    have hnone : t.get? (t.place p) = none :=
      Option.eq_none_iff_forall_ne_some.mpr (fun e he => nomatch hp.symm.trans ((hentry e).mpr he))
    simp [hnone]

/-! ### Making directories -/

/-- `t'` is `t` with a directory at `place` and at each place above it; only missing ones were
added. -/
structure WithDirectories (t : FileTree) (place : Place) (t' : FileTree) : Prop where
  here_eq : t'.here = t.here
  get?_eq : ∀ q, t'.get? q = if q <+: place then some .directory else t.get? q
  free : ∀ q, q <+: place → t.get? q = none ∨ t.get? q = some .directory

theorem WithDirectories.start_eq {place : Place} (h : t.WithDirectories place t') (p : FilePath) :
    t'.start p = t.start p := by
  unfold FileTree.start
  rw [h.here_eq]

theorem WithDirectories.place_eq {place : Place} (h : t.WithDirectories place t') (p : FilePath) :
    t'.place p = t.place p := by
  unfold FileTree.place
  rw [h.start_eq]

theorem not_prefix_dropLast {place : Place} (hne : place ≠ []) : ¬ place <+: place.dropLast := by
  intro hle
  have hlength := hle.length_le
  have hpos := List.length_pos_of_ne_nil hne
  rw [List.length_dropLast] at hlength
  omega

/-- Directories that are made add nothing below them. -/
theorem WithDirectories.get?_below {place : Place} (h : t.WithDirectories place.dropLast t')
    (hne : place ≠ []) : t'.get? place = t.get? place := by
  rw [h.get?_eq, if_neg (not_prefix_dropLast hne)]

/-- Where the directories are there already, nothing changes. -/
theorem IsTree.withDirectories_self (h : t.IsTree) {place : Place}
    (hplace : t.get? place = some .directory) : t.WithDirectories place t := by
  have hall (q : Place) (hq : q <+: place) : t.get? q = some .directory := by
    by_cases heq : q = place
    · rw [heq, hplace]
    · exact h.get?_of_prefix hq heq (by rw [hplace]; exact Option.some_ne_none _)
  refine ⟨rfl, fun q => ?_, fun q hq => Or.inr (hall q hq)⟩
  split
  · next hq => exact hall q hq
  · rfl

theorem WithDirectories.trans {place below : Place} (hle : place <+: below)
    (h : t.WithDirectories place t') (h' : t'.WithDirectories below t'') :
    t.WithDirectories below t'' := by
  refine ⟨h'.here_eq.trans h.here_eq, fun q => ?_, fun q hq => ?_⟩
  · rw [h'.get?_eq]
    by_cases hq : q <+: below
    · rw [if_pos hq, if_pos hq]
    · rw [if_neg hq, if_neg hq, h.get?_eq, if_neg (fun hqp => hq (hqp.trans hle))]
  · by_cases hqp : q <+: place
    · exact h.free q hqp
    · have hfree := h'.free q hq
      rwa [h.get?_eq, if_neg hqp] at hfree

/-- A directory at a free place of a directory. -/
theorem IsTree.withDirectories_put (h : t.IsTree) {place : Place} (hnone : t.get? place = none)
    (hparent : t.get? place.dropLast = some .directory) :
    t.WithDirectories place (t.put place .directory) := by
  have hne : place ≠ [] := by
    rintro rfl
    exact nomatch hnone
  -- Above the new directory nothing changes; that is the case of directories that are there
  -- already.
  have hself := h.withDirectories_self hparent
  refine ⟨rfl, fun q => ?_, fun q hq => ?_⟩
  · rw [get?_put t hne]
    by_cases heq : q = place
    · rw [if_pos heq, if_pos (heq ▸ List.prefix_refl q)]
    · rw [if_neg heq]
      split
      · next hq => exact (hself.get?_eq q).trans (if_pos (prefix_dropLast_of_ne hq heq))
      · rfl
  · by_cases heq : q = place
    · exact Or.inl (heq ▸ hnone)
    · exact hself.free q (prefix_dropLast_of_ne hq heq)

/-- A tree stays a tree. -/
theorem WithDirectories.isTree {place : Place} (h : t.WithDirectories place t') (ht : t.IsTree) :
    t'.IsTree := by
  have hkept {q : Place} (hq : t.get? q = some .directory) : t'.get? q = some .directory := by
    rw [h.get?_eq]
    split
    · rfl
    · exact hq
  refine ⟨h.here_eq ▸ hkept ht.here, fun q hq => ?_⟩
  by_cases hle : q <+: place
  · rw [h.get?_eq, if_pos ((List.dropLast_prefix q).trans hle)]
  · rw [h.get?_eq, if_neg hle] at hq
    exact hkept (ht.parent q hq)

theorem IsTree.withDirectories_makeDirectory (h : t.IsTree) (hdots : ".." ∉ p.parts)
    (hok : t.makeDirectory p = .ok t') : t.WithDirectories (t.place p) t' := by
  unfold makeDirectory at hok
  cases hlocate : t.locate p with
  | error c => simp [hlocate] at hok
  | ok q =>
    obtain ⟨rfl, hparent⟩ := (h.locate_eq_ok_iff hdots).mp hlocate
    cases hget : t.get? (t.place p) with
    | some e => simp [hlocate, hget] at hok
    | none =>
      have hput : t.put (t.place p) .directory = t' := by simpa [hlocate, hget] using hok
      have hparts : p.parts ≠ [] := by
        intro hnil
        rw [place, hnil, List.append_nil, h.start p] at hget
        exact nomatch hget
      rw [← hput]
      exact h.withDirectories_put hget (hparent hparts)

theorem IsTree.withDirectories_ensureDirectory (h : t.IsTree) (hdots : ".." ∉ p.parts)
    (hok : t.ensureDirectory p = .ok t') : t.WithDirectories (t.place p) t' := by
  unfold ensureDirectory at hok
  cases hmake : t.makeDirectory p with
  | ok made =>
    obtain rfl : made = t' := by simpa [hmake] using hok
    exact h.withDirectories_makeDirectory hdots hmake
  | error fault =>
    by_cases hdirectory : t.isDirectory p = true
    · obtain rfl : t = t' := by simpa [hmake, hdirectory] using hok
      exact h.withDirectories_self ((h.isDirectory_iff hdots).mp hdirectory)
    · -- Something else stands there, and that is an error.
      simp [hmake, hdirectory] at hok

/-- One directory after the other is made, from the first missing one down. -/
theorem IsTree.withDirectories_makeDirectoriesUpTo (h : t.IsTree) (hdots : ".." ∉ p.parts) (n : Nat)
    (hok : t.makeDirectoriesUpTo p n = .ok t') :
    t.WithDirectories (t.start p ++ p.parts.take n) t' := by
  induction n generalizing t' with
  | zero => exact h.withDirectories_ensureDirectory List.not_mem_nil hok
  | succ n ih =>
    have hdots' : ".." ∉ p.parts.take (n + 1) := fun hmem => hdots (List.mem_of_mem_take hmem)
    rw [makeDirectoriesUpTo] at hok
    cases hmake : t.makeDirectory ⟨p.root, p.parts.take (n + 1)⟩ with
    | ok made =>
      obtain rfl : made = t' := by simpa [hmake] using hok
      exact h.withDirectories_makeDirectory hdots' hmake
    | error fault =>
      by_cases hmissing : fault.cause = .missing
      · -- The directory above is made first, so there are two steps to put together.
        cases habove : t.makeDirectoriesUpTo p n with
        | error fault' => simp [hmake, hmissing, habove, bind, Except.bind] at hok
        | ok made =>
          have hensure : made.ensureDirectory ⟨p.root, p.parts.take (n + 1)⟩ = .ok t' := by
            simpa [hmake, hmissing, habove, bind, Except.bind] using hok
          have hmade := ih habove
          have hlast := (hmade.isTree h).withDirectories_ensureDirectory hdots' hensure
          unfold place at hlast
          rw [hmade.start_eq] at hlast
          refine hmade.trans ?_ hlast
          exact (List.prefix_append_right_inj _).mpr (List.take_prefix_take_left (Nat.le_succ n))
      · by_cases hdirectory : t.isDirectory ⟨p.root, p.parts.take (n + 1)⟩ = true
        · obtain rfl : t = t' := by simpa [hmake, hmissing, hdirectory] using hok
          exact h.withDirectories_self ((h.isDirectory_iff hdots').mp hdirectory)
        · simp [hmake, hmissing, hdirectory] at hok

/-- **Making directories** adds the missing ones down to the place, and nothing else. -/
theorem IsTree.withDirectories_makeDirectories (h : t.IsTree) (hdots : ".." ∉ p.parts)
    (hok : t.makeDirectories p = .ok t') : t.WithDirectories (t.place p) t' := by
  have hall := h.withDirectories_makeDirectoriesUpTo hdots _ hok
  rwa [List.take_length] at hall

/-! ### Writing a file -/

/-- `t'` is `t` with a file of this content at `place`, where no directory was, and with the
directories above it that were missing. -/
structure WithFile (t : FileTree) (place : Place) (content : List UInt8) (t' : FileTree) :
    Prop where
  here_eq : t'.here = t.here
  free : t.get? place ≠ some .directory
  file : t'.get? place = some (.file content)
  above : ∀ q, q <+: place → q ≠ place →
    t'.get? q = some .directory ∧ (t.get? q = none ∨ t.get? q = some .directory)
  others : ∀ q, ¬ q <+: place → t'.get? q = t.get? q

/-- A file is written where no directory stands, in a directory. -/
theorem IsTree.write_eq_ok_iff (h : t.IsTree) (hdots : ".." ∉ p.parts) (hparts : p.parts ≠ [])
    (s : String) :
    t.write p s = .ok t' ↔
      t.get? (t.place p).dropLast = some .directory ∧ t.get? (t.place p) ≠ some .directory ∧
        t' = t.put (t.place p) (.file (encode s)) := by
  unfold write
  cases hlocate : t.locate p with
  | error c =>
    -- Where no way leads, it is the directory that is missing.
    have hparent : t.get? (t.place p).dropLast ≠ some .directory := fun hparent =>
      nomatch hlocate.symm.trans ((h.locate_eq_ok_iff hdots).mpr ⟨rfl, fun _ => hparent⟩)
    simp [hparent]
  | ok q =>
    obtain ⟨rfl, hparent⟩ := (h.locate_eq_ok_iff hdots).mp hlocate
    simp only [hparent hparts, true_and]
    cases hget : t.get? (t.place p) with
    | none => simp [eq_comm]
    | some e =>
      cases e with
      | directory => simp
      | file content => simp [eq_comm]
      | damaged => simp [eq_comm]

/-- A file in a directory that was made for it. -/
theorem WithDirectories.withFile {place : Place} (hne : place ≠ [])
    (h : t.WithDirectories place.dropLast t') (hfree : t'.get? place ≠ some .directory)
    (content : List UInt8) : t.WithFile place content (t'.put place (.file content)) := by
  refine ⟨h.here_eq, h.get?_below hne ▸ hfree, get?_put_self t' hne _, fun q hq hqne => ?_,
    fun q hq => ?_⟩
  · have hle := prefix_dropLast_of_ne hq hqne
    rw [get?_put t' hne, if_neg hqne, h.get?_eq, if_pos hle]
    exact ⟨rfl, h.free q hle⟩
  · have hqne : q ≠ place := by
      rintro rfl
      exact hq (List.prefix_refl q)
    rw [get?_put t' hne, if_neg hqne, h.get?_eq,
      if_neg (fun hle => hq (hle.trans (List.dropLast_prefix place)))]

namespace WithFile

variable {place : Place} {content : List UInt8}

/-- Directories stay. -/
theorem get?_of_directory (h : t.WithFile place content t') {q : Place}
    (hq : t.get? q = some .directory) : t'.get? q = some .directory := by
  have hne : q ≠ place := by
    rintro rfl
    exact h.free hq
  by_cases hle : q <+: place
  · exact (h.above q hle hne).1
  · rw [h.others q hle, hq]

theorem isTree (h : t.WithFile place content t') (ht : t.IsTree) : t'.IsTree := by
  refine ⟨h.here_eq ▸ h.get?_of_directory ht.here, fun q hq => ?_⟩
  by_cases hle : q <+: place
  · rcases List.eq_nil_or_concat q with rfl | ⟨above, name, rfl⟩
    · rfl
    · -- What stands directly above a part of the place is a shorter part of it.
      rw [List.concat_eq_append] at hle ⊢
      rw [List.dropLast_concat]
      refine (h.above above ((List.prefix_append _ _).trans hle) ?_).1
      rintro rfl
      exact absurd hle.length_le (by simp)
  · rw [h.others q hle] at hq
    exact h.get?_of_directory (ht.parent q hq)

theorem place_eq (h : t.WithFile place content t') (p : FilePath) : t'.place p = t.place p := by
  unfold FileTree.place FileTree.start
  rw [h.here_eq]

/-- The file can be read where its path leads. -/
theorem read?_eq (h : t.WithFile (t.place p) content t') (ht : t.IsTree) (hdots : ".." ∉ p.parts) :
    t'.read? p = .ok content := by
  have hentry : t'.entryAt p = .ok (.file content) := by
    rw [(h.isTree ht).entryAt_eq_ok_iff hdots, h.place_eq, h.file]
  unfold read?
  rw [hentry]

end WithFile

/-! ### What is there stays -/

/-- Everything that stands somewhere in `t` stands there in `t'` as well. -/
structure Keeps (t t' : FileTree) : Prop where
  here_eq : t'.here = t.here
  get?_eq : ∀ q e, t.get? q = some e → t'.get? q = some e

namespace Keeps

theorem refl (t : FileTree) : t.Keeps t := ⟨rfl, fun _ _ h => h⟩

theorem trans (h : t.Keeps t') (h' : t'.Keeps t'') : t.Keeps t'' :=
  ⟨h'.here_eq.trans h.here_eq, fun q e hq => h'.get?_eq q e (h.get?_eq q e hq)⟩

/-- Putting something at a free place. -/
theorem put {q : Place} (hnone : t.get? q = none) (e : FileEntry) : t.Keeps (t.put q e) := by
  have hne : q ≠ [] := by
    rintro rfl
    exact nomatch hnone
  refine ⟨rfl, fun place found hfound => ?_⟩
  rw [get?_put t hne, if_neg, hfound]
  rintro rfl
  exact nomatch hnone.symm.trans hfound

theorem makeDirectory (h : t.makeDirectory p = .ok t') : t.Keeps t' := by
  unfold FileTree.makeDirectory at h
  cases hlocate : t.locate p with
  | error c => simp [hlocate] at h
  | ok place =>
    cases hget : t.get? place with
    | some e => simp [hlocate, hget] at h
    | none =>
      obtain rfl : t.put place .directory = t' := by simpa [hlocate, hget] using h
      exact put hget _

theorem ensureDirectory (h : t.ensureDirectory p = .ok t') : t.Keeps t' := by
  unfold FileTree.ensureDirectory at h
  cases hmake : t.makeDirectory p with
  | ok made =>
    obtain rfl : made = t' := by simpa [hmake] using h
    exact makeDirectory hmake
  | error fault =>
    by_cases hdirectory : t.isDirectory p = true
    · obtain rfl : t = t' := by simpa [hmake, hdirectory] using h
      exact refl t
    · simp [hmake, hdirectory] at h

/-- Directories are made from the first missing one down, each where nothing was. -/
theorem makeDirectoriesUpTo (n : Nat) (h : t.makeDirectoriesUpTo p n = .ok t') : t.Keeps t' := by
  induction n generalizing t' with
  | zero => exact ensureDirectory h
  | succ n ih =>
    rw [FileTree.makeDirectoriesUpTo] at h
    cases hmake : t.makeDirectory ⟨p.root, p.parts.take (n + 1)⟩ with
    | ok made =>
      obtain rfl : made = t' := by simpa [hmake] using h
      exact makeDirectory hmake
    | error fault =>
      -- Where the directory above is missing it is made first, and the directory after it.
      by_cases hmissing : fault.cause = .missing
      · cases habove : t.makeDirectoriesUpTo p n with
        | error fault' => simp [hmake, hmissing, habove, bind, Except.bind] at h
        | ok made =>
          have hlast : made.ensureDirectory ⟨p.root, p.parts.take (n + 1)⟩ = .ok t' := by
            simpa [hmake, hmissing, habove, bind, Except.bind] using h
          exact (ih habove).trans (ensureDirectory hlast)
      · by_cases hdirectory : t.isDirectory ⟨p.root, p.parts.take (n + 1)⟩ = true
        · obtain rfl : t = t' := by simpa [hmake, hmissing, hdirectory] using h
          exact refl t
        · simp [hmake, hmissing, hdirectory] at h

/-- Making directories leaves everything as it is, wherever the path leads. -/
theorem makeDirectories (h : t.makeDirectories p = .ok t') : t.Keeps t' :=
  makeDirectoriesUpTo _ h

end Keeps

/-- A way through directories is still there where all directories are. -/
theorem follow_of_directories (hkept : ∀ s, t.get? s = some .directory →
    t'.get? s = some .directory)
    {spot q : Place} {names : List String} (h : t.follow spot names = .ok q) :
    t'.follow spot names = .ok q := by
  induction names generalizing spot with
  | nil => exact h
  | cons name rest ih =>
    unfold follow at h ⊢
    cases hspot : t.get? spot with
    | none => simp [hspot] at h
    | some e =>
      cases e with
      | directory =>
        rw [hkept spot hspot]
        rw [hspot] at h
        exact ih h
      | file content => simp [hspot] at h
      | damaged => simp [hspot] at h

/-- A file is written where its path leads, and nowhere else. -/
theorem exists_of_write {s : String} (h : t.write p s = .ok t') :
    ∃ q, t.locate p = .ok q ∧ t'.locate p = .ok q ∧ ∀ place, place ≠ q →
      t'.get? place = t.get? place := by
  unfold write at h
  cases hlocate : t.locate p with
  | error c => simp [hlocate] at h
  | ok q =>
    -- The place held no directory, so no way of `t` leads over it.
    have hput : t.get? q ≠ some .directory ∧ t.put q (.file (encode s)) = t' := by
      simp only [hlocate] at h
      split at h
      · exact nomatch h
      · next hfree => exact ⟨hfree, Except.ok.inj h⟩
      · exact nomatch h
      · exact nomatch h
    obtain ⟨hfree, rfl⟩ := hput
    have hne : q ≠ [] := by
      rintro rfl
      exact hfree rfl
    have hothers (place : Place) (hplace : place ≠ q) :
        (t.put q (.file (encode s))).get? place = t.get? place := by
      rw [get?_put t hne, if_neg hplace]
    refine ⟨q, rfl, follow_of_directories (fun spot hspot => ?_) hlocate, hothers⟩
    rw [hothers spot, hspot]
    rintro rfl
    exact hfree hspot

/-- Where a path leads to nothing, writing there replaces nothing. -/
theorem Keeps.write {s : String} (hfree : t.isPresent p = false) (h : t.write p s = .ok t') :
    t.Keeps t' := by
  have hhere : t'.here = t.here := by
    unfold FileTree.write at h
    split at h
    · exact nomatch h
    · split at h
      · exact nomatch h
      · rw [← Except.ok.inj h]
        rfl
      · exact nomatch h
      · exact nomatch h
  obtain ⟨q, hlocate, -, hothers⟩ := exists_of_write h
  refine ⟨hhere, fun place e he => ?_⟩
  rw [hothers place, he]
  rintro rfl
  -- Something at the place would have been found there.
  have hpresent : t.isPresent p = true := by
    unfold isPresent entryAt
    rw [hlocate]
    dsimp only
    rw [he]
  rw [hpresent] at hfree
  exact Bool.noConfusion hfree

end PipelineRuns.FileTree
