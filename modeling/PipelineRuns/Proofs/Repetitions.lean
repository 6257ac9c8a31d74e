import PipelineRuns.Proofs.Endings

/-!
# Generations one after another

Who gives the event and the branch and wants to be asked nothing gets the run written or a failure
(`Generate.unasked`). Which of the two is decided by the tree that the generation starts from
(`Generate.verdict`): an event that starts no run, an obstacle to the directory
(`Generate.obstacle?`) or a directory in place of the file (`Generate.writable`) are failures, and
then the tree stays as it is. `Generate.Generated` says this of the result and the tree that is
left.

The step to more than one generation is `Generate.Generated.verdict_eq`: a generation changes no
verdict, neither on its own event nor on another one. What it makes is a directory where one was
missing, which is no obstacle then either, and a file where no directory was. So a second generation
of an event ends like the first one and writes what is there, and two generations of different
events write two files, whichever is first.

Main statement: `Generate.unasked_repeated_or_swapped`, with trees compared by what stands where
(`FileTree.Same`).
-/

namespace PipelineRuns

variable {σ : Type}

/-! ### Trees by their view -/

namespace FileTree

variable {t t' t'' u u' : FileTree} {p : FilePath} {place place' : Place}
  {content content' : List UInt8}

/-- The same stands at every place, and relative paths start from the same one. -/
structure Same (t t' : FileTree) : Prop where
  here_eq : t'.here = t.here
  get?_eq : ∀ q, t'.get? q = t.get? q

theorem Same.refl (t : FileTree) : t.Same t := ⟨rfl, fun _ => rfl⟩

/-- What stands in a tree with one more file. -/
theorem WithFile.get?_eq (h : t.WithFile place content t') (q : Place) :
    t'.get? q = if q = place then some (.file content)
      else if q <+: place then some .directory else t.get? q := by
  split
  case isTrue heq => rw [heq, h.file]
  case isFalse hne =>
    split
    case isTrue hle => exact (h.above q hle hne).1
    case isFalse hle => exact h.others q hle

/-- The tree that is left is determined but for the order of its entries. -/
theorem WithFile.same (h : t.WithFile place content t') (h' : t.WithFile place content t'') :
    t'.Same t'' :=
  ⟨h'.here_eq.trans h.here_eq.symm, fun q => (h'.get?_eq q).trans (h.get?_eq q).symm⟩

/-- Writing what is there changes nothing. -/
theorem WithFile.same_again (h : t.WithFile place content t') (h' : t'.WithFile place content t'') :
    t'.Same t'' := by
  refine ⟨h'.here_eq, fun q => ?_⟩
  -- The file and the directories above it are there by now.
  rw [h'.get?_eq, h.get?_eq]
  split
  · rfl
  · split
    · rfl
    · rfl

/-- Files of which none is above the other can be written in either order. -/
theorem WithFile.same_swapped (hle : ¬ place <+: place') (hle' : ¬ place' <+: place)
    (h : t.WithFile place content t') (h' : t'.WithFile place' content' t'')
    (k : t.WithFile place' content' u) (k' : u.WithFile place content u') : t''.Same u' := by
  refine ⟨?_, fun q => ?_⟩
  · rw [k'.here_eq, k.here_eq, h'.here_eq, h.here_eq]
  rw [k'.get?_eq, k.get?_eq, h'.get?_eq, h.get?_eq]
  by_cases hq : q = place
  · subst hq
    have hne : q ≠ place' := fun heq => hle (heq ▸ List.prefix_refl _)
    rw [if_pos rfl, if_neg hne, if_neg hle, if_pos rfl]
  rw [if_neg hq, if_neg hq]
  by_cases hq' : q = place'
  · subst hq'
    rw [if_pos rfl, if_neg hle', if_pos rfl]
  rw [if_neg hq', if_neg hq']
  -- What is left is above both files, above one of them, or away from them.
  split
  · split
    · rfl
    · rfl
  · rfl

/-- A directory is not written to. -/
theorem IsTree.write_eq_isDirectory (h : t.IsTree) (hdots : ".." ∉ p.parts)
    (hdirectory : t.get? (t.place p) = some .directory) (s : String) :
    t.write p s = .error (faultAt p .isDirectory) := by
  have hlocate : t.locate p = .ok (t.place p) :=
    (h.locate_eq_ok_iff hdots).mpr ⟨rfl,
      fun _ => h.parent _ (by rw [hdirectory]; exact Option.some_ne_none _)⟩
  unfold write
  rw [hlocate]
  dsimp only
  rw [hdirectory]

end FileTree

/-! ### Places of the files -/

namespace Starter

theorem fileName_inj {event event' : String} (hevent : (events.lookup event).isSome = true)
    (hevent' : (events.lookup event').isSome = true) (h : fileName event = fileName event') :
    event = event' := by
  have hall : ∀ e ∈ events, ∀ e' ∈ events, fileName e.1 = fileName e'.1 → e.1 = e'.1 := by decide
  obtain ⟨e, he, hkey⟩ := List.lookup_isSome_iff.mp hevent
  obtain ⟨e', he', hkey'⟩ := List.lookup_isSome_iff.mp hevent'
  rw [beq_iff_eq.mp hkey, beq_iff_eq.mp hkey'] at h ⊢
  exact hall e he e' he' h

/-- Different events have different files in one directory, so neither file stands above the
other. -/
theorem not_place_prefix (t : FileTree) (top : FilePath) {event event' : String}
    (hevent : (events.lookup event).isSome = true) (hevent' : (events.lookup event').isSome = true)
    (hne : event ≠ event') : ¬ t.place (path top event) <+: t.place (path top event') := by
  rw [path_eq top hevent, path_eq top hevent']
  intro hle
  -- Where the way starts depends on the root alone.
  change t.start top ++ (top.parts ++ [directory, fileName event]) <+:
    t.start top ++ (top.parts ++ [directory, fileName event']) at hle
  rw [List.prefix_append_right_inj, List.prefix_append_right_inj] at hle
  have hnames : [directory, fileName event] = [directory, fileName event'] := hle.eq_of_length rfl
  exact hne (fileName_inj hevent hevent' (List.cons.inj (List.cons.inj hnames).2).1)

end Starter

namespace Generate

variable {p : Prompter σ} {style : Style} {top target target' : FilePath}
  {event event' branch branch' : String} {w : Workplace σ} {t t' t'' u u' : FileTree}
  {r r' s s' : Except Failure (Option FilePath)}

/-! ### Verdicts -/

/-- The event and the branch are given, and the answer to every yes or no is yes. -/
def Options.given (event branch : String) : Options := ⟨.text event, .text branch, true⟩

/-- A generation about which nobody is asked: its result, and the workplace that it leaves. -/
def unasked (p : Prompter σ) (top : FilePath) (style : Style) (event branch : String)
    (w : Workplace σ) : Except Failure (Option FilePath) × Workplace σ :=
  Work.from w (create p top (.given event branch) style)

/-- Why a directory that is not there cannot be made. -/
def obstacle? (files : FileTree) (directory : FilePath) : Option Failure :=
  if files.isDirectory directory then none
  else if directory.text.toList.contains '\x00' then some .badValue
  else
    match files.makeDirectories directory with
    | .error fault => some (.starter (.cannotCreate directory.text fault))
    | .ok _ => none

/-- A file that can be written once its directory was made, or else why it cannot. -/
def writable (files : FileTree) (target : FilePath) : Except Failure FilePath :=
  match obstacle? files target.parent with
  | some f => .error f
  | none =>
    if files.isDirectory target then
      .error (.starter (.cannotWrite target.text (FileTree.faultAt target .isDirectory)))
    else .ok target

/-- The file that a generation about which nobody is asked writes, or why there will be none. -/
def verdict (files : FileTree) (top : FilePath) (event : String) : Except Failure FilePath :=
  if (Starter.events.lookup event).isSome then writable files (Starter.path top event)
  else .error (.starter (.unknownEvent event))

/-- From `t`, a generation about which nobody is asked has the result `r` and leaves `t'`, both as
its verdict says. -/
structure Generated (top : FilePath) (event branch : String) (t : FileTree)
    (r : Except Failure (Option FilePath)) (t' : FileTree) : Prop where
  result_eq : r = (verdict t top event).map some
  kept : ∀ f, verdict t top event = .error f → t' = t
  written : ∀ target, verdict t top event = .ok target →
    t.WithFile (t.place target) (FileTree.encode (Starter.text top.name event branch)) t'

theorem Generated.of_error {f : Failure} (hverdict : verdict t top event = .error f) :
    Generated top event branch t (.error f) t := by
  refine ⟨?_, fun _ _ => rfl, fun target htarget => nomatch hverdict.symm.trans htarget⟩
  rw [hverdict]
  rfl

theorem Generated.of_ok (hverdict : verdict t top event = .ok target)
    (hfile : t.WithFile (t.place target)
      (FileTree.encode (Starter.text top.name event branch)) t') :
    Generated top event branch t (.ok (some target)) t' := by
  refine ⟨?_, fun f hf => ?_, fun target' htarget' => ?_⟩
  · rw [hverdict]
    rfl
  · exact nomatch hverdict.symm.trans hf
  · obtain rfl := Except.ok.inj (hverdict.symm.trans htarget')
    exact hfile

/-- An obstacle is a failure; without one the directory is there afterwards, made only if it was
missing. -/
theorem from_ensureDirectory_obstacle? (htree : w.files.IsTree) {directory : FilePath}
    (hdots : ".." ∉ directory.parts) (style : Style) :
    (∃ f, obstacle? w.files directory = some f ∧
      Work.from w (ensureDirectory directory style) = (.error f, w)) ∨
    ∃ w', obstacle? w.files directory = none ∧
      Work.from w (ensureDirectory directory style) = (.ok (), w') ∧
      w.files.WithDirectories (w.files.place directory) w'.files ∧
      (w.files.isDirectory directory = true → w' = w) := by
  unfold ensureDirectory obstacle?
  rw [Work.from_get_bind]
  -- What stands in the way is said by the same three cases as in the making.
  split
  case isTrue hthere =>
    exact Or.inr ⟨w, rfl, rfl, htree.withDirectories_self ((htree.isDirectory_iff hdots).mp hthere),
      fun _ => rfl⟩
  case isFalse hmissing =>
    split
    case isTrue => exact Or.inl ⟨_, rfl, rfl⟩
    case isFalse =>
      cases hmake : w.files.makeDirectories directory with
      | error fault => exact Or.inl ⟨_, rfl, rfl⟩
      | ok files =>
        exact Or.inr ⟨_, rfl, rfl, htree.withDirectories_makeDirectories hdots hmake,
          fun hthere => absurd hthere hmissing⟩

/-- Who says yes to everything may replace what is there. -/
theorem from_settle_given (p : Prompter σ) (w : Workplace σ) (style : Style) (top target : FilePath)
    (event branch : String) :
    Work.from w (settle p (.given event branch) style top target event branch) = Work.from w (do
      writeRun top target (Starter.path ⟨"", []⟩ event) event branch style
      return some target) := by
  have hmay : Work.from w (mayPut p (.given event branch) target) = (.ok true, w) := by
    unfold mayPut
    rw [Work.from_get_bind]
    split
    · rfl
    · rfl
  unfold settle
  rw [Work.from_bind_of_ok hmay]
  rfl

theorem unasked_eq_carryOut (p : Prompter σ) (top : FilePath) (style : Style) (w : Workplace σ)
    (hevent : (Starter.events.lookup event).isSome = true) (hbranch : branch ≠ "") :
    unasked p top style event branch w =
      Work.from w (carryOut p (.given event branch) style top event branch) := by
  have hagree (message : String) :
      Work.from w (agree p (.given event branch) message true) = (.ok true, w) := rfl
  unfold unasked
  rw [create_eq, Work.from_bind_of_ok (from_choose_given p w rfl hevent rfl hbranch)]
  dsimp only
  rw [Work.from_bind_of_ok (hagree _), if_pos rfl]

theorem unasked_of_unknown (p : Prompter σ) (top : FilePath) (style : Style) (w : Workplace σ)
    (hevent : ¬ (Starter.events.lookup event).isSome = true) :
    unasked p top style event branch w = (.error (.starter (.unknownEvent event)), w) := by
  have hchoose : chooseEvent p (.text event) = throw (.starter (.unknownEvent event)) :=
    if_neg hevent
  unfold unasked create createUnder
  dsimp only [Options.given]
  rw [hchoose]
  rfl

/-- A run is not written over a directory. -/
theorem from_writeRun_of_directory (htree : w.files.IsTree) (hdots : ".." ∉ target.parts)
    (hdirectory : w.files.isDirectory target = true) (relative : FilePath) :
    Work.from w (writeRun top target relative event branch style) =
      (.error (.starter (.cannotWrite target.text (FileTree.faultAt target .isDirectory))), w) := by
  unfold writeRun
  rw [Work.from_get_bind,
    htree.write_eq_isDirectory hdots ((htree.isDirectory_iff hdots).mp hdirectory)]
  rfl

/-- A run that is agreed to is written if it can be. -/
theorem from_carryOut_given (p : Prompter σ) (style : Style) (branch : String)
    (htree : w.files.IsTree) (hdots : ".." ∉ top.parts)
    (hevent : (Starter.events.lookup event).isSome = true) :
    (∃ f, writable w.files (Starter.path top event) = .error f ∧
      Work.from w (carryOut p (.given event branch) style top event branch) = (.error f, w)) ∨
    ∃ w', writable w.files (Starter.path top event) = .ok (Starter.path top event) ∧
      Work.from w (carryOut p (.given event branch) style top event branch) =
        (.ok (some (Starter.path top event)), w') ∧
      w.files.WithFile (w.files.place (Starter.path top event))
        (FileTree.encode (Starter.text top.name event branch)) w'.files := by
  have hdotsTarget := Starter.dots_notMem_path hdots hevent
  have hparts := Starter.parts_path_ne_nil top hevent
  unfold carryOut writable
  generalize Starter.path top event = target at hdotsTarget hparts ⊢
  have hdotsParent : ".." ∉ target.parent.parts :=
    fun hmem => hdotsTarget (List.dropLast_subset _ hmem)
  have hplaceParent : w.files.place target.parent = (w.files.place target).dropLast :=
    FileTree.place_parent hparts
  rcases from_ensureDirectory_obstacle? htree hdotsParent style with
    ⟨f, hobstacle, hfrom⟩ | ⟨w', hobstacle, hfrom, hmade, hkept⟩
  · rw [hobstacle]
    exact Or.inl ⟨f, rfl, Work.from_bind_of_error hfrom⟩
  rw [hobstacle, Work.from_bind_of_ok hfrom, from_settle_given]
  dsimp only
  by_cases hdirectory : w.files.isDirectory target = true
  · -- A directory stands in a directory, so none was made.
    have hthere : w.files.get? (w.files.place target) = some .directory :=
      (htree.isDirectory_iff hdotsTarget).mp hdirectory
    obtain rfl : w' = w := by
      refine hkept ((htree.isDirectory_iff hdotsParent).mpr ?_)
      rw [hplaceParent]
      exact htree.parent _ (by rw [hthere]; exact Option.some_ne_none _)
    rw [if_pos hdirectory]
    exact Or.inl
      ⟨_, rfl, Work.from_bind_of_error (from_writeRun_of_directory htree hdotsTarget hdirectory _)⟩
  · rw [hplaceParent] at hmade
    rw [if_neg hdirectory]
    rcases writeRun_withFile htree hdotsTarget hparts hmade (Starter.path ⟨"", []⟩ event) with
      ⟨hthere, -⟩ | ⟨w'', hwritten, hfile⟩
    · exact absurd ((htree.isDirectory_iff hdotsTarget).mpr hthere) hdirectory
    · exact Or.inr ⟨w'', rfl, hwritten, hfile⟩

/-- The verdict is carried out. -/
theorem generated_unasked (p : Prompter σ) (style : Style) (event : String) (htree : w.files.IsTree)
    (hdots : ".." ∉ top.parts) (hbranch : branch ≠ "") :
    Generated top event branch w.files (unasked p top style event branch w).1
      (unasked p top style event branch w).2.files := by
  by_cases hevent : (Starter.events.lookup event).isSome = true
  case neg =>
    rw [unasked_of_unknown p top style w hevent]
    exact .of_error (if_neg hevent)
  rw [unasked_eq_carryOut p top style w hevent hbranch]
  rcases from_carryOut_given p style branch htree hdots hevent with
    ⟨f, hwritable, hfrom⟩ | ⟨w', hwritable, hfrom, hfile⟩
  · rw [hfrom]
    exact .of_error ((if_pos hevent).trans hwritable)
  · rw [hfrom]
    exact .of_ok ((if_pos hevent).trans hwritable) hfile

/-! ### One generation after another -/

theorem writable_eq_ok (h : writable t target = .ok target') :
    obstacle? t target.parent = none ∧ target' = target := by
  unfold writable at h
  split at h
  case h_1 => exact nomatch h
  case h_2 hobstacle =>
    split at h
    · exact nomatch h
    · exact ⟨hobstacle, (Except.ok.inj h).symm⟩

theorem verdict_eq_ok (h : verdict t top event = .ok target) :
    (Starter.events.lookup event).isSome = true ∧ obstacle? t (Starter.directoryOf top) = none ∧
      target = Starter.path top event := by
  unfold verdict at h
  split at h
  case isFalse => exact nomatch h
  case isTrue hevent =>
    obtain ⟨hobstacle, htarget⟩ := writable_eq_ok h
    rw [Starter.parent_path top hevent] at hobstacle
    exact ⟨hevent, hobstacle, htarget⟩

/-- A file of one event is in the way of none. -/
theorem isDirectory_of_withFile {content : List UInt8} (htree : t.IsTree) (hdots : ".." ∉ top.parts)
    (hevent : (Starter.events.lookup event).isSome = true)
    (hevent' : (Starter.events.lookup event').isSome = true)
    (hfile : t.WithFile (t.place (Starter.path top event)) content t') :
    t'.isDirectory (Starter.path top event') = t.isDirectory (Starter.path top event') := by
  have hdots' := Starter.dots_notMem_path hdots hevent'
  rw [Bool.eq_iff_iff, (hfile.isTree htree).isDirectory_iff hdots', htree.isDirectory_iff hdots',
    hfile.place_eq]
  by_cases hne : event' = event
  · rw [hne, hfile.file]
    exact iff_of_false (fun h => nomatch h) hfile.free
  · rw [hfile.others _ (Starter.not_place_prefix t top hevent' hevent hne)]

/-- Where a file stands there is no obstacle to its directory. -/
theorem obstacle?_of_withFile {content : List UInt8} (htree : t.IsTree) (hdots : ".." ∉ top.parts)
    (hevent : (Starter.events.lookup event).isSome = true)
    (hfile : t.WithFile (t.place (Starter.path top event)) content t') :
    obstacle? t' (Starter.directoryOf top) = none := by
  have hdotsParent : ".." ∉ (Starter.directoryOf top).parts := by
    rw [Starter.directoryOf, List.mem_append, not_or]
    exact ⟨hdots, by decide⟩
  have hparts := Starter.parts_path_ne_nil top hevent
  have hplace :
      t'.place (Starter.directoryOf top) = (t.place (Starter.path top event)).dropLast := by
    rw [hfile.place_eq, ← Starter.parent_path top hevent]
    exact FileTree.place_parent hparts
  have hthere : t'.isDirectory (Starter.directoryOf top) = true := by
    rw [(hfile.isTree htree).isDirectory_iff hdotsParent, hplace]
    refine (hfile.above _ (List.dropLast_prefix _) (fun heq => ?_)).1
    refine FileTree.not_prefix_dropLast (t.place_ne_nil hparts) ?_
    rw [heq]
  exact if_pos hthere

/-- **A generation changes no verdict,** be it on the same event or on another one. -/
theorem Generated.verdict_eq (h : Generated top event branch t r t') (htree : t.IsTree)
    (hdots : ".." ∉ top.parts) (event' : String) :
    verdict t' top event' = verdict t top event' := by
  cases hverdict : verdict t top event with
  | error f => rw [h.kept f hverdict]
  | ok target =>
    have hfile := h.written target hverdict
    obtain ⟨hevent, hobstacle, htarget⟩ := verdict_eq_ok hverdict
    rw [htarget] at hfile
    -- The verdict depends on the tree in two ways, on the directory and on the file, and neither
    -- has changed.
    unfold verdict writable
    split
    case isFalse => rfl
    case isTrue hevent' =>
      rw [Starter.parent_path top hevent', hobstacle,
        obstacle?_of_withFile htree hdots hevent hfile,
        isDirectory_of_withFile htree hdots hevent hevent' hfile]

theorem Generated.isTree (h : Generated top event branch t r t') (htree : t.IsTree) :
    t'.IsTree := by
  cases hverdict : verdict t top event with
  | error f => rwa [h.kept f hverdict]
  | ok target => exact (h.written target hverdict).isTree htree

/-- The second generation of the same run ends like the first one and leaves what it finds. -/
theorem Generated.again (htree : t.IsTree) (hdots : ".." ∉ top.parts)
    (h : Generated top event branch t r t') (h' : Generated top event branch t' r' t'') :
    r' = r ∧ t'.Same t'' := by
  have hsame := h.verdict_eq htree hdots event
  refine ⟨by rw [h'.result_eq, hsame, h.result_eq], ?_⟩
  cases hverdict : verdict t top event with
  | error f =>
    rw [h'.kept f (hsame.trans hverdict)]
    exact .refl t'
  | ok target =>
    have hfile := h.written target hverdict
    have hfile' := h'.written target (hsame.trans hverdict)
    rw [hfile.place_eq] at hfile'
    exact hfile.same_again hfile'

/-- Generations of different events end in the same way and leave the same, whichever is first. -/
theorem Generated.swapped (htree : t.IsTree) (hdots : ".." ∉ top.parts) (hne : event ≠ event')
    (h : Generated top event branch t r t') (h' : Generated top event' branch' t' r' t'')
    (k : Generated top event' branch' t s u) (k' : Generated top event branch u s' u') :
    r' = s ∧ s' = r ∧ t''.Same u' := by
  have hsame := h.verdict_eq htree hdots event'
  have ksame := k.verdict_eq htree hdots event
  refine ⟨by rw [h'.result_eq, hsame, k.result_eq], by rw [k'.result_eq, ksame, h.result_eq], ?_⟩
  cases hverdict : verdict t top event with
  | error f =>
    -- The first event changes nothing at either time.
    obtain rfl := h.kept f hverdict
    obtain rfl := k'.kept f (ksame.trans hverdict)
    cases kverdict : verdict t' top event' with
    | error f' =>
      rw [h'.kept f' kverdict, k.kept f' kverdict]
      exact .refl t'
    | ok target' => exact (h'.written target' kverdict).same (k.written target' kverdict)
  | ok target =>
    have hfile := h.written target hverdict
    have kfile' := k'.written target (ksame.trans hverdict)
    cases kverdict : verdict t top event' with
    | error f' =>
      -- The other event changes nothing, so one file is written, once to each tree.
      rw [h'.kept f' (hsame.trans kverdict)]
      obtain rfl := k.kept f' kverdict
      exact hfile.same kfile'
    | ok target' =>
      -- Two files are written, in either order.
      have kfile := k.written target' kverdict
      have hfile' := h'.written target' (hsame.trans kverdict)
      rw [hfile.place_eq] at hfile'
      rw [kfile.place_eq] at kfile'
      obtain ⟨hevent, -, htarget⟩ := verdict_eq_ok hverdict
      obtain ⟨hevent', -, htarget'⟩ := verdict_eq_ok kverdict
      rw [htarget] at hfile kfile'
      rw [htarget'] at hfile' kfile
      exact hfile.same_swapped (Starter.not_place_prefix t top hevent hevent' hne)
        (Starter.not_place_prefix t top hevent' hevent hne.symm) hfile' kfile kfile'

/-- **Without questions,** a generation writes its file or fails as the tree decides, and a second
generation of the same run changes neither the tree nor the result. A run for a pull request and one
for a push can be generated in either order, each with the same result, and leave the same tree. -/
theorem unasked_repeated_or_swapped (p : Prompter σ) (style : Style) (htree : w.files.IsTree)
    (hdots : ".." ∉ top.parts) (hbranch : branch ≠ "") (hbranch' : branch' ≠ "") :
    (∀ event,
      let once := unasked p top style event branch w
      let twice := unasked p top style event branch once.2
      Generated top event branch w.files once.1 once.2.files ∧ twice.1 = once.1 ∧
        once.2.files.Same twice.2.files) ∧
    let request := unasked p top style "pull_request" branch w
    let requestThenPush := unasked p top style "push" branch' request.2
    let push := unasked p top style "push" branch' w
    let pushThenRequest := unasked p top style "pull_request" branch push.2
    requestThenPush.1 = push.1 ∧ pushThenRequest.1 = request.1 ∧
      requestThenPush.2.files.Same pushThenRequest.2.files := by
  constructor
  · intro event once twice
    have honce := generated_unasked p style event htree hdots hbranch
    have htwice := generated_unasked p style event (honce.isTree htree) hdots hbranch
    exact ⟨honce, honce.again htree hdots htwice⟩
  · intro request requestThenPush push pushThenRequest
    have hrequest := generated_unasked p style "pull_request" htree hdots hbranch
    have hpushAfter := generated_unasked p style "push" (hrequest.isTree htree) hdots hbranch'
    have hpush := generated_unasked p style "push" htree hdots hbranch'
    have hrequestAfter :=
      generated_unasked p style "pull_request" (hpush.isTree htree) hdots hbranch
    exact hrequest.swapped htree hdots (by decide) hpushAfter hpush hrequestAfter

/-- The main statement where the directory is made by the first generation. -/
theorem unasked_repeated_or_swapped_bareCheckout :
    let top := FilePath.ofText "/src/app"
    let request := unasked Prompter.console top .plain "pull_request" "main" bareCheckout
    let requestTwice := unasked Prompter.console top .plain "pull_request" "main" request.2
    let requestThenPush := unasked Prompter.console top .plain "push" "v1" request.2
    let push := unasked Prompter.console top .plain "push" "v1" bareCheckout
    let pushThenRequest := unasked Prompter.console top .plain "pull_request" "main" push.2
    bareCheckout.files.IsTree ∧ ".." ∉ top.parts ∧ "main" ≠ "" ∧ "v1" ≠ "" ∧
      request.1 = .ok (some (FilePath.ofText "/src/app/.tekton/pull-request.yaml")) ∧
      push.1 = .ok (some (FilePath.ofText "/src/app/.tekton/push.yaml")) ∧
      (Generated top "pull_request" "main" bareCheckout.files request.1 request.2.files ∧
        requestTwice.1 = request.1 ∧ request.2.files.Same requestTwice.2.files) ∧
      requestThenPush.1 = push.1 ∧ pushThenRequest.1 = request.1 ∧
        requestThenPush.2.files.Same pushThenRequest.2.files := by
  have htree : bareCheckout.files.IsTree := by decide
  have hdots : ".." ∉ (FilePath.ofText "/src/app").parts := by decide
  have hmain : "main" ≠ "" := by decide
  have htag : "v1" ≠ "" := by decide
  obtain ⟨hrepeated, hswapped⟩ :=
    unasked_repeated_or_swapped Prompter.console .plain htree hdots hmain htag
  exact ⟨htree, hdots, hmain, htag, eq_ok_of_toOption (by decide +kernel),
    eq_ok_of_toOption (by decide +kernel), hrepeated "pull_request", hswapped⟩

end Generate

end PipelineRuns
