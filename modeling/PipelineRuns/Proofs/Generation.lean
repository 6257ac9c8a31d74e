import PipelineRuns.Proofs.Questions
import PipelineRuns.Proofs.Trees

/-!
# A generation leaves its file or nothing

A generation asks first and acts then. It settles what it is about (`Generate.choose`) and asks
whether the file is wanted; until the user has agreed, it is nothing but a dialogue
(`Work.OnlyAsked`), so wherever it ends the files are as they were. What follows is
`Generate.carryOut`: the directory is made unless it is there, a file that is there already is asked
about, and the run is written.

Between the directory and the file there are two more ways to end, and neither leaves anything
behind. A file can stand in the way only of a directory that was there before (a new one is empty),
so the second question is asked before anything was changed; and for the same reason writing fails
only where no directory was made (`Generate.carryOut_cases`).

Main statement: `Generate.create_frame`.
-/

namespace PipelineRuns

variable {σ : Type}

namespace Starter

/-- The name of the file of an event. -/
def fileName (event : String) : String :=
  replaceChar '_' '-' event ++ ".yaml"

/-- The file of an event stands in the directory of the runs, below the top directory. -/
theorem path_eq (top : FilePath) {event : String} (hevent : (events.lookup event).isSome = true) :
    path top event = ⟨top.root, top.parts ++ [directory, fileName event]⟩ := by
  -- A name without slashes is a path of one part, and both names are such.
  have hjoin (p : FilePath) (name : String) (h : FilePath.ofText name = ⟨"", [name]⟩) :
      p.child name = ⟨p.root, p.parts ++ [name]⟩ := by
    unfold FilePath.child
    rw [h]
    rfl
  have hfile : FilePath.ofText (fileName event) = ⟨"", [fileName event]⟩ := by
    by_cases hrequest : event = "pull_request"
    · subst hrequest
      decide
    by_cases hpush : event = "push"
    · subst hpush
      decide
    simp [events, List.lookup_cons, beq_eq_false_iff_ne.mpr hrequest, beq_eq_false_iff_ne.mpr hpush]
      at hevent
  change (top.child directory).child (fileName event) = _
  rw [hjoin top directory (by decide), hjoin _ _ hfile, List.append_assoc]
  rfl

theorem dots_notMem_path {top : FilePath} (hdots : ".." ∉ top.parts) {event : String}
    (hevent : (events.lookup event).isSome = true) : ".." ∉ (path top event).parts := by
  -- The name of the file is longer than two dots.
  have hfile : ".." ≠ fileName event := by
    intro heq
    have hlength := congrArg String.length heq
    have hdots : "..".length = 2 := rfl
    have hsuffix : ".yaml".length = 5 := rfl
    rw [fileName, String.length_append] at hlength
    omega
  rw [path_eq top hevent]
  simp only [List.mem_append, List.mem_cons, List.not_mem_nil, or_false, not_or]
  exact ⟨hdots, by decide, hfile⟩

theorem parts_path_ne_nil (top : FilePath) {event : String}
    (hevent : (events.lookup event).isSome = true) : (path top event).parts ≠ [] := by
  rw [path_eq top hevent]
  exact List.append_ne_nil_of_right_ne_nil _ (List.cons_ne_nil _ _)

end Starter

namespace Generate

/-! ### The steps after the agreement -/

/-- The directory was there, or cannot be made, or was made. -/
theorem from_ensureDirectory_cases (w : Workplace σ) (directory : FilePath) (style : Style) :
    (w.files.isDirectory directory = true ∧
      Work.from w (ensureDirectory directory style) = (.ok (), w)) ∨
    (∃ f, Work.from w (ensureDirectory directory style) = (.error f, w)) ∨
    ∃ files out, w.files.isDirectory directory = false ∧
      w.files.makeDirectories directory = .ok files ∧
      Work.from w (ensureDirectory directory style) =
        (.ok (), { w with files := files, out := out }) := by
  unfold ensureDirectory
  rw [Work.from_get_bind]
  split
  case isTrue hthere => exact Or.inl ⟨hthere, rfl⟩
  case isFalse hthere =>
    -- A path without a meaning and a fault of the system both end it before anything changes.
    rw [Bool.not_eq_true] at hthere
    right
    split
    case isTrue => exact Or.inl ⟨_, rfl⟩
    case isFalse =>
      cases hmake : w.files.makeDirectories directory with
      | error fault => exact Or.inl ⟨_, rfl⟩
      | ok files => exact Or.inr ⟨files, _, hthere, rfl, rfl⟩

/-- The run cannot be written, or is written. -/
theorem from_writeRun_cases (w : Workplace σ) (top target relative : FilePath)
    (event branch : String) (style : Style) :
    (∃ fault f, w.files.write target (Starter.text top.name event branch) = .error fault ∧
      Work.from w (writeRun top target relative event branch style) = (.error f, w)) ∨
    ∃ files w', w.files.write target (Starter.text top.name event branch) = .ok files ∧
      Work.from w (writeRun top target relative event branch style) = (.ok (), w') ∧
      w'.files = files := by
  unfold writeRun
  rw [Work.from_get_bind]
  cases hwrite : w.files.write target (Starter.text top.name event branch) with
  | error fault => exact Or.inl ⟨fault, _, rfl, rfl⟩
  | ok files => exact Or.inr ⟨files, _, rfl, rfl, rfl⟩

/-- Whether a file may be put at a path: the user has to agree if one is there already. -/
def mayPut (p : Prompter σ) (options : Options) (target : FilePath) : Work σ Bool := do
  let w ← get
  if w.files.isPresent target then agree p options (overrideQuestion target) false else return true

/-- Puts the run into its file, if it may. -/
def settle (p : Prompter σ) (options : Options) (style : Style) (top target : FilePath)
    (event branch : String) :
    Work σ (Option FilePath) := do
  if ← mayPut p options target then
    writeRun top target (Starter.path ⟨"", []⟩ event) event branch style
    return some target
  else return none

/-- What a generation does once the user has agreed to it. -/
def carryOut (p : Prompter σ) (options : Options) (style : Style) (top : FilePath)
    (event branch : String) :
    Work σ (Option FilePath) := do
  ensureDirectory (Starter.path top event).parent style
  settle p options style top (Starter.path top event) event branch

/-- Settles what a generation is about: the event and the branch, each given or asked for. -/
def choose (p : Prompter σ) (options : Options) : Work σ (String × String) := do
  let event ← chooseEvent p options.event
  let branch ← chooseBranch p event options.branch
  return (event, branch)

theorem choose_bind {α : Type} (p : Prompter σ) (options : Options)
    (f : String × String → Work σ α) :
    choose p options >>= f = (do
      let event ← chooseEvent p options.event
      let branch ← chooseBranch p event options.branch
      f (event, branch)) := by
  simp only [choose, bind_assoc, pure_bind]

/-- Whoever gives an event and a branch is not asked for them. -/
theorem from_choose_given (p : Prompter σ) (w : Workplace σ) {options : Options}
    {event branch : String} (hevent : options.event = .text event)
    (hknown : (Starter.events.lookup event).isSome = true) (hbranch : options.branch = .text branch)
    (hne : branch ≠ "") : Work.from w (choose p options) = (.ok (event, branch), w) := by
  have hgiven : options.branch.orEmpty = branch := by
    rw [hbranch]
    rfl
  have hchooseBranch : chooseBranch p event options.branch = pure branch := by
    rw [chooseBranch, hgiven, if_neg hne]
  unfold choose
  rw [hevent, chooseEvent, if_pos hknown, pure_bind, hchooseBranch]
  rfl

/-! ### A system that refuses -/

/-- Puts the run into its file, if it may, on a system that may refuse to look at the file or to
write it. -/
def settleUnder (refused : Refusals) (p : Prompter σ) (options : Options) (style : Style)
    (top target : FilePath) (event branch : String) : Work σ (Option FilePath) := do
  Work.heed (refused.look target) .file
  if ← mayPut p options target then
    Work.heed (refused.change target) (fun fault => .starter (.cannotWrite target.text fault))
    writeRun top target (Starter.path ⟨"", []⟩ event) event branch style
    return some target
  else return none

/-- What a generation does on such a system once the user has agreed to it. -/
def carryOutUnder (refused : Refusals) (p : Prompter σ) (options : Options) (style : Style)
    (top : FilePath) (event branch : String) : Work σ (Option FilePath) := do
  ensureDirectoryUnder refused (Starter.path top event).parent style
  settleUnder refused p options style top (Starter.path top event) event branch

/-- A generation settles what it is about, asks whether it is wanted, and is then carried out. -/
theorem createUnder_eq (refused : Refusals) (p : Prompter σ) (top : FilePath) (options : Options)
    (style : Style) :
    createUnder refused p top options style = (do
      let (event, branch) ← choose p options
      if ← agree p options (creationQuestion (Starter.path ⟨"", []⟩ event)) true then
        carryOutUnder refused p options style top event branch
      else return none) := by
  rw [choose_bind]
  unfold createUnder carryOutUnder settleUnder mayPut
  -- The two sides put the same steps together; they differ in where they branch on the two answers.
  refine bind_congr (fun event => bind_congr (fun branch => bind_congr (fun wanted => ?_)))
  cases wanted with
  | false => rfl
  | true =>
    refine bind_congr (fun _ => bind_congr (fun _ => ?_))
    rw [bind_assoc]
    refine bind_congr (fun w => ?_)
    cases w.files.isPresent (Starter.path top event) with
    | false => rfl
    | true =>
      refine bind_congr (fun replaced => ?_)
      cases replaced with
      | false => rfl
      | true => rfl

/-- Where nothing is refused, a run is carried out like on a system that refuses nothing. -/
theorem carryOutUnder_unrefused (p : Prompter σ) (options : Options) (style : Style)
    (top : FilePath) (event branch : String) :
    carryOutUnder .nothing p options style top event branch =
      carryOut p options style top event branch := by
  have hensure (directory : FilePath) :
      ensureDirectoryUnder (σ := σ) .nothing directory style = ensureDirectory directory style := by
    simp only [ensureDirectoryUnder, Refusals.look_nothing, Refusals.change_nothing, Work.heed_none,
      pure_bind, ite_self]
    rfl
  unfold carryOutUnder carryOut settleUnder settle
  rw [hensure]
  simp only [Refusals.look_nothing, Refusals.change_nothing, Work.heed_none, pure_bind]

theorem create_eq (p : Prompter σ) (top : FilePath) (options : Options) (style : Style) :
    create p top options style = (do
      let (event, branch) ← choose p options
      if ← agree p options (creationQuestion (Starter.path ⟨"", []⟩ event)) true then
        carryOut p options style top event branch
      else return none) := by
  simp only [create, createUnder_eq, carryOutUnder_unrefused]

/-! ### Carried out or left -/

/-- A run ended without a file: the user did not agree, or there was a failure. -/
def EndedWithout (r : Except Failure (Option FilePath)) : Prop :=
  r = .ok none ∨ ∃ f, r = .error f

variable {p : Prompter σ} {top : FilePath} {options : Options} {style : Style} {w w' : Workplace σ}
  {event branch : String}

/-- A run that is to be written into a directory that is there is written, unless another directory
has its name. -/
theorem writeRun_withFile (htree : w.files.IsTree) {target : FilePath} (hdots : ".." ∉ target.parts)
    (hparts : target.parts ≠ [])
    (hmade : w.files.WithDirectories (w.files.place target).dropLast w'.files)
    (relative : FilePath) :
    (w.files.get? (w.files.place target) = some .directory ∧ ∃ f, Work.from w' (do
      writeRun top target relative event branch style
      return some target) = (.error f, w')) ∨
    ∃ w'', Work.from w' (do
        writeRun top target relative event branch style
        return some target) = (.ok (some target), w'') ∧
      w.files.WithFile (w.files.place target) (FileTree.encode (Starter.text top.name event branch))
        w''.files := by
  have hne := w.files.place_ne_nil hparts
  have hparent : w'.files.get? (w.files.place target).dropLast = some .directory := by
    rw [hmade.get?_eq, if_pos (List.prefix_refl _)]
  have hwrite (files : FileTree) :
      w'.files.write target (Starter.text top.name event branch) = .ok files ↔ _ :=
    (hmade.isTree htree).write_eq_ok_iff hdots hparts (Starter.text top.name event branch)
  rw [hmade.place_eq, hmade.get?_below hne] at hwrite
  rcases from_writeRun_cases w' top target relative event branch style with
    ⟨fault, f, hfault, hfrom⟩ | ⟨files, w'', hfiles, hfrom, rfl⟩
  · refine Or.inl ⟨?_, f, by rw [Work.from_bind, hfrom]⟩
    -- Otherwise the file would have been written.
    by_contra hfree
    exact nomatch hfault.symm.trans ((hwrite _).mpr ⟨hparent, hfree, rfl⟩)
  · obtain ⟨-, hfree, heq⟩ := (hwrite _).mp hfiles
    refine Or.inr ⟨w'', by rw [Work.from_bind, hfrom]; rfl, ?_⟩
    rw [heq]
    exact hmade.withFile hne (hmade.get?_below hne ▸ hfree) _

/-- Where the directory is there, the run is put into its file, or there is a question at most. What
is there already was there from the start. -/
theorem settle_cases (htree : w.files.IsTree) {target : FilePath} (hdots : ".." ∉ target.parts)
    (hparts : target.parts ≠ [])
    (hmade : w.files.WithDirectories (w.files.place target).dropLast w'.files)
    (hkept : w'.files.isPresent target = true → w' = w) :
    (∃ w'', Work.from w' (settle p options style top target event branch) =
      (.ok (some target), w'') ∧
      w.files.WithFile (w.files.place target)
        (FileTree.encode (Starter.text top.name event branch)) w''.files ∧
      (w.files.get? (w.files.place target) = none ∨
        (Work.from w (agree p options (overrideQuestion target) false)).1 = .ok true)) ∨
    ∃ r w'', Work.from w' (settle p options style top target event branch) = (r, w'') ∧
      EndedWithout r ∧
      Work.OnlyAsked p w w'' := by
  unfold settle
  by_cases hpresent : w'.files.isPresent target = true
  · -- A file is there, so no directory was made, and the question is put at the workplace as it
    -- was.
    obtain rfl := hkept hpresent
    have hmay : Work.from w' (mayPut p options target) =
        Work.from w' (agree p options (overrideQuestion target) false) := by
      unfold mayPut
      rw [Work.from_get_bind, if_pos hpresent]
    have hasked := onlyAsked_agree p w' options (overrideQuestion target) false
    -- Only an answer that is yes goes on to write, and the file is replaced.
    rcases Work.from_bind_cases w' (mayPut p options target) _ with
      ⟨e, v, hfirst, hall⟩ | ⟨answer, v, hfirst, hall⟩
    · rw [← hmay, hfirst] at hasked
      exact Or.inr ⟨.error e, v, hall, Or.inr ⟨e, rfl⟩, hasked⟩
    rw [← hmay, hfirst] at hasked
    rw [hall]
    cases answer with
    | false => exact Or.inr ⟨.ok none, v, rfl, Or.inl rfl, hasked⟩
    | true =>
      have hfiles : w'.files.WithDirectories (w'.files.place target).dropLast v.files :=
        hasked.files_eq ▸ hmade
      rcases writeRun_withFile htree hdots hparts hfiles (Starter.path ⟨"", []⟩ event) with
        ⟨-, f, hfrom⟩ | ⟨w'', hfrom, hfile⟩
      · exact Or.inr ⟨.error f, v, hfrom, Or.inr ⟨f, rfl⟩, hasked⟩
      · exact Or.inl ⟨w'', hfrom, hfile, Or.inr (by rw [← hmay, hfirst])⟩
  · -- Nothing is there, so nothing can go wrong any more.
    have hmay : Work.from w' (mayPut p options target) = (.ok true, w') := by
      unfold mayPut
      rw [Work.from_get_bind, if_neg hpresent]
      rfl
    have hnone : w.files.get? (w.files.place target) = none := by
      have habsent := (not_congr ((hmade.isTree htree).isPresent_iff hdots)).mp hpresent
      rwa [hmade.place_eq, hmade.get?_below (w.files.place_ne_nil hparts), not_not] at habsent
    rw [Work.from_bind, hmay]
    rcases writeRun_withFile htree hdots hparts hmade (Starter.path ⟨"", []⟩ event) with
      ⟨hdirectory, -⟩ | ⟨w'', hfrom, hfile⟩
    · exact nomatch hnone.symm.trans hdirectory
    · exact Or.inl ⟨w'', hfrom, hfile, Or.inl hnone⟩

variable (p options style branch) in
/-- **Once it is agreed to,** a generation leaves its file, or ends after a question at most. A file
that is there already is replaced only if the user agreed to that as well. -/
theorem carryOut_cases (htree : w.files.IsTree) (hdots : ".." ∉ top.parts)
    (hevent : (Starter.events.lookup event).isSome = true) :
    (∃ w', Work.from w (carryOut p options style top event branch) =
      (.ok (some (Starter.path top event)), w') ∧
      w.files.WithFile (w.files.place (Starter.path top event))
        (FileTree.encode (Starter.text top.name event branch)) w'.files ∧
      (w.files.get? (w.files.place (Starter.path top event)) = none ∨
        (Work.from w (agree p options (overrideQuestion (Starter.path top event)) false)).1 =
          .ok true)) ∨
    ∃ r w', Work.from w (carryOut p options style top event branch) = (r, w') ∧ EndedWithout r ∧
      Work.OnlyAsked p w w' := by
  have hdotsTarget := Starter.dots_notMem_path hdots hevent
  have hparts := Starter.parts_path_ne_nil top hevent
  unfold carryOut
  generalize Starter.path top event = target at hdotsTarget hparts ⊢
  have hdotsParent : ".." ∉ target.parent.parts :=
    fun hmem => hdotsTarget (List.dropLast_subset _ hmem)
  have hplaceParent : w.files.place target.parent = (w.files.place target).dropLast :=
    FileTree.place_parent hparts
  have hdirectory := hplaceParent ▸ htree.isDirectory_iff hdotsParent
  rcases from_ensureDirectory_cases w target.parent style with
    ⟨hthere, hfrom⟩ | ⟨f, hfrom⟩ | ⟨files, out, hmissing, hmake, hfrom⟩
  · rw [Work.from_bind, hfrom]
    exact settle_cases htree hdotsTarget hparts (htree.withDirectories_self (hdirectory.mp hthere))
      (fun _ => rfl)
  · exact Or.inr ⟨.error f, w, by rw [Work.from_bind, hfrom], Or.inr ⟨f, rfl⟩, .refl p w⟩
  · rw [Work.from_bind, hfrom]
    have hmade := hplaceParent ▸ htree.withDirectories_makeDirectories hdotsParent hmake
    refine settle_cases htree hdotsTarget hparts hmade (fun hpresent => ?_)
    -- A directory that had to be made holds nothing, as there was nothing in the place of it.
    have hthere := ((hmade.isTree htree).isPresent_iff hdotsTarget).mp hpresent
    rw [hmade.place_eq, hmade.get?_below (w.files.place_ne_nil hparts)] at hthere
    rw [hdirectory.mpr (htree.parent _ hthere)] at hmissing
    exact absurd hmissing Bool.noConfusion

/-! ### A whole generation -/

/-- What is chosen is an event that can start a run. -/
theorem isSome_lookup_of_from_chooseEvent {given : OptionValue}
    (h : Work.from w (chooseEvent p given) = (.ok event, w')) :
    (Starter.events.lookup event).isSome = true := by
  cases given with
  -- A title that was chosen is that of a listed event.
  | absent =>
    obtain ⟨title, v, -, htitle⟩ := Work.exists_of_from_bind_eq_ok h
    rw [Work.from_ofExcept, eventOfTitle] at htitle
    split at htitle
    · next e hfind =>
      obtain rfl : e.1 = event := Except.ok.inj (congrArg Prod.fst htitle)
      have hall : ∀ e ∈ Starter.events, (Starter.events.lookup e.1).isSome = true := by decide
      exact hall e (List.mem_of_find?_eq_some hfind)
    · cases htitle
  | blank => cases h
  | text name =>
    rw [chooseEvent] at h
    split at h
    · next hknown =>
      obtain rfl : name = event := Except.ok.inj (congrArg Prod.fst h)
      exact hknown
    · cases h

theorem isSome_lookup_of_from_choose
    (h : Work.from w (choose p options) = (.ok (event, branch), w')) :
    (Starter.events.lookup event).isSome = true := by
  obtain ⟨event', v, hevent, hrest⟩ := Work.exists_of_from_bind_eq_ok h
  obtain ⟨branch', v', -, hpair⟩ := Work.exists_of_from_bind_eq_ok hrest
  obtain ⟨rfl, -⟩ := Prod.mk.inj (Except.ok.inj (congrArg Prod.fst hpair))
  exact isSome_lookup_of_from_chooseEvent hevent

theorem onlyAsked_choose (p : Prompter σ) (w : Workplace σ) (options : Options) :
    Work.OnlyAsked p w (Work.from w (choose p options)).2 :=
  .bind (onlyAsked_chooseEvent p w options.event) (fun event w' =>
    .bind (onlyAsked_chooseBranch p w' event options.branch) (fun _ w'' => .refl p w''))

/-- **A generation leaves its file or nothing.** Either it returns the path of the file of the
event, below the top directory; then that file holds the starter run of the event and the branch
that were chosen, and nothing else has changed except that missing directories above the file were
made. Or it ends without a path; then there was nothing but a dialogue, the files are the same and
the output shows the questions alone. -/
theorem create_frame (p : Prompter σ) (options : Options) (style : Style) (htree : w.files.IsTree)
    (hdots : ".." ∉ top.parts) :
    (∃ event branch chosen target, Work.from w (choose p options) = (.ok (event, branch), chosen) ∧
      target = ⟨top.root, top.parts ++ [Starter.directory, Starter.fileName event]⟩ ∧
      (Work.from w (create p top options style)).1 = .ok (some target) ∧
      (Work.from w (create p top options style)).2.files.read? target =
        .ok (FileTree.encode (Starter.text top.name event branch)) ∧
      w.files.WithFile (w.files.place target) (FileTree.encode (Starter.text top.name event branch))
        (Work.from w (create p top options style)).2.files) ∨
    (EndedWithout (Work.from w (create p top options style)).1 ∧
      Work.OnlyAsked p w (Work.from w (create p top options style)).2) := by
  rw [create_eq]
  -- Up to the agreement there are only questions: `hchoice` and then `hanswer` say so, however they
  -- end.
  have hchoice := onlyAsked_choose p w options
  rcases Work.from_bind_cases w (choose p options) _ with
    ⟨e, v, hchoose, hall⟩ | ⟨⟨event, branch⟩, v, hchoose, hall⟩
  · rw [hchoose] at hchoice
    rw [hall]
    exact Or.inr ⟨Or.inr ⟨e, rfl⟩, hchoice⟩
  rw [hchoose] at hchoice
  rw [hall]
  have hanswer := onlyAsked_agree p v options (creationQuestion (Starter.path ⟨"", []⟩ event)) true
  rcases Work.from_bind_cases v
      (agree p options (creationQuestion (Starter.path ⟨"", []⟩ event)) true) _ with
    ⟨e, v', hagree, hall⟩ | ⟨wanted, v', hagree, hall⟩
  · rw [hagree] at hanswer
    rw [hall]
    exact Or.inr ⟨Or.inr ⟨e, rfl⟩, hchoice.trans hanswer⟩
  rw [hagree] at hanswer
  rw [hall]
  have hasked := hchoice.trans hanswer
  cases wanted with
  | false => exact Or.inr ⟨Or.inl rfl, hasked⟩
  | true =>
    have hknown := isSome_lookup_of_from_choose hchoose
    rw [if_pos rfl]
    rcases carryOut_cases p options style branch (hasked.files_eq ▸ htree) hdots hknown with
      ⟨w', hcarry, hfile, -⟩ | ⟨r, w', hcarry, hended, hleft⟩
    · rw [hcarry]
      rw [hasked.files_eq] at hfile
      have hread := hfile.read?_eq htree (Starter.dots_notMem_path hdots hknown)
      exact Or.inl ⟨event, branch, v, _, hchoose, Starter.path_eq top hknown, rfl, hread, hfile⟩
    · rw [hcarry]
      exact Or.inr ⟨hended, hasked.trans hleft⟩

/-- A work tree without any runs, and a user who takes every default. -/
def bareCheckout : Workplace (List String) where
  files := { entries := [(["src"], .directory), (["src", "app"], .directory)] }
  prompter := ["", "", ""]

/-- The main statement where the directory and the file are still missing. -/
theorem create_frame_bareCheckout :
    let top := FilePath.ofText "/src/app"
    let target := FilePath.ofText "/src/app/.tekton/pull-request.yaml"
    let content := FileTree.encode (Starter.text "app" "pull_request" "main")
    let r := Work.from bareCheckout (create Prompter.console top {} .plain)
    bareCheckout.files.IsTree ∧ ".." ∉ top.parts ∧ r.1 = .ok (some target) ∧
      r.2.files.read? target = .ok content ∧
      bareCheckout.files.WithFile (bareCheckout.files.place target) content r.2.files := by
  intro top target content r
  have htree : bareCheckout.files.IsTree := by decide
  have hdots : ".." ∉ top.parts := by decide
  have hdone : r.1 = .ok (some target) := eq_ok_of_toOption (by decide +kernel)
  refine ⟨htree, hdots, hdone, ?_⟩
  rcases create_frame Prompter.console {} .plain htree hdots with
    ⟨event, branch, chosen, target', hchoose, -, hpath, hread, hfile⟩ | ⟨hended, -⟩
  · obtain rfl : target = target' := Option.some.inj (Except.ok.inj (hdone.symm.trans hpath))
    obtain ⟨rfl, rfl⟩ : event = "pull_request" ∧ branch = "main" :=
      Prod.mk.inj (Except.ok.inj (congrArg Prod.fst hchoose)).symm
    exact ⟨hread, hfile⟩
  · rcases hended with hnone | ⟨f, hfail⟩
    · exact nomatch hdone.symm.trans hnone
    · exact nomatch hdone.symm.trans hfail

end Generate

end PipelineRuns
