import PipelineRuns.Proofs.Contexts
import PipelineRuns.Proofs.Generation
import PipelineRuns.Proofs.Text

/-!
# How a generation ends

The command ends with an exit code where it explains a failure, and passes on a failure that it does
not explain. It explains that the work tree cannot be found, that the run cannot be made or written,
and that the user does not want to go on (`Generate.IsExplained`).

With a prompter that fails for no other reason than an interruption (`Prompter.OnlyInterrupts`), the
cases in which a generation has no exit code are few (`Generate.Unexplained`). The version control
program cannot be started, does not answer in time, or writes something that is not UTF-8; the event
is given without a text; or the user agrees to a run and something stands in its way before there is
anything to explain (`Generate.Stopped`): the system refuses to look at the directory or at the
file, or the directory has to be made at a path with a null character, which means none.

Main statement: `Generate.ending_run`, with the exit code and the text for each of the other cases.
-/

namespace PipelineRuns

variable {σ α β : Type}

/-! ### Interruptions -/

/-- The user interrupted the program, or the input has ended. -/
inductive IsInterruption : Failure → Prop
  | interrupted : IsInterruption .interrupted
  | endOfInput : IsInterruption .endOfInput

/-- Every question is answered or interrupted. -/
structure Prompter.OnlyInterrupts (p : Prompter σ) : Prop where
  select : ∀ message options default s,
    FailsOnly IsInterruption (p.select message options default s).answer
  ask : ∀ message s, FailsOnly IsInterruption (p.ask message s).answer
  confirm : ∀ message default s, FailsOnly IsInterruption (p.confirm message default s).answer

namespace Prompter

/-- What the next text of a script does: it is the answer, or it interrupts. -/
def nextOf : List String → Except Failure String × List String
  | [] => (.error .endOfInput, [])
  | text :: rest => (if text = "^C" then .error .interrupted else .ok text, rest)

/-- Answers with the texts of a script, one after the other; a yes is said by `y` alone. -/
def scripted : Prompter (List String) where
  select _ _ _ script := { answer := (nextOf script).1, state := (nextOf script).2 }
  ask _ script := { answer := (nextOf script).1, state := (nextOf script).2 }
  confirm _ _ script := { answer := (nextOf script).1.map (· = "y"), state := (nextOf script).2 }

theorem onlyInterrupts_scripted : scripted.OnlyInterrupts := by
  have hnext (script : List String) : FailsOnly IsInterruption (nextOf script).1 := by
    cases script with
    | nil => exact .error .endOfInput
    | cons text rest =>
      unfold nextOf
      dsimp only
      split
      · exact .error .interrupted
      · exact .ok text
  refine ⟨fun _ _ _ => hnext, fun _ => hnext, fun _ _ script f hf => hnext script f ?_⟩
  cases hanswer : (nextOf script).1 with
  | ok text =>
    change (nextOf script).1.map _ = _ at hf
    rw [hanswer] at hf
    exact nomatch hf
  | error e =>
    change (nextOf script).1.map _ = _ at hf
    rw [hanswer] at hf
    rw [Except.error.inj hf]

end Prompter

/-! ### The directory of the runs -/

namespace FilePath

/-- The characters of a path are those of its root and of its parts, slashes and dots apart. -/
theorem mem_text_iff {c : Char} (hslash : c ≠ '/') (hdot : c ≠ '.') (p : FilePath) :
    c ∈ p.text.toList ↔ c ∈ p.root.toList ∨ ∃ part ∈ p.parts, c ∈ part.toList := by
  unfold text
  split
  case isTrue hempty =>
    -- A path of nothing is written as a single dot.
    rw [Bool.and_eq_true, decide_eq_true_eq, List.isEmpty_iff] at hempty
    rw [hempty.1, hempty.2]
    simp [hdot]
  case isFalse =>
    rw [String.toList_append, List.mem_append, Text.mem_intercalate_iff (by simpa using hslash)]

end FilePath

namespace Starter

/-- The directory of the runs, right below the top directory. -/
def directoryOf (top : FilePath) : FilePath :=
  ⟨top.root, top.parts ++ [directory]⟩

theorem parent_path (top : FilePath) {event : String}
    (hevent : (events.lookup event).isSome = true) : (path top event).parent = directoryOf top := by
  rw [path_eq top hevent, List.append_cons]
  unfold FilePath.parent directoryOf
  rw [List.dropLast_concat]

theorem null_mem_text_directoryOf_iff (top : FilePath) :
    '\x00' ∈ (directoryOf top).text.toList ↔ '\x00' ∈ top.text.toList := by
  have hname : '\x00' ∉ directory.toList := by decide
  have hparts : (∃ part ∈ (directoryOf top).parts, '\x00' ∈ part.toList) ↔
      ∃ part ∈ top.parts, '\x00' ∈ part.toList := by
    simp [directoryOf, or_and_right, exists_or, hname]
  rw [FilePath.mem_text_iff (by decide) (by decide),
    FilePath.mem_text_iff (by decide) (by decide), hparts]
  rfl

end Starter

namespace Generate

/-! ### Failures of a generation -/

/-- A failure that the command explains. -/
def IsExplained (f : Failure) : Prop :=
  ∃ o, outcomeOf f = some o

theorem isExplained_of_isInterruption {f : Failure} (h : IsInterruption f) : IsExplained f := by
  cases h with
  | interrupted => exact ⟨_, rfl⟩
  | endOfInput => exact ⟨_, rfl⟩

theorem not_isExplained {f : Failure} (h : outcomeOf f = none) : ¬ IsExplained f := by
  rintro ⟨o, ho⟩
  exact nomatch h.symm.trans ho

theorem isExplained_starter (f : StarterFailure) : IsExplained (.starter f) := ⟨_, rfl⟩

variable {p : Prompter σ} {options : Options} {style : Style} {top target : FilePath}
  {event branch : String}

theorem failsOnly_chooseEvent (hp : p.OnlyInterrupts) {given : OptionValue}
    (hgiven : given ≠ .blank) : Work.FailsOnly IsExplained (chooseEvent p given) := by
  cases given with
  | absent =>
    -- The answer is a title, but need not be that of an event.
    have htitle (title : String) : FailsOnly IsExplained (eventOfTitle title) := by
      unfold eventOfTitle
      split
      · exact .ok _
      · exact .error (isExplained_starter _)
    refine .bind (.question (fun s => ?_)) (fun title => .ofExcept (htitle title))
    exact fun f hf => isExplained_of_isInterruption (hp.select _ _ _ s f hf)
  | blank => exact absurd rfl hgiven
  | text event =>
    rw [chooseEvent]
    split
    · exact .pure _
    · exact .throw (isExplained_starter _)

theorem failsOnly_chooseBranch (hp : p.OnlyInterrupts) (event : String) (given : OptionValue) :
    Work.FailsOnly IsExplained (chooseBranch p event given) := by
  unfold chooseBranch
  split
  · refine .bind (.question (fun s => ?_)) (fun answer => .pure _)
    exact fun f hf => isExplained_of_isInterruption (hp.ask _ s f hf)
  · exact .pure _

theorem failsOnly_agree (hp : p.OnlyInterrupts) (options : Options) (message : String)
    (default : Bool) : Work.FailsOnly IsExplained (agree p options message default) := by
  unfold agree
  split
  · exact .pure _
  · exact .question (fun s f hf => isExplained_of_isInterruption (hp.confirm _ _ s f hf))

/-- The path of a directory has no meaning, and no directory is there. -/
structure NoPath (files : FileTree) (directory : FilePath) : Prop where
  missing : files.isDirectory directory = false
  null : '\x00' ∈ directory.text.toList

/-- The directory of the runs is there, or it can be made. -/
inductive Provided (refused : Refusals) (files : FileTree) (directory : FilePath) : Prop
  | there (hthere : files.isDirectory directory = true)
  | made {files' : FileTree} (hmissing : files.isDirectory directory = false)
      (hnull : '\x00' ∉ directory.text.toList) (hchange : refused.change directory = none)
      (hmake : files.makeDirectories directory = .ok files')

variable {refused : Refusals} {files : FileTree} {directory : FilePath}

theorem not_noPath_of_provided (h : Provided refused files directory) :
    ¬ NoPath files directory := by
  rintro ⟨hmissing, hnull⟩
  cases h with
  | there hthere => exact absurd (hthere.symm.trans hmissing) Bool.noConfusion
  | made _ hnone => exact hnone hnull

/-- What can come of making sure of the directory: the system refuses to look at it, its path has no
meaning, it cannot be made, or it is provided. -/
inductive Ensuring (refused : Refusals) (w : Workplace σ) (directory : FilePath) :
    Except Failure Unit × Workplace σ → Prop
  | refused {r : Refusal} (hlook : refused.look directory = some r) :
      Ensuring refused w directory (.error (.file r), w)
  | noPath (hpath : NoPath w.files directory) : Ensuring refused w directory (.error .badValue, w)
  | notMade {fault : FileFault} (hlook : refused.look directory = none)
      (hpath : ¬ NoPath w.files directory) (hnot : ¬ Provided refused w.files directory) :
      Ensuring refused w directory (.error (.starter (.cannotCreate directory.text fault)), w)
  | provided {w' : Workplace σ} (hlook : refused.look directory = none)
      (hprovided : Provided refused w.files directory) : Ensuring refused w directory (.ok (), w')

theorem ensuring_ensureDirectoryUnder (refused : Refusals) (w : Workplace σ) (directory : FilePath)
    (style : Style) :
    Ensuring refused w directory (Work.from w (ensureDirectoryUnder refused directory style)) := by
  unfold ensureDirectoryUnder
  cases hlook : refused.look directory with
  | some r => exact .refused hlook
  | none =>
    rw [Work.heed_none, pure_bind, Work.from_get_bind]
    cases hthere : w.files.isDirectory directory with
    | true =>
      rw [if_pos rfl, Work.heed_none, pure_bind]
      unfold ensureDirectory
      rw [Work.from_get_bind, if_pos hthere]
      exact .provided hlook (.there hthere)
    | false =>
      rw [if_neg Bool.false_ne_true]
      cases hchange : refused.change directory with
      | some r =>
        -- The system is not asked about a path without a meaning, and it refuses to make the
        -- directory.
        have hnull : '\x00' ∉ directory.text.toList :=
          fun h => nomatch hchange.symm.trans (refused.meant directory h).2
        refine .notMade hlook (fun h => hnull h.null) (fun h => ?_)
        cases h with
        | there h => exact absurd (h.symm.trans hthere) Bool.noConfusion
        | made _ _ h => exact nomatch hchange.symm.trans h
      | none =>
        rw [Work.heed_none, pure_bind]
        unfold ensureDirectory
        rw [Work.from_get_bind, hthere, if_neg Bool.false_ne_true]
        split
        case isTrue hnull => exact .noPath ⟨hthere, List.contains_iff_mem.mp hnull⟩
        case isFalse hnull =>
          have hmeant : '\x00' ∉ directory.text.toList :=
            fun h => hnull (List.contains_iff_mem.mpr h)
          cases hmake : w.files.makeDirectories directory with
          | error fault =>
            refine .notMade hlook (fun h => hmeant h.null) (fun h => ?_)
            cases h with
            | there h => exact absurd (h.symm.trans hthere) Bool.noConfusion
            | made _ _ _ h => exact nomatch hmake.symm.trans h
          | ok files => exact .provided hlook (.made hthere hmeant hchange hmake)

theorem failsOnly_settleUnder (hp : p.OnlyInterrupts) (hlook : refused.look target = none)
    (options : Options) (style : Style) (top : FilePath) (event branch : String) :
    Work.FailsOnly IsExplained (settleUnder refused p options style top target event branch) := by
  have hmay : Work.FailsOnly IsExplained (mayPut p options target) := by
    refine .get_bind (fun w => ?_)
    split
    · exact failsOnly_agree hp options _ _
    · exact .pure _
  have hheed : Work.FailsOnly (σ := σ) IsExplained
      (Work.heed (refused.change target)
        (fun fault => .starter (.cannotWrite target.text fault))) := by
    cases refused.change target with
    | none => exact .pure _
    | some r => exact .throw (isExplained_starter _)
  have hwrite (relative : FilePath) :
      Work.FailsOnly (σ := σ) IsExplained (writeRun top target relative event branch style) := by
    refine .get_bind (fun w => ?_)
    split
    · exact .throw (isExplained_starter _)
    · exact fun w' => .ok ()
  -- The look at the file is not refused, so what is left is to ask, to heed a refusal of the
  -- change, and to write.
  unfold settleUnder
  rw [hlook, Work.heed_none, pure_bind]
  refine .bind hmay (fun may => ?_)
  split
  · exact .bind hheed (fun _ => .bind (hwrite _) (fun _ => .pure _))
  · exact .pure _

/-! ### The failures that are not explained -/

/-- What stands in the way of a run before there is anything to explain. -/
inductive Stopped (refused : Refusals) (files : FileTree) (top : FilePath) (event : String) : Prop
  /-- The system refuses to look at the directory. -/
  | directory {r : Refusal} (hlook : refused.look (Starter.directoryOf top) = some r)
  /-- The directory has to be made, and its path has a null character. -/
  | nullCharacter (hmissing : files.isDirectory (Starter.directoryOf top) = false)
      (hnull : '\x00' ∈ top.text.toList)
  /-- The system refuses to look at the file, once its directory is there. -/
  | file {r : Refusal} (hprovided : Provided refused files (Starter.directoryOf top))
      (hlook : refused.look (Starter.path top event) = some r)

/-- A run is carried out by making sure of the directory and, when it is provided, by settling the
file. -/
theorem exists_ensuring_carryOutUnder (refused : Refusals) (p : Prompter σ) (options : Options)
    (style : Style) (top : FilePath) (branch : String) (w : Workplace σ)
    (hevent : (Starter.events.lookup event).isSome = true) :
    ∃ ensured, Ensuring refused w (Starter.directoryOf top) ensured ∧
      Work.from w (carryOutUnder refused p options style top event branch) =
        match ensured with
        | (.ok _, w') =>
          Work.from w'
            (settleUnder refused p options style top (Starter.path top event) event branch)
        | (.error e, w') => (.error e, w') := by
  have hensuring := ensuring_ensureDirectoryUnder refused w (Starter.path top event).parent style
  rw [Starter.parent_path top hevent] at hensuring
  unfold carryOutUnder
  rw [Starter.parent_path top hevent]
  obtain ⟨e, w', hfirst, hboth⟩ | ⟨x, w', hfirst, hboth⟩ :=
    Work.from_bind_cases w (ensureDirectoryUnder refused (Starter.directoryOf top) style)
      (fun _ => settleUnder refused p options style top (Starter.path top event) event branch)
  · exact ⟨(.error e, w'), hfirst ▸ hensuring, hboth⟩
  · exact ⟨(.ok x, w'), hfirst ▸ hensuring, hboth⟩

/-- A run that is stopped fails, and this is not explained. -/
theorem exists_from_carryOutUnder_of_stopped {w : Workplace σ}
    (h : Stopped refused w.files top event) (hevent : (Starter.events.lookup event).isSome = true)
    (options : Options) (style : Style) (branch : String) :
    ∃ f, outcomeOf f = none ∧
      (Work.from w (carryOutUnder refused p options style top event branch)).1 = .error f := by
  obtain ⟨ensured, hensuring, hcarried⟩ :=
    exists_ensuring_carryOutUnder refused p options style top branch w hevent
  rw [hcarried]
  -- The directory comes before the file. If it cannot be looked at or has no path, that is the
  -- end; if it cannot be made, the failure is explained and nothing of `Stopped` is left.
  cases hensuring with
  | refused => exact ⟨_, rfl, rfl⟩
  | noPath => exact ⟨_, rfl, rfl⟩
  | notMade hlook' hpath hnot =>
    cases h with
    | directory hlook => exact nomatch hlook.symm.trans hlook'
    | nullCharacter hmissing hnull =>
      exact absurd ⟨hmissing, (Starter.null_mem_text_directoryOf_iff top).mpr hnull⟩ hpath
    | file hprovided => exact absurd hprovided hnot
  | provided hlook' hprovided =>
    cases h with
    | directory hlook => exact nomatch hlook.symm.trans hlook'
    | nullCharacter hmissing hnull =>
      exact absurd ⟨hmissing, (Starter.null_mem_text_directoryOf_iff top).mpr hnull⟩
        (not_noPath_of_provided hprovided)
    | file _ hlook =>
      dsimp only
      unfold settleUnder
      rw [hlook]
      exact ⟨_, rfl, rfl⟩

/-- One that is not stopped fails for reasons that are explained. -/
theorem failsOnly_carryOutUnder (hp : p.OnlyInterrupts) {w : Workplace σ}
    (h : ¬ Stopped refused w.files top event) (hevent : (Starter.events.lookup event).isSome = true)
    (options : Options) (style : Style) (branch : String) :
    FailsOnly IsExplained
      (Work.from w (carryOutUnder refused p options style top event branch)).1 := by
  obtain ⟨ensured, hensuring, hcarried⟩ :=
    exists_ensuring_carryOutUnder refused p options style top branch w hevent
  rw [hcarried]
  -- Two of the ways are ones in which the run is stopped; the third is explained.
  cases hensuring with
  | refused hlook => exact absurd (.directory hlook) h
  | noPath hpath =>
    exact absurd
      (.nullCharacter hpath.missing ((Starter.null_mem_text_directoryOf_iff top).mp hpath.null)) h
  | notMade => exact .error (isExplained_starter _)
  | provided _ hprovided =>
    have hlook : refused.look (Starter.path top event) = none := by
      cases hlook : refused.look (Starter.path top event) with
      | none => rfl
      | some r => exact absurd (.file hprovided hlook) h
    exact failsOnly_settleUnder hp hlook options style top event branch _

/-- Settles what a generation is about and asks whether it is wanted: what it is about, if it is. -/
def propose (p : Prompter σ) (options : Options) : Work σ (Option (String × String)) := do
  let chosen ← choose p options
  let wanted ← agree p options (creationQuestion (Starter.path ⟨"", []⟩ chosen.1)) true
  return if wanted then some chosen else none

/-- A generation proposes what it is about, and carries it out if it is wanted. -/
theorem createUnder_eq_propose (refused : Refusals) (p : Prompter σ) (top : FilePath)
    (options : Options) (style : Style) :
    createUnder refused p top options style = (do
      match ← propose p options with
      | some (event, branch) => carryOutUnder refused p options style top event branch
      | none => return none) := by
  rw [createUnder_eq]
  unfold propose
  rw [bind_assoc]
  refine bind_congr (fun chosen => ?_)
  rw [bind_assoc]
  refine bind_congr (fun wanted => ?_)
  rw [pure_bind]
  cases wanted with
  | false => rfl
  | true => rfl

/-- What is proposed leaves the files alone, and its event can start a run. -/
theorem propose_spec {w v : Workplace σ}
    (h : Work.from w (propose p options) = (.ok (some (event, branch)), v)) :
    v.files = w.files ∧ (Starter.events.lookup event).isSome = true := by
  obtain ⟨chosen, v', hchoose, hrest⟩ := Work.exists_of_from_bind_eq_ok h
  obtain ⟨wanted, v'', hagree, hresult⟩ := Work.exists_of_from_bind_eq_ok hrest
  have hchoice := onlyAsked_choose p w options
  have hanswer :=
    onlyAsked_agree p v' options (creationQuestion (Starter.path ⟨"", []⟩ chosen.1)) true
  rw [hchoose] at hchoice
  rw [hagree] at hanswer
  cases wanted with
  | false => exact nomatch hresult
  | true =>
    -- Neither question touched a file, and the event passed the look-up when it was chosen.
    obtain ⟨hchosen, rfl⟩ := Prod.mk.inj hresult
    obtain rfl : chosen = (event, branch) := Option.some.inj (Except.ok.inj hchosen)
    exact ⟨hanswer.files_eq.trans hchoice.files_eq, isSome_lookup_of_from_choose hchoose⟩

theorem failsOnly_propose (hp : p.OnlyInterrupts) (hevent : options.event ≠ .blank) :
    Work.FailsOnly IsExplained (propose p options) := by
  have hchoose : Work.FailsOnly IsExplained (choose p options) :=
    .bind (failsOnly_chooseEvent hp hevent)
      (fun event => .bind (failsOnly_chooseBranch hp event _) (fun _ => .pure _))
  exact .bind hchoose (fun chosen => .bind (failsOnly_agree hp options _ _) (fun _ => .pure _))

/-- An event without a text ends a generation at once, and this is not explained. -/
theorem from_createUnder_of_blank {w : Workplace σ} (hevent : options.event = .blank) :
    Work.from w (createUnder refused p top options style) = (.error .wrongType, w) := by
  unfold createUnder
  rw [hevent]
  rfl

/-- So does what stands in the way of a run that the user has agreed to. -/
theorem exists_from_createUnder_of_stopped {w : Workplace σ}
    (hwanted : (Work.from w (propose p options)).1 = .ok (some (event, branch)))
    (hstopped : Stopped refused w.files top event) (style : Style) :
    ∃ f, outcomeOf f = none ∧ (Work.from w (createUnder refused p top options style)).1 =
      .error f := by
  have hpropose :
      Work.from w (propose p options) =
        (.ok (some (event, branch)), (Work.from w (propose p options)).2) :=
    Prod.ext hwanted rfl
  obtain ⟨hfiles, hknown⟩ := propose_spec hpropose
  -- The questions left the files alone, so the same still stands in the way of the run.
  rw [← hfiles] at hstopped
  rw [createUnder_eq_propose, Work.from_bind_of_ok hpropose]
  exact exists_from_carryOutUnder_of_stopped hstopped hknown options style branch

/-- In all other cases a generation fails for reasons that are explained. -/
theorem failsOnly_createUnder {w : Workplace σ} (hp : p.OnlyInterrupts)
    (hevent : options.event ≠ .blank)
    (hstopped : ∀ event branch, (Work.from w (propose p options)).1 = .ok (some (event, branch)) →
      ¬ Stopped refused w.files top event) :
    FailsOnly IsExplained (Work.from w (createUnder refused p top options style)).1 := by
  rw [createUnder_eq_propose]
  rcases Work.from_bind_cases w (propose p options) _ with ⟨e, v, hpropose, hall⟩
    | ⟨chosen, v, hpropose, hall⟩
  · rw [hall]
    exact .error (failsOnly_propose hp hevent w e (by rw [hpropose]))
  rw [hall]
  cases chosen with
  | none => exact .ok none
  | some chosen =>
    obtain ⟨event, branch⟩ := chosen
    obtain ⟨hfiles, hknown⟩ := propose_spec hpropose
    refine failsOnly_carryOutUnder hp ?_ hknown options style branch
    rw [hfiles]
    exact hstopped event branch (by rw [hpropose])

/-! ### The command -/

/-- The command up to the point where failures are looked at. -/
def attempt (refused : Refusals) (p : Prompter σ) (git : GitReply) (directory : FilePath)
    (options : Options) : Work σ (Option FilePath) := do
  let top ← Work.act (Checkout.topLevel directory git)
  createUnder refused p top options .plain

/-- What the command makes of a result: no error, or the outcome of a failure that it explains. -/
def conclusion (r : Except Failure α) : Except Failure Outcome :=
  match r with
  | .ok _ => .ok ⟨0, ""⟩
  | .error f =>
    match outcomeOf f with
    | some o => .ok o
    | none => .error f

theorem fst_from_runUnder (refused : Refusals) (p : Prompter σ) (git : GitReply)
    (directory : FilePath) (options : Options) (w : Workplace σ) :
    (Work.from w (runUnder refused p git directory options)).1 =
      conclusion (Work.from w (attempt refused p git directory options)).1 := by
  -- The code 0 is put after the attempt; the handler then sees the failures of the attempt and no
  -- others.
  have hsteps : (do
      let top ← Work.act (Checkout.topLevel directory git)
      let _ ← createUnder refused p top options .plain
      return ⟨0, ""⟩ : Work σ Outcome) = attempt refused p git directory options >>=
        fun _ => pure ⟨0, ""⟩ :=
    (bind_assoc _ _ _).symm
  unfold runUnder
  rw [hsteps, Work.from_tryCatch, Work.from_bind]
  unfold conclusion
  cases Work.from w (attempt refused p git directory options) with
  | mk r w' =>
    cases r with
    | ok path => rfl
    | error f =>
      dsimp only
      cases outcomeOf f with
      | none => rfl
      | some o => rfl

/-- There is an outcome exactly if a failure would be explained. -/
theorem exists_conclusion_iff {r : Except Failure α} :
    (∃ o, conclusion r = .ok o) ↔ FailsOnly IsExplained r := by
  unfold conclusion
  cases r with
  | ok x => exact iff_of_true ⟨_, rfl⟩ (.ok x)
  | error f =>
    dsimp only
    cases houtcome : outcomeOf f with
    | some o => exact iff_of_true ⟨o, rfl⟩ (.error ⟨o, houtcome⟩)
    | none => exact iff_of_false (fun h => nomatch h) (fun h => not_isExplained houtcome (h f rfl))

/-- What is explained has an error text and the code 1, or was an interruption and has the code
130. -/
theorem codes_of_outcomeOf {f : Failure} {o : Outcome} (h : outcomeOf f = some o) :
    (∃ message, o = ⟨1, "Error: " ++ message ++ "\n"⟩) ∨ o = ⟨130, "\n"⟩ := by
  unfold outcomeOf at h
  split at h
  · exact Or.inl ⟨_, (Option.some.inj h).symm⟩
  · exact Or.inl ⟨_, (Option.some.inj h).symm⟩
  · exact Or.inr (Option.some.inj h).symm
  · exact Or.inr (Option.some.inj h).symm
  · exact nomatch h

theorem codes_of_conclusion {r : Except Failure α} {o : Outcome} (h : conclusion r = .ok o) :
    o = ⟨0, ""⟩ ∨ (∃ message, o = ⟨1, "Error: " ++ message ++ "\n"⟩) ∨ o = ⟨130, "\n"⟩ := by
  unfold conclusion at h
  cases r with
  | ok x => exact Or.inl (Except.ok.inj h).symm
  | error f =>
    dsimp only at h
    cases houtcome : outcomeOf f with
    | none =>
      rw [houtcome] at h
      exact nomatch h
    | some o' =>
      rw [houtcome] at h
      obtain rfl : o' = o := Except.ok.inj h
      exact Or.inr (codes_of_outcomeOf houtcome)

/-! ### The answer of the version control program -/

end Generate

/-- The version control program ended with a code, and what it wrote are these two texts. -/
inductive GitReply.Says : GitReply → Int → String → String → Prop
  | done {code : Int} {written complained : List UInt8} {out err : String}
    (hout : Checkout.said written = .ok out)
      (herr : Checkout.said complained = .ok err) :
        Says (.done code written complained) code out err

namespace Checkout

variable {git : GitReply} {code : Int} {out err : String}

/-- A text is said by the bytes that it is written in, up to its line endings. -/
theorem said_encode (s : String) :
    said (FileTree.encode s) = .ok (String.ofList (Text.unifyNewlines s.toList)) := by
  rw [said, FileTree.decode_encode]
  rfl

theorem notUtf8_of_said {written : List UInt8} {f : Failure} (h : said written = .error f) :
    f = .notUtf8 := by
  unfold said at h
  cases hdecode : FileTree.decode written with
  | ok s =>
    rw [hdecode] at h
    exact nomatch h
  | error e =>
    rw [hdecode] at h
    obtain rfl : e = f := Except.error.inj h
    exact FileTree.notUtf8_of_decode hdecode

theorem topLevel_of_says (directory : FilePath) (h : git.Says code out err) :
    topLevel directory git = topOf directory code out err := by
  cases h with
  | done hout herr =>
    rw [topLevel, hout, herr]
    rfl

/-- What is not UTF-8 is no answer, whatever the code. -/
theorem from_topLevel_of_not_says (directory : FilePath) {code : Int}
    {written complained : List UInt8}
    (h : ∀ out err, ¬ (GitReply.done code written complained).Says code out err)
    (before : Effects) :
    (Action.from before (topLevel directory (.done code written complained))).1 =
      .error .notUtf8 := by
  cases hout : said written with
  | error f =>
    obtain rfl := notUtf8_of_said hout
    rw [topLevel, hout]
    rfl
  | ok out =>
    cases herr : said complained with
    | error f =>
      obtain rfl := notUtf8_of_said herr
      rw [topLevel, hout, herr]
      rfl
    | ok err => exact absurd (.done hout herr) (h out err)

end Checkout

namespace Generate

variable {git : GitReply} {out err : String} {w : Workplace σ}

/-- Where the version control program names a top directory, the generation is made below it. -/
theorem from_attempt_inside (h : git.Says 0 out err) (hout : Text.isBlankText out = false) :
    Work.from w (attempt refused p git directory options) =
      Work.from w (createUnder refused p (FilePath.ofText (Text.strip out)) options .plain) := by
  have htop : Work.from w (Work.act (Checkout.topLevel directory git)) =
      (.ok (FilePath.ofText (Text.strip out)), w) := by
    rw [Work.from_act, Checkout.topLevel_of_says directory h, Checkout.topOf,
      if_neg (by decide), hout, if_neg Bool.false_ne_true]
    rfl
  unfold attempt
  rw [Work.from_bind_of_ok htop]

/-- Where it names none, the reason is that of the look-up. -/
theorem fst_from_attempt_of_error {f : Failure}
    (h : ∀ before, (Action.from before (Checkout.topLevel directory git)).1 = .error f) :
    (Work.from w (attempt refused p git directory options)).1 = .error f := by
  have htop : Work.from w (Work.act (Checkout.topLevel directory git)) =
      (.error f, (Work.from w (Work.act (Checkout.topLevel directory git))).2) := by
    refine Prod.ext ?_ rfl
    rw [Work.from_act]
    exact h w.effects
  unfold attempt
  rw [Work.from_bind_of_error htop]

theorem fst_from_attempt_failed {code : Int} (h : git.Says code out err) (hcode : code ≠ 0) :
    (Work.from w (attempt refused p git directory options)).1 =
      .error (.checkout (.failed Checkout.command (Checkout.complaint out err))) := by
  refine fst_from_attempt_of_error (fun before => ?_)
  rw [Checkout.topLevel_of_says directory h, Checkout.topOf, if_pos hcode]
  rfl

theorem fst_from_attempt_outside (h : git.Says 0 out err) (hout : Text.isBlankText out = true) :
    (Work.from w (attempt refused p git directory options)).1 =
      .error (.checkout (.outside directory.text)) := by
  refine fst_from_attempt_of_error (fun before => ?_)
  rw [Checkout.topLevel_of_says directory h, Checkout.topOf, if_neg (by decide), if_pos hout]
  rfl

/-- The cases in which a failure of the command is not explained. -/
inductive Unexplained (refused : Refusals) (p : Prompter σ) (git : GitReply) (options : Options)
    (w : Workplace σ) : Prop
  /-- The version control program does not answer in time. -/
  | late (hgit : git = .late)
  /-- The system refuses to start it. -/
  | barred {r : Refusal} (hgit : git = .barred r)
  /-- It ends, and something that it wrote is not UTF-8. -/
  | garbled {code : Int} {written complained : List UInt8}
      (hgit : git = .done code written complained) (hnone : ∀ out err, ¬ git.Says code out err)
  /-- It names a top directory, and the event is given without a text. -/
  | blankEvent {out err : String} (hgit : git.Says 0 out err) (hout : Text.isBlankText out = false)
      (hevent : options.event = .blank)
  /-- It names one, and something stands in the way of a run below it that the user has agreed
  to. -/
  | stopped {out err event branch : String} (hgit : git.Says 0 out err)
      (hout : Text.isBlankText out = false)
      (hwanted : (Work.from w (propose p options)).1 = .ok (some (event, branch)))
      (hstopped : Stopped refused w.files (FilePath.ofText (Text.strip out)) event)

theorem not_failsOnly_attempt (directory : FilePath) (h : Unexplained refused p git options w) :
    ¬ FailsOnly IsExplained (Work.from w (attempt refused p git directory options)).1 := by
  intro hexplained
  -- Each of the ways leads to a failure that has no outcome.
  cases h with
  | late hgit =>
    subst hgit
    exact not_isExplained rfl (hexplained .timedOut (fst_from_attempt_of_error (fun _ => rfl)))
  | barred hgit =>
    subst hgit
    exact not_isExplained rfl (hexplained (.file _) (fst_from_attempt_of_error (fun _ => rfl)))
  | garbled hgit hnone =>
    subst hgit
    exact not_isExplained rfl
      (hexplained .notUtf8
        (fst_from_attempt_of_error (Checkout.from_topLevel_of_not_says directory hnone)))
  | blankEvent hgit hout hevent =>
    rw [from_attempt_inside hgit hout, from_createUnder_of_blank hevent] at hexplained
    exact not_isExplained rfl (hexplained .wrongType rfl)
  | stopped hgit hout hwanted hstopped =>
    obtain ⟨f, hf, hcreated⟩ := exists_from_createUnder_of_stopped hwanted hstopped .plain
    rw [from_attempt_inside hgit hout] at hexplained
    exact not_isExplained hf (hexplained f hcreated)

theorem failsOnly_attempt (hp : p.OnlyInterrupts) (directory : FilePath)
    (h : ¬ Unexplained refused p git options w) :
    FailsOnly IsExplained (Work.from w (attempt refused p git directory options)).1 := by
  cases git with
  | late => exact absurd (.late rfl) h
  | barred r => exact absurd (.barred rfl) h
  | missing =>
    rw [fst_from_attempt_of_error (fun _ => rfl)]
    exact .error ⟨_, rfl⟩
  | done code written complained =>
    by_cases hsays : ∃ out err, (GitReply.done code written complained).Says code out err
    case neg => exact absurd (.garbled rfl (fun out err hsaid => hsays ⟨out, err, hsaid⟩)) h
    obtain ⟨out, err, hsays⟩ := hsays
    by_cases hcode : code = 0
    case neg =>
      rw [fst_from_attempt_failed hsays hcode]
      exact .error ⟨_, rfl⟩
    subst hcode
    cases hout : Text.isBlankText out with
    | true =>
      rw [fst_from_attempt_outside hsays hout]
      exact .error ⟨_, rfl⟩
    | false =>
      -- A top directory is named, and what is left can fail in two ways that are not explained.
      rw [from_attempt_inside hsays hout]
      exact failsOnly_createUnder hp (fun hevent => h (.blankEvent hsays hout hevent))
        (fun event branch hwanted hstopped => h (.stopped hsays hout hwanted hstopped))

/-- How the command ends. -/
structure Ending (refused : Refusals) (p : Prompter σ) (git : GitReply) (directory : FilePath)
    (options : Options) (w : Workplace σ) (result : Except Failure Outcome) : Prop where
  /-- There is an exit code in all but the cases that are not explained. -/
  returns_iff : (∃ o, result = .ok o) ↔ ¬ Unexplained refused p git options w
  codes : ∀ o, result = .ok o → o = ⟨0, ""⟩ ∨ (∃ message, o = ⟨1, "Error: " ++ message ++ "\n"⟩) ∨
    o = ⟨130, "\n"⟩
  missing : git = .missing → result = .ok ⟨1, "Error: git not found\n"⟩
  failed : ∀ code out err, git.Says code out err → code ≠ 0 →
    result = .ok ⟨1, "Error: git rev-parse --show-toplevel: " ++ Checkout.complaint out err ++ "\n"⟩
  outside : ∀ out err, git.Says 0 out err → Text.isBlankText out = true →
    result = .ok ⟨1, "Error: " ++ (directory.text ++ " is not inside a git work tree") ++ "\n"⟩
  /-- Below a top directory the ending is that of the generation there. -/
  inside : ∀ out err, git.Says 0 out err → Text.isBlankText out = false →
    let created :=
      (Work.from w (createUnder refused p (FilePath.ofText (Text.strip out)) options .plain)).1
    (∀ path, created = .ok path → result = .ok ⟨0, ""⟩) ∧
    (∀ f : StarterFailure, created = .error (.starter f) →
      result = .ok ⟨1, "Error: " ++ f.message ++ "\n"⟩) ∧
    ∀ f, IsInterruption f → created = .error f → result = .ok ⟨130, "\n"⟩

/-- **How a generation ends.** With a prompter that answers or is interrupted, the command has an
exit code, which is 0, 1 or 130, unless the version control program cannot be started, does not
answer in time or writes something that is not UTF-8, the event has no text, or something stands in
the way of a run that the user has agreed to. Where the work tree is not found or the run cannot be
made, the code is 1 and there is an error text; after an interruption it is
130. -/
theorem ending_run (hp : p.OnlyInterrupts) (refused : Refusals) (git : GitReply)
    (directory : FilePath) (options : Options) (w : Workplace σ) :
    Ending refused p git directory options w
      (Work.from w (runUnder refused p git directory options)).1 := by
  rw [fst_from_runUnder]
  -- Each field is about one way in which the attempt ends; `conclusion` then says what becomes of
  -- it.
  constructor
  case returns_iff =>
    rw [exists_conclusion_iff]
    exact ⟨fun hexplained h => not_failsOnly_attempt directory h hexplained,
      fun h => failsOnly_attempt hp directory h⟩
  case codes => exact fun o ho => codes_of_conclusion ho
  case missing =>
    rintro rfl
    rw [fst_from_attempt_of_error (fun _ => rfl)]
    rfl
  case failed =>
    intro code out err hsays hcode
    rw [fst_from_attempt_failed hsays hcode]
    rfl
  case outside =>
    intro out err hsays hout
    rw [fst_from_attempt_outside hsays hout]
    rfl
  case inside =>
    intro out err hsays hout
    rw [from_attempt_inside hsays hout]
    refine ⟨fun path h => ?_, fun f h => ?_, fun f hf h => ?_⟩
    · rw [h]
      rfl
    · rw [h]
      rfl
    · rw [h]
      cases hf with
      | interrupted => rfl
      | endOfInput => rfl

/-- A user who goes back on a run in the middle of the questions. -/
theorem ending_run_interrupted :
    let git := GitReply.done 0 (FileTree.encode "/src/app\n") (FileTree.encode "")
    let w : Workplace (List String) :=
      { files := { entries := [(["src"], .directory), (["src", "app"], .directory)] }
        prompter := ["Push to a Branch or a Tag", "", "^C"] }
    Prompter.scripted.OnlyInterrupts ∧
      (Work.from w (createUnder .nothing .scripted (FilePath.ofText "/src/app") {} .plain)).1 =
        .error .interrupted ∧
      (Work.from w (runUnder .nothing .scripted git (FilePath.ofText ".") {})).1 = .ok ⟨130, "\n"⟩ ∧
      ¬ Unexplained .nothing .scripted git {} w := by
  intro git w
  have hcreated :
      (Work.from w (createUnder .nothing .scripted (FilePath.ofText "/src/app") {} .plain)).1 =
        .error .interrupted := by
    rfl
  have hending :=
    ending_run Prompter.onlyInterrupts_scripted .nothing git (FilePath.ofText ".") {} w
  have htop : FilePath.ofText (Text.strip "/src/app\n") = FilePath.ofText "/src/app" := by decide
  have hsays : git.Says 0 "/src/app\n" "" :=
    .done (Checkout.said_encode "/src/app\n") (Checkout.said_encode "")
  obtain ⟨-, -, hinterrupted⟩ := hending.inside "/src/app\n" "" hsays (by decide)
  rw [htop] at hinterrupted
  have hresult := hinterrupted .interrupted .interrupted hcreated
  exact ⟨Prompter.onlyInterrupts_scripted, hcreated, hresult, hending.returns_iff.mp ⟨_, hresult⟩⟩

/-- The command has no exit code where the version control program does not answer in time. -/
theorem run_without_exit_code :
    ¬ ∀ (p : Prompter (List String)) (git : GitReply) (directory : FilePath) (options : Options)
        (w : Workplace (List String)), p.OnlyInterrupts →
      ∃ o, (Work.from w (run p git directory options)).1 = .ok o ∧
        (o.code = 0 ∨ o.code = 1 ∨ o.code = 130) := by
  intro hall
  obtain ⟨o, ho, -⟩ := hall .scripted .late (FilePath.ofText "w") ⟨.text "push", .text "m", true⟩
    { files := {}, prompter := [] } Prompter.onlyInterrupts_scripted
  have hlate : (Work.from { files := {}, prompter := [] } (run .scripted .late (FilePath.ofText "w")
      ⟨.text "push", .text "m", true⟩)).1 = .error .timedOut := rfl
  exact nomatch hlate.symm.trans ho

end Generate

end PipelineRuns
