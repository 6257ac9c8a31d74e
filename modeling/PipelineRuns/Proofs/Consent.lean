import PipelineRuns.Proofs.Answers
import PipelineRuns.Proofs.Generation

/-!
# Nothing without a yes

What a generation asks, and what it is answered, can be kept on record. `Prompter.recorded` answers
as a given prompter does and adds every question with its answer to a list of `Exchange`s. Recording
changes nothing else about a run (`Generate.mirrors_create`), so a statement on the record is one on
the run itself.

The record shows that a generation acts on agreement alone. As long as the question whether the file
is wanted was not answered with yes, nothing is changed. After that two things are done. Directories
are made, which leaves everything that is there as it is (`FileTree.Keeps`), whatever the path leads
over. Then the file is written; what stands where its path leads *then*, directories having been
made, is replaced only after a further question that names the path was answered with yes
(`Generate.ReplacesWithYes`).

At the console, the first line that decides gives the answer (`Console.answer_confirm_eq_yes_iff`).

Main statement: `Generate.create_with_consent`.
-/

namespace PipelineRuns

variable {σ α β : Type}

/-! ### Conversations on record -/

/-- A question that was put to a prompter, and the answer. -/
inductive Exchange where
  | select (message : String) (options : List String) (default : String)
      (answer : Except Failure String)
  | ask (message : String) (answer : Except Failure String)
  | confirm (message : String) (default : Bool) (answer : Except Failure Bool)

/-- The same turn, with its exchange added to a record. -/
def Turn.recorded (t : Turn σ α) (record : List Exchange) (exchange : Except Failure α → Exchange) :
    Turn (σ × List Exchange) α :=
  ⟨t.said, t.answer, t.state, record ++ [exchange t.answer]⟩

/-- The prompter that answers as `p` does, and keeps a record of the conversation. -/
def Prompter.recorded (p : Prompter σ) : Prompter (σ × List Exchange) where
  select message options default s :=
    (p.select message options default s.1).recorded s.2 (.select message options default)
  ask message s := (p.ask message s.1).recorded s.2 (.ask message)
  confirm message default s :=
    (p.confirm message default s.1).recorded s.2 (.confirm message default)

/-- A conversation adds to the record and takes nothing from it. -/
theorem Prompter.Dialogue.exists_record {p : Prompter σ} {s s' : σ × List Exchange} {text : String}
    (h : p.recorded.Dialogue s text s') : ∃ record, s'.2 = s.2 ++ record := by
  -- Each question adds its own exchange to what the questions before it have added.
  have hone {before after : List Exchange} (exchange : Exchange)
    (ih : ∃ record, after = before ++ record) :
      ∃ record, after ++ [exchange] = before ++ record := by
    obtain ⟨record, hrecord⟩ := ih
    exact ⟨record ++ [exchange], by rw [hrecord, List.append_assoc]⟩
  induction h with
  | silent => exact ⟨[], (List.append_nil _).symm⟩
  | select _ message options default ih => exact hone _ ih
  | ask _ message ih => exact hone _ ih
  | confirm _ message default ih => exact hone _ ih

/-- A workplace without the record. -/
def Workplace.unrecorded (w : Workplace (σ × List Exchange)) : Workplace σ where
  files := w.files
  prompter := w.prompter.1
  out := w.out
  effects := w.effects

/-! ### Recording changes nothing -/

/-- `b` does what `a` does, from any workplace, but for the record. -/
def Work.Mirrors (a : Work (σ × List Exchange) α) (b : Work σ α) : Prop :=
  ∀ w, Work.from w.unrecorded b = ((Work.from w a).1, (Work.from w a).2.unrecorded)

namespace Work.Mirrors

theorem pure (x : α) : Mirrors (pure x : Work (σ × List Exchange) α) (pure x) := fun _ => rfl

theorem throw (f : Failure) : Mirrors (throw f : Work (σ × List Exchange) α) (throw f) :=
  fun _ => rfl

theorem ofExcept (r : Except Failure α) : Mirrors (σ := σ) (ofExcept r) (ofExcept r) := by
  intro w
  rw [from_ofExcept, from_ofExcept]

theorem bind {a : Work (σ × List Exchange) α} {b : Work σ α} {f : α → Work (σ × List Exchange) β}
    {g : α → Work σ β} (ha : Mirrors a b) (hf : ∀ x, Mirrors (f x) (g x)) :
    Mirrors (a >>= f) (b >>= g) := by
  intro w
  rw [from_bind, from_bind, ha w]
  cases hfirst : Work.from w a with
  | mk r w' =>
    cases r with
    | error e => rfl
    | ok x => exact hf x w'

/-- A workplace is looked at in the same way with the record and without it. -/
theorem get_bind {f : Workplace (σ × List Exchange) → Work (σ × List Exchange) β}
    {g : Workplace σ → Work σ β} (h : ∀ w, Mirrors (f w) (g w.unrecorded)) :
    Mirrors (get >>= f) (get >>= g) := by
  intro w
  rw [from_get_bind, from_get_bind]
  exact h w w

theorem question {ask : σ → Turn σ α} {exchange : Except Failure α → Exchange} :
    Mirrors (question (fun s => (ask s.1).recorded s.2 exchange)) (question ask) := by
  intro w
  rw [from_question, from_question]
  rfl

theorem write (text : String) : Mirrors (σ := σ) (write text) (write text) := fun _ => rfl

theorem changeFiles (files : FileTree) : Mirrors (σ := σ) (changeFiles files) (changeFiles files) :=
  fun _ => rfl

theorem act (a : Action α) : Mirrors (σ := σ) (act a) (act a) := by
  intro w
  rw [from_act, from_act]
  rfl

end Work.Mirrors

namespace Generate

variable (p : Prompter σ) (options : Options) (style : Style) (top : FilePath)

theorem mirrors_agree (message : String) (default : Bool) :
    Work.Mirrors (agree p.recorded options message default) (agree p options message default) := by
  unfold agree
  split
  · exact .pure _
  · exact .question

theorem mirrors_choose : Work.Mirrors (choose p.recorded options) (choose p options) := by
  have hevent :
      Work.Mirrors (chooseEvent p.recorded options.event) (chooseEvent p options.event) := by
    unfold chooseEvent
    split
    · exact .bind .question (fun title => .ofExcept _)
    · exact .throw _
    · split
      · exact .pure _
      · exact .throw _
  have hbranch (event : String) : Work.Mirrors (chooseBranch p.recorded event options.branch)
      (chooseBranch p event options.branch) := by
    unfold chooseBranch
    split
    · exact .bind .question (fun answer => .pure _)
    · exact .pure _
  exact .bind hevent (fun event => .bind (hbranch event) (fun branch => .pure _))

theorem mirrors_carryOut (event branch : String) :
    Work.Mirrors (carryOut p.recorded options style top event branch)
      (carryOut p options style top event branch) := by
  -- Each part only reads what is there, changes files and writes; the one that asks is the second.
  have hdirectory (directory : FilePath) :
      Work.Mirrors (σ := σ) (ensureDirectory directory style)
      (ensureDirectory directory style) := by
    refine .get_bind (fun w => ?_)
    dsimp only [Workplace.unrecorded]
    split
    · exact .pure _
    split
    · exact .throw _
    cases w.files.makeDirectories directory with
    | error fault => exact .throw _
    | ok files => exact .bind (.changeFiles _) (fun _ => .write _)
  have hmay (target : FilePath) :
      Work.Mirrors (mayPut p.recorded options target) (mayPut p options target) := by
    refine .get_bind (fun w => ?_)
    dsimp only [Workplace.unrecorded]
    split
    · exact mirrors_agree p options _ _
    · exact .pure _
  have hwrite (target : FilePath) : Work.Mirrors (σ := σ)
      (writeRun top target (Starter.path ⟨"", []⟩ event) event branch style)
      (writeRun top target (Starter.path ⟨"", []⟩ event) event branch style) := by
    refine .get_bind (fun w => ?_)
    dsimp only [Workplace.unrecorded]
    cases w.files.write target (Starter.text top.name event branch) with
    | error fault => exact .throw _
    | ok files =>
      exact .bind (.changeFiles _)
        (fun _ => .bind (.act _) (fun _ => .bind (.write _) (fun _ => .write _)))
  refine .bind (hdirectory _) (fun _ => .bind (hmay _) (fun may => ?_))
  split
  · exact .bind (hwrite _) (fun _ => .pure _)
  · exact .pure _

/-- A generation with a prompter that keeps a record is the same generation. -/
theorem mirrors_create :
    Work.Mirrors (create p.recorded top options style) (create p top options style) := by
  rw [create_eq, create_eq]
  refine .bind (mirrors_choose p options)
    (fun chosen => .bind (mirrors_agree p options _ _) (fun wanted => ?_))
  split
  · exact mirrors_carryOut p options style top _ _
  · exact .pure _

end Generate

namespace Work

/-- Giving another result changes nothing at the workplace. -/
theorem from_bind_pure (w : Workplace σ) (a : Work σ α) (y : β) :
    (Work.from w (a >>= fun _ => pure y)).2 = (Work.from w a).2 := by
  rcases from_bind_cases w a (fun _ => (pure y : Work σ β)) with ⟨e, w', hfirst, hall⟩
    | ⟨x, w', hfirst, hall⟩
  · rw [hall, hfirst]
  · rw [hall, hfirst]
    rfl

end Work

/-! ### Agreement -/

namespace Generate

/-- The options of a generation without `--yes`. -/
def Options.asking (event branch : OptionValue) : Options := ⟨event, branch, false⟩

/-- A yes to the question whether the file of an event is to be created. -/
def creationYes (event : String) : Exchange :=
  .confirm (creationQuestion (Starter.path ⟨"", []⟩ event)) true (.ok true)

/-- A yes to the question whether a file is to be replaced. -/
def overrideYes (target : FilePath) : Exchange :=
  .confirm (overrideQuestion target) false (.ok true)

/-- Between two workplaces, nothing that stood somewhere was replaced, unless the path of a file
leads there and the record of the time between holds a yes to replacing that file. -/
structure ReplacesWithYes (target : FilePath) (w w' : Workplace (σ × List Exchange)) : Prop where
  exists_record : ∃ record, w'.prompter.2 = w.prompter.2 ++ record ∧
    ∀ q e, w.files.get? q = some e → w'.files.get? q ≠ some e →
      w'.files.locate target = .ok q ∧ overrideYes target ∈ record

variable {p : Prompter σ} {top target : FilePath} {options : Options} {style : Style}
  {w w' w'' : Workplace (σ × List Exchange)} {event branch : String}

/-- Where everything is kept and nothing is said, there is nothing to agree to. -/
theorem ReplacesWithYes.of_keeps (hfiles : w.files.Keeps w'.files)
    (hsilent : w'.prompter = w.prompter) : ReplacesWithYes target w w' := by
  refine ⟨[], by rw [hsilent, List.append_nil], fun q e he hne => ?_⟩
  exact absurd (hfiles.get?_eq q e he) hne

/-- Steps that keep everything may come first. -/
theorem ReplacesWithYes.of_keeps_of (hfiles : w.files.Keeps w'.files)
    (hsilent : w'.prompter = w.prompter) (h : ReplacesWithYes target w' w'') :
    ReplacesWithYes target w w'' := by
  obtain ⟨record, hrecord, hreplaced⟩ := h.exists_record
  exact ⟨record, by
    rw [hrecord, hsilent], fun q e he hne => hreplaced q e (hfiles.get?_eq q e he) hne⟩

/-- Writing the run says nothing to the prompter, and leaves the files or writes the one file. -/
theorem writeRun_leaves (w : Workplace (σ × List Exchange)) (top target relative : FilePath)
    (event branch : String) (style : Style) :
    let v := (Work.from w (writeRun top target relative event branch style)).2
    v.prompter = w.prompter ∧
      (v.files = w.files ∨ w.files.write target (Starter.text top.name event branch) =
        .ok v.files) := by
  unfold writeRun
  rw [Work.from_get_bind]
  cases hwrite : w.files.write target (Starter.text top.name event branch) with
  | error fault => exact ⟨rfl, Or.inl rfl⟩
  | ok files => exact ⟨rfl, Or.inr rfl⟩

/-- Asking for a yes or no puts the question and its answer on record. -/
theorem from_agree_recorded (p : Prompter σ) (w : Workplace (σ × List Exchange))
    (hyes : options.yes = false) (message : String) (default : Bool) :
    ∃ answer v, Work.from w (agree p.recorded options message default) = (answer, v) ∧
      v.files = w.files ∧
      v.prompter.2 = w.prompter.2 ++ [.confirm message default answer] := by
  unfold agree
  rw [hyes, if_neg Bool.false_ne_true, Work.from_question]
  exact ⟨_, _, rfl, rfl, rfl⟩

/-- A file may be put where nothing is; otherwise there is a question. -/
theorem from_mayPut_recorded (p : Prompter σ) (w : Workplace (σ × List Exchange))
    (hyes : options.yes = false) (target : FilePath) :
    (w.files.isPresent target = false ∧
      Work.from w (mayPut p.recorded options target) = (.ok true, w)) ∨
      ∃ answer v, Work.from w (mayPut p.recorded options target) = (answer, v) ∧ v.files = w.files ∧
        v.prompter.2 = w.prompter.2 ++ [.confirm (overrideQuestion target) false answer] := by
  unfold mayPut
  rw [Work.from_get_bind]
  cases hpresent : w.files.isPresent target with
  | true => exact Or.inr (from_agree_recorded p w hyes _ _)
  | false => exact Or.inl ⟨rfl, rfl⟩

/-- The run is put into its file: what is there already is replaced with a yes only. -/
theorem replacesWithYes_settle (p : Prompter σ) (style : Style) (w : Workplace (σ × List Exchange))
    (hyes : options.yes = false) :
    ReplacesWithYes target w
      (Work.from w (settle p.recorded options style top target event branch)).2 := by
  -- Whether or not there was a question, what follows is to write the run, or nothing.
  have hwritten (v : Workplace (σ × List Exchange)) : (Work.from v (do
      writeRun top target (Starter.path ⟨"", []⟩ event) event branch style
      return some target)).2 =
        (Work.from v (writeRun top target (Starter.path ⟨"", []⟩ event) event branch style)).2 :=
    Work.from_bind_pure v _ _
  unfold settle
  rcases from_mayPut_recorded p w hyes target with
    ⟨hfree, hmay⟩ | ⟨answer, v, hmay, hfiles, hrecord⟩
  · rw [Work.from_bind_of_ok hmay, if_pos rfl, hwritten]
    obtain ⟨hsilent, hfiles⟩ :=
      writeRun_leaves w top target (Starter.path ⟨"", []⟩ event) event branch style
    refine .of_keeps ?_ hsilent
    rcases hfiles with hsame | hwrite
    · rw [hsame]
      exact .refl _
    · exact .write hfree hwrite
  have hkept : w.files.Keeps v.files := hfiles ▸ .refl _
  cases answer with
  | error e =>
    rw [Work.from_bind_of_error hmay]
    exact ⟨_, hrecord, fun q e he hne => absurd (hkept.get?_eq q e he) hne⟩
  | ok may =>
    rw [Work.from_bind_of_ok hmay]
    cases may with
    | false =>
      rw [if_neg Bool.false_ne_true]
      exact ⟨_, hrecord, fun q e he hne => absurd (hkept.get?_eq q e he) hne⟩
    | true =>
      rw [if_pos rfl, hwritten]
      obtain ⟨hsilent, hwrite⟩ :=
        writeRun_leaves v top target (Starter.path ⟨"", []⟩ event) event branch style
      refine ⟨_, (congrArg Prod.snd hsilent).trans hrecord,
        fun q e he hne => ⟨?_, List.mem_singleton.mpr rfl⟩⟩
      -- The yes is on record; it is left to see that the change is where the path leads.
      have hq : v.files.get? q = some e := hkept.get?_eq q e he
      rcases hwrite with hsame | hwrite
      · rw [hsame] at hne
        exact absurd hq hne
      · obtain ⟨place, -, hlocate, hothers⟩ := FileTree.exists_of_write hwrite
        by_cases hplace : q = place
        · rw [hplace, hlocate]
        · rw [hothers q hplace] at hne
          exact absurd hq hne

/-- What is done once the user has agreed to it: directories first, then the file. -/
theorem replacesWithYes_carryOut (p : Prompter σ) (style : Style)
    (w : Workplace (σ × List Exchange)) (hyes : options.yes = false) :
    ReplacesWithYes (Starter.path top event) w
      (Work.from w (carryOut p.recorded options style top event branch)).2 := by
  unfold carryOut
  rcases from_ensureDirectory_cases w (Starter.path top event).parent style with
    ⟨-, hfrom⟩ | ⟨f, hfrom⟩ | ⟨files, out, -, hmake, hfrom⟩
  · rw [Work.from_bind_of_ok hfrom]
    exact replacesWithYes_settle p style w hyes
  · rw [Work.from_bind_of_error hfrom]
    exact .of_keeps (.refl _) rfl
  · rw [Work.from_bind_of_ok hfrom]
    have hmade : w.files.Keeps files := .makeDirectories hmake
    generalize hnow : ({ w with files := files, out := out } : Workplace (σ × List Exchange)) = now
    have hfiles : now.files = files := by rw [← hnow]
    have hsilent : now.prompter = w.prompter := by rw [← hnow]
    exact .of_keeps_of (hfiles ▸ hmade) hsilent (replacesWithYes_settle p style now hyes)

/-- Between two workplaces, nothing was changed, or the record of the time between holds a yes to
the creation of a file, and nothing that stood somewhere was replaced unless the path of that file
leads there and the record holds a later yes to replacing it. -/
structure ChangesWithYes (top : FilePath) (w w' : Workplace (σ × List Exchange)) : Prop where
  exists_record : ∃ record, w'.prompter.2 = w.prompter.2 ++ record ∧
    (w'.files = w.files ∨ ∃ event earlier later, record = earlier ++ creationYes event :: later ∧
      ∀ q e, w.files.get? q = some e → w'.files.get? q ≠ some e →
        w'.files.locate (Starter.path top event) = .ok q ∧
        overrideYes (Starter.path top event) ∈ later)

theorem changesWithYes_create (p : Prompter σ) (top : FilePath) (hyes : options.yes = false)
    (style : Style) (w : Workplace (σ × List Exchange)) :
    ChangesWithYes top w (Work.from w (create p.recorded top options style)).2 := by
  rw [create_eq]
  refine ⟨?_⟩
  -- Up to the question whether the file is wanted, nothing but a dialogue has taken place.
  have hchoice := onlyAsked_choose p.recorded w options
  rcases Work.from_bind_cases w (choose p.recorded options) _ with
    ⟨e, v, hchoose, hall⟩ | ⟨⟨chosen, place⟩, v, hchoose, hall⟩
  · rw [hchoose] at hchoice
    rw [hall]
    obtain ⟨text, htalk, -⟩ := hchoice.dialogue
    obtain ⟨record, hrecord⟩ := htalk.exists_record
    exact ⟨record, hrecord, Or.inl hchoice.files_eq⟩
  rw [hchoose] at hchoice
  obtain ⟨text, htalk, -⟩ := hchoice.dialogue
  obtain ⟨earlier, hearlier⟩ := htalk.exists_record
  obtain ⟨answer, v', hagree, hfiles, hrecord⟩ := from_agree_recorded p v hyes
    (creationQuestion (Starter.path ⟨"", []⟩ chosen)) true
  have hrecord : v'.prompter.2 = w.prompter.2 ++ (earlier ++
      [.confirm (creationQuestion (Starter.path ⟨"", []⟩ chosen)) true answer]) := by
    rw [hrecord, hearlier, List.append_assoc]
  have hsame : v'.files = w.files := hfiles.trans hchoice.files_eq
  rw [hall]
  dsimp only
  cases answer with
  | error e =>
    rw [Work.from_bind_of_error hagree]
    exact ⟨_, hrecord, Or.inl hsame⟩
  | ok wanted =>
    rw [Work.from_bind_of_ok hagree]
    cases wanted with
    | false =>
      rw [if_neg Bool.false_ne_true]
      exact ⟨_, hrecord, Or.inl hsame⟩
    | true =>
      rw [if_pos rfl]
      have hdone : ReplacesWithYes (Starter.path top chosen) v'
          (Work.from v' (carryOut p.recorded options style top chosen place)).2 :=
        replacesWithYes_carryOut p style v' hyes
      obtain ⟨later, hlater, hreplaced⟩ := hdone.exists_record
      rw [hsame] at hreplaced
      refine ⟨earlier ++ creationYes chosen :: later, ?_,
        Or.inr ⟨chosen, earlier, later, rfl, hreplaced⟩⟩
      rw [hlater, hrecord]
      simp only [List.append_assoc, List.singleton_append, creationYes]

/-- **Nothing without a yes.** A generation without `--yes` is the same with its conversation on
record. The record shows a yes to the question whether the file is wanted wherever anything has
changed, and, after that one, a yes to the question that names the target wherever the target was
there and is not what it was. At the console a yes is the first line that decides, if that line says
so; an input without a line that decides says neither. -/
theorem create_with_consent (p : Prompter σ) (top : FilePath) (event branch : OptionValue)
    (style : Style) (w : Workplace (σ × List Exchange)) :
    (∃ result after,
      Work.from w (create p.recorded top (.asking event branch) style) = (result, after) ∧
      Work.from w.unrecorded (create p top (.asking event branch) style) =
        (result, after.unrecorded) ∧
      ChangesWithYes top w after) ∧
    ∀ message default lines,
      ((Prompter.console.confirm message default lines).answer = .ok true ↔
        ∃ rejected line rest, lines = rejected ++ line :: rest ∧
          (∀ l ∈ rejected, ¬ Console.Decides l) ∧
          Console.SaysYes default line) ∧
      ((∀ l ∈ lines, ¬ Console.Decides l) →
        (Prompter.console.confirm message default lines).answer = .error .endOfInput) := by
  have hyes : (Options.asking event branch).yes = false := rfl
  constructor
  · exact ⟨_, _, rfl, mirrors_create p _ style top w, changesWithYes_create p top hyes style w⟩
  · intro message default lines
    exact ⟨Console.answer_confirm_eq_yes_iff, Console.answer_confirm_of_undecided⟩

end Generate

end PipelineRuns
