import PipelineRuns.Generate
import PipelineRuns.Proofs.Actions

/-!
# Work and questions step by step

What a computation at a workplace gives from a given workplace (`Work.from`), for each of the ways
in which such computations are put together. A run of two parts in turn is taken apart by
`Work.from_bind_cases`. Where the result does not matter but only why there is none, the reasons are
collected in the same way (`Work.FailsOnly`).

Much of the work is asking. A `Prompter.Dialogue` is a sequence of questions to a prompter: it leads
from one state of the prompter to another, and a text is shown meanwhile. `Work.OnlyAsked` says that
nothing but a dialogue lies between two workplaces; this holds of every question of a generation,
whatever the answer.
-/

namespace PipelineRuns

variable {σ α β : Type}

/-- The result of a computation, and the workplace that it leaves behind. -/
def Work.from (w : Workplace σ) (a : Work σ α) : Except Failure α × Workplace σ :=
  StateT.run (ExceptT.run a) w

/-! ### Dialogues -/

/-- What is shown to the user in a turn. -/
def Turn.shown (t : Turn σ α) : String :=
  String.join (t.said.map Utterance.shown)

/-- Questions put to a prompter one after the other lead it from one state to another; the text is
what is shown meanwhile. -/
inductive Prompter.Dialogue (p : Prompter σ) : σ → String → σ → Prop
  | silent (s : σ) : p.Dialogue s "" s
  | select {s s' : σ} {text : String} (before : p.Dialogue s text s') (message : String)
      (options : List String) (default : String) :
      p.Dialogue s (text ++ (p.select message options default s').shown)
        (p.select message options default s').state
  | ask {s s' : σ} {text : String} (before : p.Dialogue s text s') (message : String) :
      p.Dialogue s (text ++ (p.ask message s').shown) (p.ask message s').state
  | confirm {s s' : σ} {text : String} (before : p.Dialogue s text s') (message : String)
      (default : Bool) :
      p.Dialogue s (text ++ (p.confirm message default s').shown)
      (p.confirm message default s').state

theorem Prompter.Dialogue.trans {p : Prompter σ} {s s' s'' : σ} {text text' : String}
    (h : p.Dialogue s text s') (h' : p.Dialogue s' text' s'') :
    p.Dialogue s (text ++ text') s'' := by
  -- On the later dialogue: its questions are put after those of the earlier one, one by one.
  induction h' with
  | silent =>
    rw [String.append_empty]
    exact h
  | select _ message options default ih =>
    rw [← String.append_assoc]
    exact .select ih message options default
  | ask _ message ih =>
    rw [← String.append_assoc]
    exact .ask ih message
  | confirm _ message default ih =>
    rw [← String.append_assoc]
    exact .confirm ih message default

namespace Work

/-! ### Equations -/

@[simp] theorem from_pure (w : Workplace σ) (a : α) :
    Work.from w (pure a : Work σ α) = (.ok a, w) := rfl

@[simp] theorem from_throw (w : Workplace σ) (f : Failure) :
    Work.from w (throw f : Work σ α) = (.error f, w) := rfl

@[simp] theorem from_ofExcept (w : Workplace σ) (r : Except Failure α) :
    Work.from w (ofExcept r) = (r, w) := by
  cases r with
  | ok a => rfl
  | error f => rfl

theorem from_get_bind (w : Workplace σ) (f : Workplace σ → Work σ α) :
    Work.from w (get >>= f) = Work.from w (f w) := rfl

/-- The second of two computations starts where the first one ended, and only if that gave a
result. -/
theorem from_bind (w : Workplace σ) (a : Work σ α) (f : α → Work σ β) :
    Work.from w (a >>= f) =
      match Work.from w a with
      | (.ok x, w') => Work.from w' (f x)
      | (.error e, w') => (.error e, w') := by
  unfold Work.from
  simp only [ExceptT.run_bind, StateT.run_bind]
  cases h : StateT.run (ExceptT.run a) w with
  | mk r after =>
    cases r with
    | ok x => rfl
    | error e => rfl

/-- A run of two computations in turn failed in the first, or is a run of the second where the first
one ended. -/
theorem from_bind_cases (w : Workplace σ) (a : Work σ α) (f : α → Work σ β) :
    (∃ e w', Work.from w a = (.error e, w') ∧ Work.from w (a >>= f) = (.error e, w')) ∨
      ∃ x w', Work.from w a = (.ok x, w') ∧ Work.from w (a >>= f) = Work.from w' (f x) := by
  cases h : Work.from w a with
  | mk r w' =>
    cases r with
    | error e => exact Or.inl ⟨e, w', rfl, by rw [from_bind, h]⟩
    | ok x => exact Or.inr ⟨x, w', rfl, by rw [from_bind, h]⟩

theorem from_bind_of_ok {w w' : Workplace σ} {a : Work σ α} {f : α → Work σ β} {x : α}
    (h : Work.from w a = (.ok x, w')) : Work.from w (a >>= f) = Work.from w' (f x) := by
  rw [from_bind, h]

theorem from_bind_of_error {w w' : Workplace σ} {a : Work σ α} {f : α → Work σ β} {e : Failure}
    (h : Work.from w a = (.error e, w')) : Work.from w (a >>= f) = (.error e, w') := by
  rw [from_bind, h]

/-- A result of two computations in turn comes from a result of the first. -/
theorem exists_of_from_bind_eq_ok {w w'' : Workplace σ} {a : Work σ α} {f : α → Work σ β} {y : β}
    (h : Work.from w (a >>= f) = (.ok y, w'')) :
    ∃ x w', Work.from w a = (.ok x, w') ∧ Work.from w' (f x) = (.ok y, w'') := by
  rcases from_bind_cases w a f with ⟨e, w', hfirst, hall⟩ | ⟨x, w', hfirst, hall⟩
  · exact nomatch h.symm.trans hall
  · exact ⟨x, w', hfirst, hall.symm.trans h⟩

/-- A question changes the state of the prompter and adds to what is shown. -/
theorem from_question (w : Workplace σ) (put : σ → Turn σ α) :
    Work.from w (question put) =
      ((put w.prompter).answer,
        { w with prompter := (put w.prompter).state, out := w.out ++ (put w.prompter).shown }) := by
  unfold question Turn.shown
  cases h : (put w.prompter).answer with
  | ok a =>
    change Work.from _ (ofExcept (put w.prompter).answer) = _
    rw [from_ofExcept, h]
  | error f =>
    change Work.from _ (ofExcept (put w.prompter).answer) = _
    rw [from_ofExcept, h]

/-- A handler takes over where the first computation fails, at the workplace that it leaves
behind. -/
theorem from_tryCatch (w : Workplace σ) (a : Work σ α) (handler : Failure → Work σ α) :
    Work.from w (tryCatch a handler) =
      match Work.from w a with
      | (.ok x, w') => (.ok x, w')
      | (.error e, w') => Work.from w' (handler e) := by
  change StateT.run (ExceptT.run (ExceptT.tryCatch a handler)) w = _
  unfold Work.from ExceptT.tryCatch
  simp only [ExceptT.run_mk, StateT.run_bind]
  change (StateT.run (ExceptT.run a) w >>= _ : Id _) = _
  cases StateT.run (ExceptT.run a) w with
  | mk r w' =>
    cases r with
    | ok x => rfl
    | error e => rfl

/-- An action has its result at a workplace, and its effects are added there. -/
theorem from_act (w : Workplace σ) (a : Action α) :
    Work.from w (act a) = ((a.from w.effects).1, { w with effects := (a.from w.effects).2 }) := by
  change Work.from _ (Work.ofExcept (a.from w.effects).1) = _
  rw [from_ofExcept]
  rfl

/-! ### Reasons to fail -/

/-- The reasons for which a computation can fail, at any workplace. -/
def FailsOnly (P : Failure → Prop) (a : Work σ α) : Prop :=
  ∀ w, PipelineRuns.FailsOnly P (Work.from w a).1

namespace FailsOnly

variable {P : Failure → Prop} {a : Work σ α} {f : α → Work σ β}

theorem pure (x : α) : FailsOnly P (pure x : Work σ α) := fun _ => .ok x

theorem throw {e : Failure} (h : P e) : FailsOnly P (throw e : Work σ α) := fun _ => .error h

theorem ofExcept {r : Except Failure α} (h : PipelineRuns.FailsOnly P r) :
    FailsOnly P (ofExcept r : Work σ α) := by
  intro w
  rw [from_ofExcept]
  exact h

theorem question {put : σ → Turn σ α} (h : ∀ s, PipelineRuns.FailsOnly P (put s).answer) :
    FailsOnly P (question put) := by
  intro w
  rw [from_question]
  exact h w.prompter

theorem bind (ha : FailsOnly P a) (hf : ∀ x, FailsOnly P (f x)) : FailsOnly P (a >>= f) := by
  intro w
  rcases from_bind_cases w a f with ⟨e, w', hfirst, hall⟩ | ⟨x, w', hfirst, hall⟩
  · have he : P e := ha w e (by rw [hfirst])
    rw [hall]
    exact .error he
  · rw [hall]
    exact hf x w'

theorem get_bind {f : Workplace σ → Work σ β} (h : ∀ w, FailsOnly P (f w)) :
    FailsOnly P (get >>= f) := by
  intro w
  rw [from_get_bind]
  exact h w w

end FailsOnly

/-! ### Nothing but questions -/

/-- Between two workplaces there was nothing but a dialogue, whose text is all that was written. -/
structure OnlyAsked (p : Prompter σ) (w w' : Workplace σ) : Prop where
  files_eq : w'.files = w.files
  effects_eq : w'.effects = w.effects
  dialogue : ∃ text, p.Dialogue w.prompter text w'.prompter ∧ w'.out = w.out ++ text

namespace OnlyAsked

variable {p : Prompter σ} {w w' w'' : Workplace σ}

theorem refl (p : Prompter σ) (w : Workplace σ) : OnlyAsked p w w :=
  ⟨rfl, rfl, "", .silent _, String.append_empty.symm⟩

theorem trans (h : OnlyAsked p w w') (h' : OnlyAsked p w' w'') : OnlyAsked p w w'' := by
  obtain ⟨text, htalk, hout⟩ := h.dialogue
  obtain ⟨text', htalk', hout'⟩ := h'.dialogue
  exact ⟨h'.files_eq.trans h.files_eq, h'.effects_eq.trans h.effects_eq, text ++ text',
    htalk.trans htalk', by rw [hout', hout, String.append_assoc]⟩

/-- One question after an `OnlyAsked` computation. -/
theorem of_question {put : σ → Turn σ α}
    (hput : p.Dialogue w.prompter ("" ++ (put w.prompter).shown) (put w.prompter).state) :
    OnlyAsked p w (Work.from w (question put)).2 := by
  rw [from_question]
  rw [String.empty_append] at hput
  exact ⟨rfl, rfl, _, hput, rfl⟩

/-- Computations that only ask, one after the other. -/
theorem bind {a : Work σ α} {f : α → Work σ β} (ha : OnlyAsked p w (Work.from w a).2)
    (hf : ∀ x w', OnlyAsked p w' (Work.from w' (f x)).2) :
    OnlyAsked p w (Work.from w (a >>= f)).2 := by
  -- A failure in the first part ends the dialogue there.
  rcases from_bind_cases w a f with ⟨e, w', hfirst, hall⟩ | ⟨x, w', hfirst, hall⟩
  · rw [hfirst] at ha
    rwa [hall]
  · rw [hfirst] at ha
    rw [hall]
    exact ha.trans (hf x w')

end OnlyAsked

end Work

/-! ### The questions of a generation -/

namespace Generate

variable (p : Prompter σ) (w : Workplace σ)

theorem onlyAsked_askEvent : Work.OnlyAsked p w (Work.from w (askEvent p)).2 := by
  refine .bind (.of_question (.select (.silent _) _ _ _)) (fun title w' => ?_)
  rw [Work.from_ofExcept]
  exact .refl p w'

/-- The choice of an event only asks. -/
theorem onlyAsked_chooseEvent (given : OptionValue) :
    Work.OnlyAsked p w (Work.from w (chooseEvent p given)).2 := by
  cases given with
  | absent => exact onlyAsked_askEvent p w
  | blank => exact .refl p w
  | text event =>
    rw [chooseEvent]
    split
    · exact .refl p w
    · exact .refl p w

/-- The choice of a branch only asks. -/
theorem onlyAsked_chooseBranch (event : String) (given : OptionValue) :
    Work.OnlyAsked p w (Work.from w (chooseBranch p event given)).2 := by
  unfold chooseBranch
  split
  · exact .bind (.of_question (.ask (.silent _) _)) (fun answer w' => .refl p w')
  · exact .refl p w

/-- A question for consent only asks. -/
theorem onlyAsked_agree (options : Options) (message : String) (default : Bool) :
    Work.OnlyAsked p w (Work.from w (agree p options message default)).2 := by
  unfold agree
  split
  · exact .refl p w
  · exact .of_question (.confirm (.silent _) _ _)

end Generate

end PipelineRuns
