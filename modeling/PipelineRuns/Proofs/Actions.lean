import PipelineRuns.Action

/-!
# Actions step by step

What an action gives from given effects, for each of the ways in which actions are put together.
With these equations an action is followed from its start to its end without looking at how actions
are made. A computation without effects is followed backwards, from its result
(`exists_of_bind_eq_ok`).

Most actions that read something do no more than note what they find (`Action.OnlyNotes`). Such an
action has one result (`Action.result`), whatever was done before it.

A computation that fails may do so for some reasons only (`FailsOnly`, `Action.FailsOnly`); one that
is put together from others has no reasons but theirs.
-/

namespace PipelineRuns

variable {α β : Type}

/-- A result of two computations in turn comes from a result of the first. -/
theorem exists_of_bind_eq_ok {x : Except Failure α} {f : α → Except Failure β} {b : β}
    (h : x >>= f = .ok b) : ∃ a, x = .ok a ∧ f a = .ok b := by
  cases x with
  | ok a => exact ⟨a, rfl, h⟩
  | error e => exact nomatch h

theorem bind_eq_ok_iff {x : Except Failure α} {f : α → Except Failure β} {b : β} :
    x >>= f = .ok b ↔ ∃ a, x = .ok a ∧ f a = .ok b := by
  refine ⟨exists_of_bind_eq_ok, ?_⟩
  rintro ⟨a, rfl, h⟩
  exact h

theorem eq_ok_of_toOption {x : Except Failure α} {a : α} (h : x.toOption = some a) : x = .ok a := by
  cases x with
  | ok b => exact congrArg Except.ok (Option.some.inj h)
  | error e => exact nomatch h

/-! ### Reasons to fail -/

/-- If there is no result, then for a reason of this kind. -/
def FailsOnly (P : Failure → Prop) (x : Except Failure α) : Prop :=
  ∀ f, x = .error f → P f

namespace FailsOnly

variable {P : Failure → Prop}

theorem ok (a : α) : FailsOnly P (.ok a : Except Failure α) := fun _ h => nomatch h

theorem error {f : Failure} (h : P f) : FailsOnly P (.error f : Except Failure α) := by
  intro g hg
  rw [← Except.error.inj hg]
  exact h

theorem bind {x : Except Failure α} {g : α → Except Failure β} (hx : FailsOnly P x)
    (hg : ∀ a, FailsOnly P (g a)) : FailsOnly P (x >>= g) := by
  cases x with
  | ok a => exact hg a
  | error f => exact error (hx f rfl)

end FailsOnly

/-! ### Equations -/

namespace Action

@[simp] theorem from_pure (a : α) (before : Effects) :
    Action.from before (pure a) = (.ok a, before) := rfl

/-- The second of two actions starts from the effects of the first, and only if that gives a
result. -/
theorem from_bind (a : Action α) (f : α → Action β) (before : Effects) :
    Action.from before (a >>= f) =
      match Action.from before a with
      | (.ok x, after) => Action.from after (f x)
      | (.error e, after) => (.error e, after) := by
  unfold Action.from
  simp only [ExceptT.run_bind, StateT.run_bind]
  cases h : StateT.run (ExceptT.run a) before with
  | mk r after =>
    cases r with
    | ok x => rfl
    | error e => rfl

/-- A result of two actions in turn comes from a result of the first. -/
theorem exists_of_from_bind {a : Action α} {f : α → Action β} {before : Effects} {y : β}
    (h : (Action.from before (a >>= f)).1 = .ok y) :
    ∃ x after, Action.from before a = (.ok x, after) ∧ (Action.from after (f x)).1 = .ok y := by
  rw [from_bind] at h
  cases hfirst : Action.from before a with
  | mk r after =>
    rw [hfirst] at h
    cases r with
    | ok x => exact ⟨x, after, rfl, h⟩
    | error e => exact nomatch h

/-- A result without effects leaves the effects as they are. -/
@[simp] theorem from_lift (x : Except Failure α) (before : Effects) :
    Action.from before (liftM x : Action α) = (x, before) := rfl

@[simp] theorem from_throw (f : Failure) (before : Effects) :
    Action.from before (throw f : Action α) = (.error f, before) := rfl

@[simp] theorem from_note (r : Record) (before : Effects) :
    Action.from before (note r) = (.ok (), { before with journal := before.journal ++ [r] }) := rfl

@[simp] theorem from_noteAll (records : List Record) (before : Effects) :
    Action.from before (noteAll records) =
      (.ok (), { before with journal := before.journal ++ records }) := rfl

@[simp] theorem from_send (r : Request) (before : Effects) :
    Action.from before (send r) = (.ok (), { before with requests := before.requests ++ [r] }) :=
  rfl

/-- A handler takes over where the first action fails, from the effects of that. -/
theorem from_tryCatch (a : Action α) (handler : Failure → Action α) (before : Effects) :
    Action.from before (tryCatch a handler) =
      match Action.from before a with
      | (.ok x, after) => (.ok x, after)
      | (.error f, after) => Action.from after (handler f) := by
  change StateT.run (ExceptT.run (ExceptT.tryCatch a handler)) before = _
  unfold Action.from ExceptT.tryCatch
  simp only [ExceptT.run_mk, StateT.run_bind]
  change (StateT.run (ExceptT.run a) before >>= _ : Id _) = _
  cases StateT.run (ExceptT.run a) before with
  | mk r after =>
    cases r with
    | ok x => rfl
    | error f => rfl

/-- The reasons for which an action can fail, whatever was done before it. -/
def FailsOnly (P : Failure → Prop) (a : Action α) : Prop :=
  ∀ before, PipelineRuns.FailsOnly P (Action.from before a).1

namespace FailsOnly

variable {P : Failure → Prop} {a : Action α} {f : α → Action β}

theorem pure (a : α) : FailsOnly P (pure a : Action α) := fun _ => .ok a

theorem throw {f : Failure} (h : P f) : FailsOnly P (throw f : Action α) := fun _ => .error h

theorem lift {x : Except Failure α} (h : PipelineRuns.FailsOnly P x) :
    FailsOnly P (liftM x : Action α) := fun _ => h

theorem note (r : Record) : FailsOnly P (note r) := fun _ => .ok ()

theorem bind (ha : FailsOnly P a) (hf : ∀ x, FailsOnly P (f x)) : FailsOnly P (a >>= f) := by
  intro before
  rw [from_bind]
  have hfirst := ha before
  cases hresult : Action.from before a with
  | mk r after =>
    rw [hresult] at hfirst
    cases r with
    | ok x => exact hf x after
    | error e => exact .error (hfirst e rfl)

end FailsOnly

/-! ### Actions that only note -/

/-- The result of an action without any effects before it. -/
def result (a : Action α) : Except Failure α :=
  a.execute.1

@[simp] theorem result_pure (a : α) : (pure a : Action α).result = .ok a := rfl

@[simp] theorem result_throw (f : Failure) : (throw f : Action α).result = .error f := rfl

@[simp] theorem result_lift (x : Except Failure α) : (liftM x : Action α).result = x := rfl

/-- A result without effects decides whether the next action is done. -/
theorem result_lift_bind (x : Except Failure α) (f : α → Action β) :
    ((liftM x : Action α) >>= f).result = x >>= fun a => (f a).result := by
  cases x with
  | ok a => rfl
  | error e => rfl

/-- What follows a result without effects matters for that result only. -/
theorem lift_bind_congr {x : Except Failure α} {f g : α → Action β}
    (h : ∀ a, x = .ok a → f a = g a) : (liftM x : Action α) >>= f = (liftM x : Action α) >>= g := by
  cases x with
  | ok a => exact h a rfl
  | error e => rfl

/-- From any effects the result is the same, and records are all that is added to the effects. -/
def OnlyNotes (a : Action α) : Prop :=
  ∀ before, ∃ records, Action.from before a =
    (a.result, { before with journal := before.journal ++ records })

namespace OnlyNotes

theorem pure (a : α) : OnlyNotes (pure a : Action α) := fun before => ⟨[], by simp⟩

theorem throw (f : Failure) : OnlyNotes (throw f : Action α) := fun before => ⟨[], by simp⟩

theorem lift (x : Except Failure α) : OnlyNotes (liftM x : Action α) := fun before => ⟨[], by simp⟩

theorem note (r : Record) : OnlyNotes (note r) := fun _ => ⟨[r], rfl⟩

variable {a : Action α} {f : α → Action β}

theorem from_fst (ha : OnlyNotes a) (before : Effects) : (Action.from before a).1 = a.result := by
  obtain ⟨records, h⟩ := ha before
  rw [h]

/-- What the second action does is decided by the result of the first one alone. -/
theorem result_bind (ha : OnlyNotes a) (hf : ∀ x, OnlyNotes (f x)) :
    (a >>= f).result = a.result >>= fun x => (f x).result := by
  obtain ⟨records, hfirst⟩ := ha {}
  change (Action.from {} (a >>= f)).1 = _
  rw [from_bind, hfirst]
  cases a.result with
  | error e => rfl
  | ok x =>
    obtain ⟨later, hsecond⟩ :=
      hf x { ({} : Effects) with journal := ({} : Effects).journal ++ records }
    change (Action.from _ (f x)).1 = (f x).result
    rw [hsecond]

theorem bind (ha : OnlyNotes a) (hf : ∀ x, OnlyNotes (f x)) : OnlyNotes (a >>= f) := by
  intro before
  obtain ⟨records, hfirst⟩ := ha before
  rw [from_bind, hfirst, result_bind ha hf]
  cases a.result with
  | error e => exact ⟨records, rfl⟩
  | ok x =>
    obtain ⟨later, hsecond⟩ := hf x { before with journal := before.journal ++ records }
    exact ⟨records ++ later, by rw [← List.append_assoc]; exact hsecond⟩

/-- What follows matters for the result of the first action only. -/
theorem from_bind_congr {g : α → Action β} (ha : OnlyNotes a)
    (h : ∀ x, a.result = .ok x → f x = g x) (before : Effects) :
    Action.from before (a >>= f) = Action.from before (a >>= g) := by
  obtain ⟨records, hfirst⟩ := ha before
  rw [from_bind, from_bind, hfirst]
  cases hresult : a.result with
  | error e => rfl
  | ok x => exact congrArg (Action.from _) (h x hresult)

end OnlyNotes

end Action

end PipelineRuns
