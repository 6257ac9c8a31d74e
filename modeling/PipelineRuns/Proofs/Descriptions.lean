import PipelineRuns.Program
import PipelineRuns.Proofs.Namespaces

/-!
# A whole report or none

Everything of a description that can fail is done when the Repository is fetched
(`Describe.fetched`). What follows depends on the result of that alone: a Repository gives its
report and exit code 0, a failed fetch gives its text and exit code 1, and every other failure goes
on (`Describe.conclude`). This is so for a source that the command is handed
(`Describe.from_runWith`) and for one that it opens by itself (`Describe.from_runFrom`), since
closing a source never fails (`Source.Closes`). The look-up of the namespace comes before the
handler of failed fetches, but it never fails as a fetch does, so it is as if the handler were
around it as well (`Describe.from_current_bind`).

The program then makes an exit code of every failure that is left, and prints the outcome's report
as it is.

Main statement: `Describe.concluded`.
-/

namespace PipelineRuns

variable {α : Type}

namespace Source

/-- Closing this source gives no failure. -/
def Closes (source : Source) : Prop :=
  ∀ before, (Action.from before source.close).1 = .ok ()

/-- Whatever source an action opens, closing it gives no failure. -/
def OpensClosable (opened : Action Source) : Prop :=
  ∀ before source, (Action.from before opened).1 = .ok source → source.Closes

theorem closes_ofShelf (shelf : Shelf) : (ofShelf shelf).Closes := fun _ => rfl

theorem closes_ofClient (client : Client) (wire : Wire) : (ofClient client wire).Closes := by
  intro before
  unfold ofClient Client.close
  cases client.temporary with
  | none => rfl
  | some number => rfl

end Source

namespace Describe

variable {host : Host} {captured : Environment} {settings : Settings} {options : Options}
  {wire : Wire} {now : Moment} {style : Style} {before : Effects}

/-! ### The parts of a description -/

/-- What the command is doing. -/
def remark (name ns : String) : Record :=
  .debug "tknpac.cli.describe" ("Describing repository " ++ name ++ " in namespace " ++ ns)

/-- Fetches the Repository that is asked for. -/
def fetchFrom (source : Source) (name ambient override : String) : Action Repository := do
  note (remark name (Namespace.effective ambient override))
  source.fetch name (Namespace.effective ambient override)

/-- A report is the rendering of what was fetched. -/
theorem from_report (source : Source) (now : Moment) (name ambient override : String)
    (style : Style) (before : Effects) :
    (Action.from before (report source now name ambient override style)).1 =
      (Action.from before (fetchFrom source name ambient override)).1.map
        (Report.render · now style) := by
  unfold report fetchFrom remark
  simp only [Action.from_bind, Action.from_note]
  cases Action.from _ (source.fetch name (Namespace.effective ambient override)) with
  | mk r after =>
    cases r with
    | ok repo => rfl
    | error f => rfl

/-- What is opened without a failure is closed, whatever it was used for. -/
theorem from_useAndClose {opened : Action Source} (hopened : Source.OpensClosable opened)
    (use : Source → Action α) (before : Effects) :
    Action.from before (useAndClose opened use) =
      match Action.from before opened with
      | (.ok source, after) =>
        ((Action.from after (use source)).1,
          (Action.from (Action.from after (use source)).2 source.close).2)
      | (.error f, after) => (.error f, after) := by
  unfold useAndClose
  rw [Action.from_bind]
  cases hfirst : Action.from before opened with
  | mk r after =>
    cases r with
    | error f => rfl
    | ok source =>
      have hclose : source.Closes := hopened before source (by rw [hfirst])
      dsimp only
      rw [Action.from_bind, Action.from_tryCatch]
      cases Action.from after (use source) with
      | mk used later =>
        -- Closing comes once, either in the handler or after the use.
        cases hclosed : Action.from later source.close with
        | mk closing last =>
          obtain rfl : closing = .ok () := by rw [← hclose later, hclosed]
          cases used with
          | ok a => simp only [Action.from_bind, hclosed, Action.from_pure]
          | error f => simp only [Action.from_bind, hclosed, Action.from_throw]

/-- What a description makes of a fetch. -/
def conclude (now : Moment) (style : Style) : Except Failure Repository → Except Failure Outcome
  | .ok repo => .ok ⟨0, Report.render repo now style, ""⟩
  | .error (.fetch reason) => .ok ⟨1, "", "Error: " ++ reason.message ++ "\n"⟩
  | .error f => .error f

theorem conclude_fetch (reason : FetchFailure) :
    conclude now style (.error (.fetch reason)) =
      .ok ⟨1, "", "Error: " ++ reason.message ++ "\n"⟩ := rfl

theorem conclude_of_isNoFetch {f : Failure} (h : f.IsNoFetch) :
    conclude now style (.error f) = .error f := by
  cases f with
  | fetch reason => exact absurd rfl (h reason)
  | _ => rfl

/-- A report on a fetched Repository is an outcome, and so is a failed fetch. -/
theorem from_outcome {a : Action String} {r : Except Failure Repository}
    (h : (Action.from before a).1 = r.map (Report.render · now style)) :
    (Action.from before (outcome a)).1 = conclude now style r := by
  unfold outcome
  rw [Action.from_tryCatch, Action.from_bind]
  cases ha : Action.from before a with
  | mk text after =>
    rw [ha] at h
    obtain rfl : text = r.map (Report.render · now style) := h
    cases r with
    | ok repo => rfl
    | error f =>
      cases f with
      | fetch reason => rfl
      | _ => rfl

/-! ### A description as a whole -/

/-- From the look-up of the namespace to the fetched Repository: all of a description that can
fail. -/
def fetched (host : Host) (settings : Settings) (options : Options)
    (opened : String → Action Source) : Action Repository := do
  let ambient ← Namespace.current host settings.kube
  let source ← opened ambient
  fetchFrom source options.name ambient options.ns.orEmpty

/-- Whatever follows the look-up of the namespace and concludes a fetch concludes all of it. -/
theorem from_current_bind {opened : String → Action Source} {rest : String → Action Outcome}
    (hrest : ∀ ambient after, (Action.from after (rest ambient)).1 = conclude now style
      (Action.from after (opened ambient >>= fun source =>
        fetchFrom source options.name ambient options.ns.orEmpty)).1) (before : Effects) :
    (Action.from before (Namespace.current host settings.kube >>= rest)).1 =
      conclude now style (Action.from before (fetched host settings options opened)).1 := by
  have hnone := Namespace.failsOnly_current host settings.kube before
  unfold fetched
  rw [Action.from_bind, Action.from_bind]
  cases hcurrent : Action.from before (Namespace.current host settings.kube) with
  | mk r after =>
    cases r with
    | ok ambient => exact hrest ambient after
    | error f =>
      -- The handler is not reached, and it would not have caught this failure.
      rw [hcurrent] at hnone
      exact (conclude_of_isNoFetch (hnone f rfl)).symm

theorem from_runWith (host : Host) (settings : Settings) (options : Options) (source : Source)
    (now : Moment) (isTerminal : Bool) (before : Effects) :
    (Action.from before (runWith host settings options source now isTerminal)).1 =
      conclude now (selectStyle host.environment settings.display options.noColor isTerminal)
        (Action.from before (fetched host settings options (fun _ => pure source))).1 := by
  unfold runWith
  refine from_current_bind (fun ambient after => ?_) before
  exact from_outcome (from_report source now options.name ambient options.ns.orEmpty _ after)

/-- The command with a source that is opened for it, in any way. -/
def runFrom (host : Host) (settings : Settings) (options : Options)
    (opened : String → Action Source) (now : Moment) (isTerminal : Bool) : Action Outcome := do
  let ambient ← Namespace.current host settings.kube
  outcome (useAndClose (opened ambient) (fun source =>
    report source now options.name ambient options.ns.orEmpty
      (selectStyle host.environment settings.display options.noColor isTerminal)))

theorem from_runFrom {opened : String → Action Source}
    (hopened : ∀ ambient, Source.OpensClosable (opened ambient)) (host : Host) (settings : Settings)
    (options : Options) (now : Moment) (isTerminal : Bool) (before : Effects) :
    (Action.from before (runFrom host settings options opened now isTerminal)).1 =
      conclude now (selectStyle host.environment settings.display options.noColor isTerminal)
        (Action.from before (fetched host settings options opened)).1 := by
  unfold runFrom
  refine from_current_bind (fun ambient after => from_outcome ?_) before
  -- Closing the source gives no result of its own, so it is as if the source had been handed over.
  rw [from_useAndClose (hopened ambient), Action.from_bind]
  cases Action.from after (opened ambient) with
  | mk r later =>
    cases r with
    | error f => rfl
    | ok source => exact from_report source now options.name ambient options.ns.orEmpty _ later

/-- The sources that a description opens by itself can be closed. -/
theorem opensClosable_openSource (host : Host) (captured : Environment) (settings : Settings)
    (options : Options) (wire : Wire) (ambient : String) :
    Source.OpensClosable (openSource host captured settings options wire ambient) := by
  intro before source h
  unfold openSource at h
  cases hfile : options.file with
  | text path =>
    rw [hfile] at h
    obtain ⟨repos, after, -, hsource⟩ := Action.exists_of_from_bind h
    obtain rfl := Except.ok.inj hsource
    exact Source.closes_ofShelf _
  | blank =>
    -- A separator is no name of a manifest, so no source is opened.
    rw [hfile] at h
    exact nomatch h
  | absent =>
    rw [hfile] at h
    obtain ⟨client, after, -, hsource⟩ := Action.exists_of_from_bind h
    obtain rfl := Except.ok.inj hsource
    exact Source.closes_ofClient client wire

theorem from_run (host : Host) (captured : Environment) (settings : Settings) (options : Options)
    (wire : Wire) (now : Moment) (isTerminal : Bool) (before : Effects) :
    (Action.from before (run host captured settings options wire now isTerminal)).1 =
      conclude now (selectStyle host.environment settings.display options.noColor isTerminal)
        (Action.from before
          (fetched host settings options (openSource host captured settings options wire))).1 :=
  from_runFrom (opensClosable_openSource host captured settings options wire) host settings options
    now isTerminal before

end Describe

/-! ### The program -/

namespace Program

/-- A command line that leads to a description: it is read, the settings are loaded, the journal is
set up, and the arguments of the command are read. -/
structure Describes (s : Surroundings) (arguments : List String) (i : Invocation)
    (settings : Settings) (options : Describe.Options) : Prop where
  parsed : Invocation.parse arguments = .ok i
  command : i.command = .describe
  loaded : (Settings.load s.host i.configPath).settings = .ok settings
  setUp : (Handling.setup { time := s.time, reports := s.reports } settings.logging i.verbose).1 =
    .ok ()
  options : Describe.Options.parse i.rest = .ok options

variable {s : Surroundings} {arguments : List String} {i : Invocation} {settings : Settings}
  {options : Describe.Options}

theorem Describes.exists_run_eq (h : Describes s arguments i settings options) (w : Wording) :
    ∃ journal, run w s arguments = runDescribe w s s.host.environment settings journal options := by
  obtain ⟨hparsed, hcommand, hloaded, hsetUp, hoptions⟩ := h
  unfold run runCommand
  simp only [hparsed, hcommand, hloaded, hoptions]
  cases hsetup : Handling.setup { time := s.time, reports := s.reports } settings.logging
    i.verbose with
  | mk r journal =>
    rw [hsetup] at hsetUp
    obtain rfl : r = .ok () := hsetUp
    exact ⟨journal, rfl⟩

/-- The style of a report of the program. -/
def styleOf (s : Surroundings) (settings : Settings) (options : Describe.Options) : Style :=
  Describe.selectStyle s.host.environment settings.display options.noColor s.isTerminal

/-- What the program fetches for a description. -/
def fetched (s : Surroundings) (settings : Settings) (options : Describe.Options) :
    Except Failure Repository :=
  (Describe.fetched s.host settings options
    (Describe.openSource s.host s.host.environment settings options s.wire)).result

/-- A description that the program runs leaves a whole report and exit code 0, or nothing on the
output and another exit code. -/
theorem run_of_describes (h : Describes s arguments i settings options) (w : Wording) :
    (∀ repo, fetched s settings options = .ok repo → (run w s arguments).ending = .code 0 ∧
      (run w s arguments).out = Report.render repo s.now (styleOf s settings options)) ∧
    ∀ f, fetched s settings options = .error f →
      (run w s arguments).ending = .code (if f = .interrupted then 130 else 1) ∧
      (run w s arguments).out = "" := by
  obtain ⟨journal, hrun⟩ := h.exists_run_eq w
  have hresult :
      (Describe.run s.host s.host.environment settings options s.wire s.now
        s.isTerminal).execute.1 =
      Describe.conclude s.now (styleOf s settings options) (fetched s settings options) :=
    Describe.from_run s.host s.host.environment settings options s.wire s.now s.isTerminal {}
  rw [hrun]
  unfold runDescribe
  dsimp only
  rw [hresult]
  constructor
  · intro repo hrepo
    rw [hrepo]
    exact ⟨rfl, rfl⟩
  · intro f hf
    rw [hf]
    -- The report is not written where there is a failure, so the output is empty for each of them.
    cases f with
    | fetch reason => exact ⟨rfl, rfl⟩
    | interrupted => exact ⟨rfl, rfl⟩
    | _ => exact ⟨rfl, rfl⟩

end Program

namespace Describe

/-- **A whole report or none.** A description ends as its fetch does, be it from a source that it is
handed, from one that is opened for it in any way, or from one that it opens by itself: with exit
code 0 and the report, with exit code 1 and the text of a failed fetch, or with any other failure.
The program ends with exit code 0 and the report on its output, or with 1 or 130 and nothing
there. -/
theorem concluded (host : Host) (captured : Environment) (settings : Settings) (options : Options)
    (wire : Wire) (source : Source) (now : Moment) (isTerminal : Bool) (before : Effects) :
    (Action.from before (runWith host settings options source now isTerminal)).1 =
      conclude now (selectStyle host.environment settings.display options.noColor isTerminal)
        (Action.from before (fetched host settings options (fun _ => pure source))).1 ∧
    (∀ opened : String → Action Source, (∀ ambient, Source.OpensClosable (opened ambient)) →
      (Action.from before (runFrom host settings options opened now isTerminal)).1 =
        conclude now (selectStyle host.environment settings.display options.noColor isTerminal)
          (Action.from before (fetched host settings options opened)).1) ∧
    (Action.from before (run host captured settings options wire now isTerminal)).1 =
      conclude now (selectStyle host.environment settings.display options.noColor isTerminal)
        (Action.from before
          (fetched host settings options (openSource host captured settings options wire))).1 ∧
    ∀ (w : Wording) (s : Surroundings) (arguments : List String) (i : Invocation)
      (settings : Settings) (options : Options), Program.Describes s arguments i settings options →
      (∀ repo, Program.fetched s settings options = .ok repo →
        (Program.run w s arguments).ending = .code 0 ∧
        (Program.run w s arguments).out = Report.render repo s.now
          (Program.styleOf s settings options)) ∧
      ∀ f, Program.fetched s settings options = .error f →
        (Program.run w s arguments).ending = .code (if f = .interrupted then 130 else 1) ∧
          (Program.run w s arguments).out = "" := by
  refine ⟨from_runWith host settings options source now isTerminal before, ?_,
    from_run host captured settings options wire now isTerminal before, ?_⟩
  · intro opened hopened
    exact from_runFrom hopened host settings options now isTerminal before
  · intro w s arguments i settings options h
    exact Program.run_of_describes h w

/-- A program in a cluster whose server knows one Repository without runs. -/
def smallCluster : Surroundings where
  host := { environment := [("KUBERNETES_SERVICE_HOST", "here")] }
  now := ⟨0, 0⟩
  time := ""
  wire _ := .response 200 "OK"
    "\x7b\"metadata\": \x7b\"name\": \"a\", \"namespace\": \"default\"\x7d\x7d"

theorem describes_smallCluster :
    Program.Describes smallCluster ["describe", "a"] ⟨.absent, false, .describe, ["a"]⟩ {}
      { name := "a" } where
  parsed := by rfl
  command := rfl
  loaded := eq_ok_of_toOption (by decide +kernel)
  setUp := by rfl
  options := by rfl

theorem fetched_smallCluster :
    Program.fetched smallCluster {} { name := "a" } = .ok ⟨"a", "default", "", []⟩ :=
  eq_ok_of_toOption (by decide +kernel)

/-- How the program opens its source there. -/
def smallOpening : String → Action Source :=
  openSource smallCluster.host smallCluster.host.environment {} { name := "a" } smallCluster.wire

/-- The report of a Repository without runs. -/
theorem concluded_smallCluster :
    (∀ ambient, Source.OpensClosable (smallOpening ambient)) ∧
    (runFrom smallCluster.host {} { name := "a" } smallOpening smallCluster.now false).result =
      .ok ⟨0, Report.render ⟨"a", "default", "", []⟩ smallCluster.now .plain, ""⟩ ∧
    Program.Describes smallCluster ["describe", "a"] ⟨.absent, false, .describe, ["a"]⟩ {}
    { name := "a" } ∧
    (Program.run {} smallCluster ["describe", "a"]).ending = .code 0 ∧
    (Program.run {} smallCluster ["describe", "a"]).out =
      Report.render ⟨"a", "default", "", []⟩ smallCluster.now
      (Program.styleOf smallCluster {} { name := "a" }) := by
  obtain ⟨-, hopening, -, hprogram⟩ :=
    concluded smallCluster.host [] {} { name := "a" } smallCluster.wire
      (Source.ofShelf {}) smallCluster.now false {}
  have hclosable : ∀ ambient, Source.OpensClosable (smallOpening ambient) :=
    opensClosable_openSource _ _ _ _ _
  obtain ⟨hreport, -⟩ :=
    hprogram {} smallCluster ["describe", "a"] _ {} { name := "a" } describes_smallCluster
  have hfetched : (Action.from {} (fetched smallCluster.host {} { name := "a" } smallOpening)).1 =
      .ok ⟨"a", "default", "", []⟩ := fetched_smallCluster
  have hopened := hopening smallOpening hclosable
  rw [hfetched] at hopened
  exact ⟨hclosable, hopened, describes_smallCluster, hreport _ fetched_smallCluster⟩

end Describe

end PipelineRuns
