import PipelineRuns.Proofs.Placeholders

/-!
# How long settings keep their token

A process loads settings any number of times, while variables and files change, and looks up the
tokens of those that it has kept. A `Loader` is what has come of this so far; `Loader.after` lets
one thing more happen.

The token of settings is looked up anew each time. What does not stand in the settings or in the
file that they name is left to the environment (`Token.LeftToEnvironment`), and this is the
environment that was captured last, by whichever load: there is only one, and a load replaces it
before anything can fail (`Loader.captured_after_load`). So there are two kinds of settings. Those
of the first kind keep their token as long as the file that they name stays the same
(`Token.resolve_of_not_left`). Those of the second follow the environment of the latest load
(`Token.resolve_of_left`).

An event leaves the settings that are kept under their numbers (`Loader.kept_after`), so every
sequence of events does (`Loader.kept_run`).

Main statement: `Loader.token?_run`. A load that fails and gives earlier settings another token is
seen after it.
-/

namespace PipelineRuns

/-! ### What a token depends on -/

namespace Token

variable {captured captured' : Environment} {files files' : FileTree} {kube : KubeSettings}

/-- Settings have no token that can be used and name no file of one. -/
structure LeftToEnvironment (kube : KubeSettings) : Prop where
  unusable : isUsable (kube.token.getD "") = false
  unnamed : kube.tokenFile.getD "" = ""

/-- The two variables of a token are the same in both environments. -/
structure SameVariables (captured captured' : Environment) : Prop where
  token_eq : captured'.value "KUBE_TOKEN" = captured.value "KUBE_TOKEN"
  file_eq : captured'.value "KUBE_TOKEN_FILE" = captured.value "KUBE_TOKEN_FILE"

theorem fileText_congr {file : String}
    (hread : files'.readText (FilePath.ofText file) = files.readText (FilePath.ofText file)) :
    fileText files' file = fileText files file := by
  unfold fileText
  rw [hread]

theorem resolve_of_left (h : LeftToEnvironment kube) :
    resolve captured files kube = ofEnvironment captured files := by
  unfold resolve
  rw [if_neg (Bool.eq_false_iff.mp h.unusable), if_neg (not_not_intro h.unnamed)]

/-- Settings that do not leave their token to the environment depend on the file that they name
alone. -/
theorem resolve_of_not_left (h : ¬ LeftToEnvironment kube)
    (hfile : ∀ file, kube.tokenFile = some file → file ≠ "" →
      files'.readText (FilePath.ofText file) = files.readText (FilePath.ofText file)) :
    resolve captured' files' kube = resolve captured files kube := by
  by_cases husable : isUsable (kube.token.getD "") = true
  · rw [resolve_of_isUsable husable, resolve_of_isUsable husable]
  · -- Without a token that can be used there is a file that is named, and nothing else is looked
    -- at.
    have hnamed : kube.tokenFile.getD "" ≠ "" :=
      fun hunnamed => h ⟨Bool.eq_false_iff.mpr husable, hunnamed⟩
    have hread :
        fileText files' (kube.tokenFile.getD "") = fileText files (kube.tokenFile.getD "") := by
      cases hgiven : kube.tokenFile with
      | none =>
        rw [hgiven] at hnamed
        exact absurd rfl hnamed
      | some file =>
        rw [hgiven] at hnamed
        exact fileText_congr (hfile file hgiven hnamed)
    unfold resolve
    rw [if_neg husable, if_pos hnamed, if_neg husable, if_pos hnamed, hread]

theorem ofEnvironment_congr (h : SameVariables captured captured')
    (hfile : captured.value "KUBE_TOKEN_FILE" ≠ "" →
      files'.readText (FilePath.ofText (captured.value "KUBE_TOKEN_FILE")) =
        files.readText (FilePath.ofText (captured.value "KUBE_TOKEN_FILE"))) :
    ofEnvironment captured' files' = ofEnvironment captured files := by
  unfold ofEnvironment
  rw [h.token_eq, h.file_eq]
  split
  · rfl
  split
  · next hnamed => rw [fileText_congr (hfile hnamed)]
  · rfl

end Token

/-! ### Loading again and again -/

/-- What a process has that loads settings: the machine around it, the environment that was captured
last, and the settings of the loads that succeeded, in order. -/
structure Loader where
  host : Host
  captured : Environment := []
  kept : List Settings := []

namespace Loader

/-- What can happen: the variables or the files change, settings are loaded, or the token of
settings that were kept is looked up. -/
inductive Event where
  | setVariables (env : Environment)
  | changeFiles (files : FileTree)
  | load (path : FilePath)
  | lookUp (i : Nat)

/-- Whether an event is a load. -/
def Event.isLoad : Event → Bool
  | .load _ => true
  | _ => false

/-- What there is after an event. A load that fails keeps no settings, but it leaves the environment
that it captured. A look-up leaves nothing. -/
def after (s : Loader) : Event → Loader
  | .setVariables env => { s with host := { s.host with environment := env } }
  | .changeFiles files => { s with host := { s.host with files := files } }
  | .load path =>
    let loaded := Settings.load s.host path
    match loaded.settings with
    | .ok settings => { s with captured := loaded.captured, kept := s.kept ++ [settings] }
    | .error _ => { s with captured := loaded.captured }
  | .lookUp _ => s

/-- What there is after events. -/
def run (s : Loader) (events : List Event) : Loader :=
  events.foldl after s

/-- What looking up the token of the settings of a number gives, if there are such settings. -/
def token? (s : Loader) (i : Nat) : Option (Except Failure (Option String)) :=
  s.kept[i]?.map (fun settings => Token.resolve s.captured s.host.files settings.kube)

variable {s : Loader} {path : FilePath} {settings : Settings}

/-! ### One event -/

theorem captured_after_load (s : Loader) (path : FilePath) :
    (s.after (.load path)).captured = s.host.environment := by
  unfold after
  dsimp only
  split
  · rfl
  · rfl

theorem host_after_load (s : Loader) (path : FilePath) : (s.after (.load path)).host = s.host := by
  unfold after
  dsimp only
  split
  · rfl
  · rfl

theorem kept_after_load (hload : (Settings.load s.host path).settings = .ok settings) :
    (s.after (.load path)).kept = s.kept ++ [settings] := by
  unfold after
  dsimp only
  rw [hload]

/-- Only a load captures the environment. -/
theorem captured_after_of_not_isLoad {e : Event} (h : e.isLoad = false) :
    (s.after e).captured = s.captured := by
  cases e with
  | setVariables env => rfl
  | changeFiles files => rfl
  | load path => exact nomatch h
  | lookUp i => rfl

/-- Settings that were kept stay under their number. -/
theorem kept_after (s : Loader) (e : Event) : s.kept <+: (s.after e).kept := by
  cases e with
  | setVariables env => exact List.prefix_refl s.kept
  | changeFiles files => exact List.prefix_refl s.kept
  | lookUp i => exact List.prefix_refl s.kept
  | load path =>
    cases hload : (Settings.load s.host path).settings with
    | ok settings =>
      rw [kept_after_load hload]
      exact List.prefix_append s.kept [settings]
    | error f =>
      have hkept : (s.after (.load path)).kept = s.kept := by
        unfold after
        dsimp only
        rw [hload]
      exact ⟨[], by rw [List.append_nil, hkept]⟩

/-! ### Any number of events -/

theorem kept_run (s : Loader) (events : List Event) : s.kept <+: (s.run events).kept := by
  induction events generalizing s with
  | nil => exact List.prefix_refl s.kept
  | cons e events ih => exact (kept_after s e).trans (ih (s.after e))

theorem captured_run_of_not_isLoad {events : List Event} (h : ∀ e ∈ events, e.isLoad = false) :
    (s.run events).captured = s.captured := by
  induction events generalizing s with
  | nil => rfl
  | cons e events ih =>
    calc (s.run (e :: events)).captured = ((s.after e).run events).captured := rfl
      _ = (s.after e).captured := ih (fun e' he' => h e' (List.mem_cons_of_mem e he'))
      _ = s.captured := captured_after_of_not_isLoad (h e List.mem_cons_self)

/-- **What is captured comes from the latest load**, whatever it loads and whether it succeeds. -/
theorem captured_run_of_latest {earlier quiet : List Event} (h : ∀ e ∈ quiet, e.isLoad = false)
    (path : FilePath) :
    (s.run (earlier ++ .load path :: quiet)).captured = (s.run earlier).host.environment := by
  have hrun : s.run (earlier ++ .load path :: quiet) =
      ((s.run earlier).after (.load path)).run quiet :=
    List.foldl_append
  rw [hrun, captured_run_of_not_isLoad h, captured_after_load]

/-- The settings of a load, whatever happens later. -/
theorem token?_run_eq (hload : (Settings.load s.host path).settings = .ok settings)
    (events : List Event) :
    ((s.after (.load path)).run events).token? s.kept.length =
      some (Token.resolve ((s.after (.load path)).run events).captured
        ((s.after (.load path)).run events).host.files settings.kube) := by
  -- The settings stand behind those that were kept before, and more may have followed.
  obtain ⟨more, hmore⟩ := kept_run (s.after (.load path)) events
  have hkept : ((s.after (.load path)).run events).kept[s.kept.length]? = some settings := by
    rw [← hmore, kept_after_load hload, List.append_assoc,
      List.getElem?_append_right (Nat.le_refl _), Nat.sub_self]
    rfl
  unfold token?
  rw [hkept]
  rfl

/-- **What a token depends on in the course of time.** Let settings be kept from a load that
succeeded, and let any events follow it after which the token file that they name, if they do, holds
the same text. Settings that have a token which can be used, or name a file, have the token that
they had right after the load. The token of others is what the environment gives that was captured
last. This is the same as right after the load if the two variables of a token and the file that
they name are, and the environment was captured by the load itself if none followed, and by the
latest of those that followed otherwise. -/
theorem token?_run (hload : (Settings.load s.host path).settings = .ok settings)
    (events : List Event) (hfile : ∀ file, settings.kube.tokenFile = some file → file ≠ "" →
      ((s.after (.load path)).run events).host.files.readText (FilePath.ofText file) =
        s.host.files.readText (FilePath.ofText file)) :
    let loaded := s.after (.load path)
    let later := loaded.run events
    let i := s.kept.length
    (¬ Token.LeftToEnvironment settings.kube → later.token? i = loaded.token? i) ∧
    (Token.LeftToEnvironment settings.kube →
      later.token? i = some (Token.ofEnvironment later.captured later.host.files) ∧
      (Token.SameVariables loaded.captured later.captured →
        (loaded.captured.value "KUBE_TOKEN_FILE" ≠ "" →
          later.host.files.readText (FilePath.ofText (loaded.captured.value "KUBE_TOKEN_FILE")) =
            loaded.host.files.readText
              (FilePath.ofText (loaded.captured.value "KUBE_TOKEN_FILE"))) →
        later.token? i = loaded.token? i)) ∧
    ((∀ e ∈ events, e.isLoad = false) → later.captured = loaded.captured) ∧
    (∀ earlier latest quiet, events = earlier ++ .load latest :: quiet →
      (∀ e ∈ quiet, e.isLoad = false) →
      later.captured = (loaded.run earlier).host.environment) := by
  intro loaded later i
  have hlater :
      later.token? i = some (Token.resolve later.captured later.host.files settings.kube) :=
    token?_run_eq hload events
  have hloaded :
      loaded.token? i = some (Token.resolve loaded.captured loaded.host.files settings.kube) :=
    token?_run_eq hload []
  rw [hlater, hloaded]
  refine ⟨?_, ?_, captured_run_of_not_isLoad, ?_⟩
  · intro hleft
    -- A load leaves the files, so those right after it are those that it was made with.
    have hhost : loaded.host = s.host := host_after_load s path
    rw [hhost, Token.resolve_of_not_left hleft hfile]
  · intro hleft
    rw [Token.resolve_of_left hleft, Token.resolve_of_left hleft]
    exact ⟨rfl, fun hvariables hnamed =>
      congrArg some (Token.ofEnvironment_congr hvariables hnamed)⟩
  · rintro earlier latest quiet rfl hquiet
    exact captured_run_of_latest hquiet latest

/-- A process on a machine with a file of settings, a file that holds no settings, and a token
file. -/
def starting (text : String) : Loader where
  host := {
    environment := [("KUBE_TOKEN", "first")]
    files := { entries := [(["tknpac.yaml"], .file (FileTree.encode text)),
      (["other.yaml"], .file (FileTree.encode "kube: 5\n")),
      (["secret"], .file (FileTree.encode "kept\n"))] } }

/-- What there is after the settings are loaded. -/
def started (text : String) : Loader := (starting text).after (.load Settings.defaultPath)

/-- The variables change, and a load fails. -/
def failingLoad : List Event :=
  [.setVariables [("KUBE_TOKEN", "second")], .load (FilePath.ofText "other.yaml")]

/-- A file of settings whose token is a placeholder. -/
def leftText : String := Token.settingsText "$\x7bMISSING\x7d"

/-- What is loaded from this file. -/
def leftSettings : Settings where
  kube := { token := some "$\x7bMISSING\x7d" }

/-- A file of settings that name a token file besides. -/
def namingText : String := Token.settingsText "$\x7bMISSING\x7d\n  token_file: /secret"

/-- What is loaded from that file. -/
def namingSettings : Settings where
  kube := { token := some "$\x7bMISSING\x7d", tokenFile := some "/secret" }

theorem load_leftText :
    (Settings.load (starting leftText).host Settings.defaultPath).settings = .ok leftSettings :=
  eq_ok_of_toOption (by decide +kernel)

theorem load_namingText :
    (Settings.load (starting namingText).host Settings.defaultPath).settings = .ok namingSettings :=
  eq_ok_of_toOption (by decide +kernel)

theorem left_leftSettings : Token.LeftToEnvironment leftSettings.kube :=
  ⟨by decide, rfl⟩

theorem not_left_namingSettings : ¬ Token.LeftToEnvironment namingSettings.kube :=
  fun h => absurd h.unnamed (by decide)

/-- The later load does fail. -/
theorem load_other :
    (Settings.load ((started leftText).after (.setVariables [("KUBE_TOKEN", "second")])).host
    (FilePath.ofText "other.yaml")).settings.toOption = none := by
  have hhost : ((started leftText).after (.setVariables [("KUBE_TOKEN", "second")])).host =
      { (starting leftText).host with environment := [("KUBE_TOKEN", "second")] } := by
    dsimp only [after]
    rw [started, host_after_load]
  rw [hhost]
  decide +kernel

theorem run_failingLoad (s : Loader) : s.run failingLoad =
    (s.after (.setVariables [("KUBE_TOKEN", "second")])).after
      (.load (FilePath.ofText "other.yaml")) := by
  unfold run failingLoad
  rw [List.foldl_cons, List.foldl_cons, List.foldl_nil]

theorem captured_failingLoad (s : Loader) :
    (s.run failingLoad).captured = [("KUBE_TOKEN", "second")] := by
  rw [run_failingLoad, captured_after_load]
  rfl

theorem files_failingLoad (text : String) :
    ((started text).run failingLoad).host.files = (starting text).host.files := by
  calc ((started text).run failingLoad).host.files
      = ((started text).after (.setVariables [("KUBE_TOKEN", "second")])).host.files := by
        rw [run_failingLoad, host_after_load]
    _ = (started text).host.files := rfl
    _ = (starting text).host.files := by rw [started, host_after_load]

/-- The token file of settings that name one is the same after a load that fails, and so is their
token. Settings that name none have another token then. -/
theorem token?_run_failingLoad :
    (Settings.load (starting namingText).host Settings.defaultPath).settings = .ok namingSettings ∧
      namingSettings.kube.tokenFile = some "/secret" ∧
      ((started namingText).run failingLoad).host.files.readText (FilePath.ofText "/secret") =
        (starting namingText).host.files.readText (FilePath.ofText "/secret") ∧
      ¬ Token.LeftToEnvironment namingSettings.kube ∧
      ((started namingText).run failingLoad).token? 0 = (started namingText).token? 0 ∧
      (Settings.load (starting leftText).host Settings.defaultPath).settings = .ok leftSettings ∧
      Token.LeftToEnvironment leftSettings.kube ∧
      (Settings.load ((started leftText).after (.setVariables [("KUBE_TOKEN", "second")])).host
        (FilePath.ofText "other.yaml")).settings.toOption = none ∧
      ((started leftText).run failingLoad).token? 0 = some (.ok (some "second")) := by
  have hfile (text file : String) :
      ((started text).run failingLoad).host.files.readText (FilePath.ofText file) =
      (starting text).host.files.readText (FilePath.ofText file) := by
    rw [files_failingLoad]
  have hnaming := token?_run load_namingText failingLoad (fun file _ _ => hfile namingText file)
  have hleft := token?_run load_leftText failingLoad (fun file _ _ => hfile leftText file)
  have htoken : ((started leftText).run failingLoad).token? 0 =
      some (Token.ofEnvironment ((started leftText).run failingLoad).captured
        ((started leftText).run failingLoad).host.files) :=
    (hleft.2.1 left_leftSettings).1
  rw [captured_failingLoad] at htoken
  exact ⟨load_namingText, rfl, hfile namingText "/secret", not_left_namingSettings,
    hnaming.1 not_left_namingSettings, load_leftText, left_leftSettings, load_other, htoken⟩

/-- Settings that were kept can be given another token by a later load, though all files stay as
they are. -/
theorem token?_not_kept :
    ¬ ∀ (s : Loader) (path : FilePath) (settings : Settings) (events : List Event),
        (Settings.load s.host path).settings = .ok settings →
        (∀ file, ((s.after (.load path)).run events).host.files.readText file =
          s.host.files.readText file) →
        ((s.after (.load path)).run events).token? s.kept.length =
          (s.after (.load path)).token? s.kept.length := by
  intro h
  -- The second load fails after it has captured the environment, which has another token by then.
  have hsame : ((started leftText).run failingLoad).token? 0 = (started leftText).token? 0 :=
    h (starting leftText) Settings.defaultPath leftSettings failingLoad load_leftText
      (fun file => congrArg (FileTree.readText · file) (files_failingLoad leftText))
  have hlater : ((started leftText).run failingLoad).token? 0 = some (.ok (some "second")) := by
    calc ((started leftText).run failingLoad).token? 0
        = some (Token.resolve ((started leftText).run failingLoad).captured
            ((started leftText).run failingLoad).host.files leftSettings.kube) :=
          token?_run_eq load_leftText failingLoad
      _ = some (.ok (some "second")) := by
        rw [captured_failingLoad, Token.resolve_of_left left_leftSettings]
        rfl
  have hloaded : (started leftText).token? 0 = some (.ok (some "first")) := by
    have hcaptured : (started leftText).captured = [("KUBE_TOKEN", "first")] :=
      captured_after_load (starting leftText) Settings.defaultPath
    calc (started leftText).token? 0
        = some (Token.resolve (started leftText).captured
            (started leftText).host.files leftSettings.kube) :=
          token?_run_eq load_leftText []
      _ = some (.ok (some "first")) := by
        rw [hcaptured, Token.resolve_of_left left_leftSettings]
        rfl
  have hequal : some (Except.ok (some "second")) = some (Except.ok (some "first")) :=
    hlater.symm.trans (hsame.trans hloaded)
  exact absurd (Option.some.inj (Except.ok.inj (Option.some.inj hequal))) (by decide)

end Loader

end PipelineRuns
