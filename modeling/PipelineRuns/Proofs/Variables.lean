import PipelineRuns.Proofs.Actions
import PipelineRuns.Settings.Load

/-!
# The variables that settings depend on

The variables that are meant to be read while settings are loaded are those whose names start with
the prefix of a section, case aside (`Settings.IsVariable`). Besides these the variables named like
a section are read (`Settings.sectionNames`): each has to hold JSON, and a program that is started
on a graphical display has one that does not. This module says exactly how far the outcome of a load
depends on either kind, and that it depends on no other variable. Environments are compared by
`Environment.AgreeOn`, which holds in particular where the same variables of a kind are set in the
same order (`Environment.agreeOn_of_restrict`).

A load takes two steps. `Settings.sources` reads the file and is given the values of the sections;
it looks up variables of the first kind only, as a file without placeholders names none
(`Placeholder.fill_of_free`). `Settings.assemble` looks up both kinds. For a family `s` of settings,
`Section.Belongs` says that reading it takes its values from the variables of its own fields alone.

Main statement: `Settings.outcome_of_agreeOn`. That variables of the second kind matter is seen on a
graphical display (`Settings.outcome_not_determined_by_variables`).
-/

namespace PipelineRuns

/-! ### Environments that agree -/

namespace Environment

/-- Two environments have the same variables with names that satisfy `p`. Names are taken in small
letters, and of two variables whose names differ in case only the later one counts. -/
def AgreeOn (p : String → Prop) (env env' : Environment) : Prop :=
  ∀ name, p name → env.fold? name = env'.fold? name

/-- The variable named `name` holds JSON, if it is set. -/
def HoldsJson (env : Environment) (name : String) : Prop :=
  ∀ text, env.fold? name = some text → Json.parse text ≠ none

/-- The variables whose names, in small letters, satisfy `p`. -/
def restrict (p : String → Prop) [DecidablePred p] (env : Environment) : Environment :=
  env.filter (fun e => p (Text.toLower e.1))

theorem fold?_restrict {p : String → Prop} [DecidablePred p] (env : Environment) {name : String}
    (h : p name) : (env.restrict p).fold? name = env.fold? name := by
  unfold fold? restrict
  rw [← List.filter_reverse, List.find?_filter]
  -- A variable with this name satisfies `p` in any case.
  refine congrArg (Option.map Prod.snd)
    (congrArg (fun q => List.find? q env.reverse) (funext fun e => ?_))
  by_cases heq : Text.toLower e.1 = name
  · simp [heq, h]
  · simp [heq]

/-- Environments that hold the same variables with such names, in the same order, agree on them. -/
theorem agreeOn_of_restrict {p : String → Prop} [DecidablePred p] {env env' : Environment}
    (h : env.restrict p = env'.restrict p) : AgreeOn p env env' := by
  intro name hname
  rw [← fold?_restrict env hname, h, fold?_restrict env' hname]

end Environment

/-! ### Documents without placeholders -/

namespace Placeholder

mutual

/-- No text in a value starts with the sign of a placeholder; keys are not looked at. -/
def free : Value → Bool
  | .text s => s.toList.head? ≠ some '$'
  | .list xs => freeItems xs
  | .mapping m => freeEntries m
  | _ => true

/-- No text in the items of a list starts with the sign of a placeholder. -/
def freeItems : List Value → Bool
  | [] => true
  | v :: rest => free v && freeItems rest

/-- No text in the values of a mapping starts with the sign of a placeholder. -/
def freeEntries : List (Value × Value) → Bool
  | [] => true
  | (_, v) :: rest => free v && freeEntries rest

end

theorem resolve_of_free {s : String} (env : Environment) (h : s.toList.head? ≠ some '$') :
    resolve env s = s := by
  have hname : name? s = none := by
    unfold name?
    split
    case h_1 heq => simp [heq] at h
    case h_2 heq => simp [heq] at h
    case h_3 => rfl
  unfold resolve
  rw [hname]

mutual

/-- **No placeholder, no look-up.** A value without placeholders is left as it is in every
environment. -/
theorem fill_of_free (env : Environment) : ∀ v : Value, free v = true → fill env v = v
  | .text s, h => by
    rw [free, decide_eq_true_eq] at h
    rw [fill, resolve_of_free env h]
  | .list xs, h => by
    rw [free] at h
    rw [fill, fillItems_of_free env xs h]
  | .mapping m, h => by
    rw [free] at h
    rw [fill, fillEntries_of_free env m h]
  | .null, _ | .bool _, _ | .int _, _ | .float _, _ | .bytes _, _ | .date _, _ | .timestamp _ _, _
  | .pair _ _, _ | .set _, _ => by rw [fill] <;> simp

theorem fillItems_of_free (env : Environment) :
    ∀ xs : List Value, freeItems xs = true → fillItems env xs = xs
  | [], _ => by rw [fillItems]
  | v :: rest, h => by
    rw [freeItems, Bool.and_eq_true] at h
    rw [fillItems, fill_of_free env v h.1, fillItems_of_free env rest h.2]

theorem fillEntries_of_free (env : Environment) :
    ∀ m : List (Value × Value), freeEntries m = true → fillEntries env m = m
  | [], _ => by rw [fillEntries]
  | (k, v) :: rest, h => by
    rw [freeEntries, Bool.and_eq_true] at h
    rw [fillEntries, fill_of_free env v h.1, fillEntries_of_free env rest h.2]

end

end Placeholder

/-! ### The variables of sections -/

namespace Settings

/-- The prefixes of the variables of sections. -/
def stems : List String :=
  [KubeSettings.family.stem, DisplaySettings.family.stem, LoggingSettings.family.stem]

/-- A name, in small letters, of a variable that settings are meant to be read from. -/
def IsVariable (name : String) : Prop :=
  ∃ stem ∈ stems, stem.toList <+: name.toList

instance (name : String) : Decidable (IsVariable name) :=
  inferInstanceAs (Decidable (∃ stem ∈ stems, stem.toList <+: name.toList))

/-- The names of the sections, which name a variable each as well. -/
def sectionNames : List String :=
  [KubeSettings.family.name, DisplaySettings.family.name, LoggingSettings.family.name]

theorem isVariable_append {stem : String} (h : stem ∈ stems) (field : String) :
    IsVariable (stem ++ field) := by
  refine ⟨stem, h, ?_⟩
  rw [String.toList_append]
  exact List.prefix_append stem.toList field.toList

end Settings

namespace SectionSource

/-- A field depends on the environment through its variable alone. -/
theorem field_congr {env env' : Environment} {stem name : String}
    (h : env.fold? (stem ++ name) = env'.fold? (stem ++ name)) (given : Mapping) (place : String)
    {α : Type} (absent : α) (read : String → Value → Except Issue α) :
    field ⟨given, env, stem, place⟩ name absent read =
      field ⟨given, env', stem, place⟩ name absent read := by
  unfold field value?
  rw [h]

end SectionSource

namespace Section

variable {α : Type} {s : Section α} {env env' : Environment}

/-- What makes a family one of the sections: its prefix and name are among those of the sections,
and it is read from the variables of its own fields alone. -/
structure Belongs (s : Section α) : Prop where
  stem_mem : s.stem ∈ Settings.stems
  name_mem : s.name ∈ Settings.sectionNames
  reads_own : ∀ {env env' : Environment},
    (∀ f ∈ s.fields, env.fold? (s.stem ++ f) = env'.fold? (s.stem ++ f)) →
    ∀ (given : Mapping) (place : String),
      s.read ⟨given, env, s.stem, place⟩ = s.read ⟨given, env', s.stem, place⟩

theorem read_congr (hs : s.Belongs) (h : env.AgreeOn Settings.IsVariable env') (given : Mapping)
    (place : String) : s.read ⟨given, env, s.stem, place⟩ = s.read ⟨given, env', s.stem, place⟩ :=
  hs.reads_own (fun f _ => h _ (Settings.isVariable_append hs.stem_mem f)) given place

theorem alone_congr (hs : s.Belongs) (h : env.AgreeOn Settings.IsVariable env') (given : Mapping) :
    s.alone env given = s.alone env' given := by
  unfold alone
  rw [read_congr hs h given ""]

theorem part_congr (hs : s.Belongs) (h : env.AgreeOn Settings.IsVariable env') (given : Given α) :
    s.part env given = s.part env' given := by
  unfold part
  split
  · rw [alone_congr hs h]
  · rfl
  · rw [read_congr hs h]
  · rfl

theorem whole?_congr (hs : s.Belongs) (h : env.AgreeOn (· ∈ Settings.sectionNames) env') :
    s.whole? env = s.whole? env' := by
  unfold whole?
  rw [h s.name hs.name_mem]

/-- The variable named like a section can be read when it holds JSON. -/
theorem exists_whole? (h : env.HoldsJson s.name) : ∃ v, s.whole? env = .ok v := by
  unfold whole?
  split
  · exact ⟨none, rfl⟩
  case h_2 text htext =>
    split
    · next hnone => exact absurd hnone (h text htext)
    · exact ⟨none, rfl⟩
    · next v _ _ => exact ⟨some v, rfl⟩

theorem whole?_of_not_holdsJson (h : ¬ env.HoldsJson s.name) :
    s.whole? env = .error (.sectionNotJson s.name) := by
  obtain ⟨text, h⟩ := Classical.not_forall.mp h
  obtain ⟨htext, h⟩ := Classical.not_imp.mp h
  have hnone : Json.parse text = none := Classical.not_not.mp h
  unfold whole?
  rw [htext]
  simp only [hnone]

end Section

theorem KubeSettings.family_belongs : KubeSettings.family.Belongs where
  stem_mem := by decide
  name_mem := by decide
  reads_own := by
    intro env env' h given place
    change KubeSettings.read _ = KubeSettings.read _
    unfold KubeSettings.read
    rw [SectionSource.field_congr (h "namespace" (by decide)),
      SectionSource.field_congr (h "api_url" (by decide)),
      SectionSource.field_congr (h "token" (by decide)),
      SectionSource.field_congr (h "token_file" (by decide)),
      SectionSource.field_congr (h "ca_cert" (by decide)),
      SectionSource.field_congr (h "verify_ssl" (by decide)),
      SectionSource.field_congr (h "timeout" (by decide)),
      SectionSource.field_congr (h "kubeconfig" (by decide))]

theorem DisplaySettings.family_belongs : DisplaySettings.family.Belongs where
  stem_mem := by decide
  name_mem := by decide
  reads_own := by
    intro env env' h given place
    change DisplaySettings.read _ = DisplaySettings.read _
    unfold DisplaySettings.read
    rw [SectionSource.field_congr (h "no_color" (by decide)),
      SectionSource.field_congr (h "hyperlinks" (by decide))]

theorem LoggingSettings.family_belongs : LoggingSettings.family.Belongs where
  stem_mem := by decide
  name_mem := by decide
  reads_own := by
    intro env env' h given place
    change LoggingSettings.read _ = LoggingSettings.read _
    unfold LoggingSettings.read
    rw [SectionSource.field_congr (h "level" (by decide)),
      SectionSource.field_congr (h "format" (by decide))]

/-! ### Both steps of a load -/

namespace Settings

variable {host : Host} {path : FilePath} {env env' : Environment}

/-- What a load gives in an environment. -/
def outcome (host : Host) (path : FilePath) (env : Environment) : Except Failure Settings :=
  (load { host with environment := env } path).settings

/-- The file at `path`, if there is one, holds no text that starts with the sign of a
placeholder. -/
def Literal (host : Host) (path : FilePath) : Prop :=
  host.files.isFile path = true →
    ∀ text v, host.files.readText path = .ok text → Yaml.parse text = .ok v →
    Placeholder.free v = true

/-- The sections that a document gives. -/
def documentSources (env : Environment) (v : Value) : Except Failure Sources := do
  let doc ← entriesOf (Placeholder.fill env v)
  let kube ← KubeSettings.family.alone env (← valuesOf doc KubeSettings.family.name)
  let display ← DisplaySettings.family.alone env (← valuesOf doc DisplaySettings.family.name)
  let logging ← LoggingSettings.family.alone env (← valuesOf doc LoggingSettings.family.name)
  return { kube := .built kube, display := .built display, logging := .built logging }

/-- The sections that are given when a load comes to assemble them. -/
def sources (host : Host) (path : FilePath) (env : Environment) : Except Failure Sources :=
  if host.files.isFile path then do
    documentSources env (← Yaml.parse (← host.files.readText path))
  else .ok {}

theorem ofDocument_eq (env : Environment) (v : Value) :
    ofDocument env v = documentSources env v >>= assemble env := by
  unfold ofDocument documentSources sectionOf
  simp only [bind_assoc, pure_bind]

/-- A load reads the file first and assembles the sections then. -/
theorem outcome_eq (host : Host) (path : FilePath) (env : Environment) :
    outcome host path env = sources host path env >>= assemble env := by
  change ofPath { host with environment := env } path = _
  unfold ofPath sources
  by_cases hfile : host.files.isFile path = true
  · simp only [hfile, ofDocument_eq, Bool.not_true, Bool.false_eq_true, if_false, if_true,
      bind_assoc]
  · simp only [hfile, Bool.not_false, if_true, Bool.false_eq_true, if_false]
    rfl

theorem documentSources_congr {v : Value} (hv : Placeholder.free v = true)
    (h : env.AgreeOn IsVariable env') : documentSources env v = documentSources env' v := by
  unfold documentSources
  rw [Placeholder.fill_of_free env v hv, Placeholder.fill_of_free env' v hv]
  simp only [Section.alone_congr KubeSettings.family_belongs h,
    Section.alone_congr DisplaySettings.family_belongs h,
    Section.alone_congr LoggingSettings.family_belongs h]

/-- **Reading the file looks up variables of sections only.** -/
theorem sources_congr (hliteral : Literal host path) (h : env.AgreeOn IsVariable env') :
    sources host path env = sources host path env' := by
  unfold sources
  split
  case isTrue hfile =>
    cases htext : host.files.readText path with
    | error failure => rfl
    | ok text =>
      change (Yaml.parse text >>= _) = (Yaml.parse text >>= _)
      cases hv : Yaml.parse text with
      | error failure => rfl
      | ok v => exact documentSources_congr (hliteral hfile text v htext hv) h
  case isFalse => rfl

theorem assemble_congr (h : env.AgreeOn IsVariable env')
    (hnames : env.AgreeOn (· ∈ sectionNames) env') (given : Sources) :
    assemble env given = assemble env' given := by
  unfold assemble
  simp only [Section.whole?_congr KubeSettings.family_belongs hnames,
    Section.whole?_congr DisplaySettings.family_belongs hnames,
    Section.whole?_congr LoggingSettings.family_belongs hnames,
    Section.part_congr KubeSettings.family_belongs h,
    Section.part_congr DisplaySettings.family_belongs h,
    Section.part_congr LoggingSettings.family_belongs h]

/-- Sections that are built already stay as they are. -/
theorem assemble_built (h : ∀ name ∈ sectionNames, env.HoldsJson name) (kube : KubeSettings)
    (display : DisplaySettings) (logging : LoggingSettings) :
    assemble env { kube := .built kube, display := .built display, logging := .built logging }
      = .ok ⟨kube, display, logging⟩ := by
  obtain ⟨k, hk⟩ := Section.exists_whole? (h _ KubeSettings.family_belongs.name_mem)
  obtain ⟨d, hd⟩ := Section.exists_whole? (h _ DisplaySettings.family_belongs.name_mem)
  obtain ⟨l, hl⟩ := Section.exists_whole? (h _ LoggingSettings.family_belongs.name_mem)
  unfold assemble
  rw [hk, hd, hl]
  rfl

/-- A variable that is named like a section and holds no JSON makes the settings unreadable. -/
theorem assemble_of_not_holdsJson {name : String} (hname : name ∈ sectionNames)
    (h : ¬ env.HoldsJson name) (given : Sources) :
    ∃ culprit ∈ sectionNames, ¬ env.HoldsJson culprit ∧
      assemble env given = .error (.sectionNotJson culprit) := by
  unfold assemble
  -- The variables are looked at in the order of the sections, so the first bad one is named.
  by_cases hkube : env.HoldsJson KubeSettings.family.name
  case neg =>
    rw [Section.whole?_of_not_holdsJson hkube]
    exact ⟨_, KubeSettings.family_belongs.name_mem, hkube, rfl⟩
  obtain ⟨k, hk⟩ := Section.exists_whole? hkube
  rw [hk]
  by_cases hdisplay : env.HoldsJson DisplaySettings.family.name
  case neg =>
    rw [Section.whole?_of_not_holdsJson hdisplay]
    exact ⟨_, DisplaySettings.family_belongs.name_mem, hdisplay, rfl⟩
  obtain ⟨d, hd⟩ := Section.exists_whole? hdisplay
  rw [hd]
  by_cases hlogging : env.HoldsJson LoggingSettings.family.name
  case neg =>
    rw [Section.whole?_of_not_holdsJson hlogging]
    exact ⟨_, LoggingSettings.family_belongs.name_mem, hlogging, rfl⟩
  -- All three hold JSON, which leaves no section to be called `name`.
  rcases List.mem_cons.mp hname with rfl | hname
  · exact absurd hkube h
  rcases List.mem_cons.mp hname with rfl | hname
  · exact absurd hdisplay h
  · exact absurd (List.mem_singleton.mp hname ▸ hlogging) h

/-- The variables named like a section hold JSON where settings are assembled. -/
theorem holdsJson_of_assemble {given : Sources} {settings : Settings}
    (h : assemble env given = .ok settings) : ∀ name ∈ sectionNames, env.HoldsJson name := by
  intro name hname
  refine Classical.byContradiction (fun hjson => ?_)
  obtain ⟨_, -, -, herror⟩ := assemble_of_not_holdsJson hname hjson given
  exact nomatch h.symm.trans herror

/-- The sections that come from a file are built, that on the cluster from the values that the
document has for it. -/
theorem exists_of_documentSources {v : Value} {given : Sources}
    (h : documentSources env v = .ok given) :
    ∃ doc values kube display logging, entriesOf (Placeholder.fill env v) = .ok doc ∧
      valuesOf doc KubeSettings.family.name = .ok values ∧
      KubeSettings.family.alone env values = .ok kube ∧
      given = { kube := .built kube, display := .built display, logging := .built logging } := by
  unfold documentSources at h
  obtain ⟨doc, hdoc, h⟩ := exists_of_bind_eq_ok h
  obtain ⟨values, hvalues, h⟩ := exists_of_bind_eq_ok h
  obtain ⟨kube, hkube, h⟩ := exists_of_bind_eq_ok h
  obtain ⟨_, -, h⟩ := exists_of_bind_eq_ok h
  obtain ⟨display, -, h⟩ := exists_of_bind_eq_ok h
  obtain ⟨_, -, h⟩ := exists_of_bind_eq_ok h
  obtain ⟨logging, -, h⟩ := exists_of_bind_eq_ok h
  exact ⟨doc, values, kube, display, logging, hdoc, hvalues, hkube, (Except.ok.inj h).symm⟩

theorem exists_of_sources (hfile : host.files.isFile path = true) {given : Sources}
    (h : sources host path env = .ok given) :
    ∃ kube display logging,
      given = { kube := .built kube, display := .built display, logging := .built logging } := by
  unfold sources at h
  rw [if_pos hfile] at h
  obtain ⟨text, -, h⟩ := exists_of_bind_eq_ok h
  obtain ⟨v, -, h⟩ := exists_of_bind_eq_ok h
  obtain ⟨_, _, kube, display, logging, -, -, -, hgiven⟩ := exists_of_documentSources h
  exact ⟨kube, display, logging, hgiven⟩

/-! ### The outcome of a load -/

/-- Environments that agree on the variables of sections and on those named like a section have the
same outcome. -/
theorem outcome_congr (hliteral : Literal host path) (h : env.AgreeOn IsVariable env')
    (hnames : env.AgreeOn (· ∈ sectionNames) env') :
    outcome host path env = outcome host path env' := by
  rw [outcome_eq, outcome_eq, sources_congr hliteral h]
  cases sources host path env' with
  | error failure => rfl
  | ok given => exact assemble_congr h hnames given

/-- Where there is a file, JSON in the variables named like a section makes no difference. -/
theorem outcome_congr_of_isFile (hliteral : Literal host path)
    (hfile : host.files.isFile path = true) (h : env.AgreeOn IsVariable env')
    (hjson : ∀ name ∈ sectionNames, env.HoldsJson name)
    (hjson' : ∀ name ∈ sectionNames, env'.HoldsJson name) :
    outcome host path env = outcome host path env' := by
  rw [outcome_eq, outcome_eq, sources_congr hliteral h]
  cases hgiven : sources host path env' with
  | error failure => rfl
  | ok given =>
    -- Sections from a file are built already, and variables are not asked for the values of these.
    obtain ⟨kube, display, logging, rfl⟩ := exists_of_sources hfile hgiven
    change assemble env _ = assemble env' _
    rw [assemble_built hjson, assemble_built hjson']

/-- Other text than JSON in a variable named like a section makes a load fail that succeeds without
it. -/
theorem outcome_of_not_holdsJson (hliteral : Literal host path) (h : env.AgreeOn IsVariable env')
    {settings : Settings} (hok : outcome host path env = .ok settings) {name : String}
    (hname : name ∈ sectionNames) (hjson : ¬ env'.HoldsJson name) :
    ∃ culprit ∈ sectionNames,
      ¬ env'.HoldsJson culprit ∧ outcome host path env' = .error (.sectionNotJson culprit) := by
  -- The file can be read in the first environment, hence in the second, so the failure is one of
  -- assembling.
  rw [outcome_eq] at hok
  obtain ⟨given, hgiven, -⟩ := exists_of_bind_eq_ok hok
  rw [sources_congr hliteral h] at hgiven
  obtain ⟨culprit, hculprit, hbad, herror⟩ := assemble_of_not_holdsJson hname hjson given
  refine ⟨culprit, hculprit, hbad, ?_⟩
  rw [outcome_eq, hgiven]
  exact herror

/-- Settings that can be read show that the variables named like a section hold JSON. -/
theorem holdsJson_of_outcome (hliteral : Literal host path) {settings : Settings}
    (hok : outcome host path env = .ok settings) : ∀ name ∈ sectionNames, env.HoldsJson name := by
  intro name hname
  refine Classical.byContradiction (fun hjson => ?_)
  obtain ⟨culprit, -, -, herror⟩ :=
    outcome_of_not_holdsJson hliteral (fun _ _ => rfl) hok hname hjson
  exact nomatch hok.symm.trans herror

/-- **What the environment decides about settings.** Let two environments agree on all variables
whose names start with the prefix of a section, and let the file hold no text that starts with the
sign of a placeholder. The outcome of a load can differ only in consequence of the three variables
named like a section: it is the same where these agree too, and, where there is a file, wherever
they hold JSON. But other text than JSON in one of them makes a load fail that succeeds without it,
so that settings which are read from a file in one environment are read in the other exactly when
these variables hold JSON there. -/
theorem outcome_of_agreeOn (host : Host) (path : FilePath) (env env' : Environment)
    (hliteral : Literal host path) (h : env.AgreeOn IsVariable env') :
    (env.AgreeOn (· ∈ sectionNames) env' → outcome host path env = outcome host path env') ∧
    (host.files.isFile path = true →
      (∀ name ∈ sectionNames, env.HoldsJson name ∧ env'.HoldsJson name) →
      outcome host path env = outcome host path env') ∧
    (∀ settings, outcome host path env = .ok settings →
      ∀ name ∈ sectionNames, ¬ env'.HoldsJson name →
      ∃ culprit ∈ sectionNames,
        ¬ env'.HoldsJson culprit ∧ outcome host path env' = .error (.sectionNotJson culprit)) ∧
    (host.files.isFile path = true → ∀ settings, outcome host path env = .ok settings →
      (outcome host path env' = .ok settings ↔ ∀ name ∈ sectionNames, env'.HoldsJson name)) := by
  have hfile_congr (hfile : host.files.isFile path = true)
      (hjson : ∀ name ∈ sectionNames, env.HoldsJson name ∧ env'.HoldsJson name) :
      outcome host path env = outcome host path env' :=
    outcome_congr_of_isFile hliteral hfile h (fun name hname => (hjson name hname).1)
      (fun name hname => (hjson name hname).2)
  refine ⟨outcome_congr hliteral h, hfile_congr, ?_, ?_⟩
  · intro settings hok name hname hjson
    exact outcome_of_not_holdsJson hliteral h hok hname hjson
  · intro hfile settings hok
    constructor
    · exact fun hok' => holdsJson_of_outcome hliteral hok'
    -- The variables of the sections hold JSON on both sides, so they change nothing with a file.
    · intro hjson
      have hboth : ∀ name ∈ sectionNames, env.HoldsJson name ∧ env'.HoldsJson name :=
        fun name hname => ⟨holdsJson_of_outcome hliteral hok name hname, hjson name hname⟩
      rw [← hfile_congr hfile hboth]
      exact hok

/-- The name of a graphical display, as it stands in the environment of programs that run on one. -/
def displayName : String × String := ("DISPLAY", ":0")

/-- A name without the prefix of a section does not keep a variable out of a load: on a graphical
display no settings can be read, though the variables that they are meant to be read from are the
same. -/
theorem outcome_not_determined_by_variables :
    ¬ ∀ (host : Host) (path : FilePath) (env env' : Environment), Literal host path →
        env.restrict IsVariable = env'.restrict IsVariable →
        outcome host path env = outcome host path env' := by
  intro h
  have hsame :
      Environment.restrict IsVariable [] = Environment.restrict IsVariable [displayName] := by
    decide
  have hliteral : Literal {} defaultPath := fun hfile => absurd hfile (by decide)
  have hwithout : outcome {} defaultPath [] = .ok {} := rfl
  have hwith : outcome {} defaultPath [displayName] = .error (.sectionNotJson "display") := rfl
  have heq := h {} defaultPath [] [displayName] hliteral hsame
  rw [hwithout, hwith] at heq
  exact nomatch heq

/-- A host with a file of settings that switches colours off. -/
def drabHost : Host :=
  { files := { entries := [(["tknpac.yaml"],
      .file ("display:\n  no_color: on\n".toList.map (fun c => c.toNat.toUInt8)))] } }

theorem literal_drabHost : Literal drabHost defaultPath := by
  intro _ text v htext hv
  have hread : drabHost.files.readText defaultPath = .ok "display:\n  no_color: on\n" :=
    eq_ok_of_toOption (by decide +kernel)
  have hfree :
      (Yaml.parse "display:\n  no_color: on\n").toOption.map Placeholder.free = some true := by
    decide +kernel
  obtain rfl : _ = text := Except.ok.inj (hread.symm.trans htext)
  rw [hv] at hfree
  exact Option.some.inj hfree

/-- The file of a host is of no avail on a graphical display. -/
theorem outcome_drabHost :
    Literal drabHost defaultPath ∧
    Environment.AgreeOn IsVariable [("LANG", "C")] [("LANG", "C"), displayName] ∧
    outcome drabHost defaultPath [("LANG", "C")] = .ok { display := { noColor := true } } ∧
    ∃ culprit ∈ sectionNames, ¬ Environment.HoldsJson [("LANG", "C"), displayName] culprit ∧
      outcome drabHost defaultPath [("LANG", "C"), displayName] =
        .error (.sectionNotJson culprit) := by
  have hagree : Environment.AgreeOn IsVariable [("LANG", "C")] [("LANG", "C"), displayName] :=
    Environment.agreeOn_of_restrict (by decide)
  have hok : outcome drabHost defaultPath [("LANG", "C")] =
      .ok { display := { noColor := true } } :=
    eq_ok_of_toOption (by decide +kernel)
  have hjson : ¬ Environment.HoldsJson [("LANG", "C"), displayName] "display" :=
    fun h => h ":0" (by decide) (by decide)
  exact ⟨literal_drabHost, hagree, hok,
    (outcome_of_agreeOn drabHost defaultPath _ _ literal_drabHost hagree).2.2.1 _ hok "display"
    (by decide) hjson⟩

end Settings

end PipelineRuns
