import PipelineRuns.Proofs.Variables
import PipelineRuns.Settings.Token

/-!
# Placeholders that no variable fills

A text of a settings file stands for a variable when it is, as a whole, `${NAME}` or `$NAME`, with
blanks around the name or without (`Placeholder.name?_eq_some_iff`). Where there is no such variable
a load leaves the text as it is, so settings can have a token that is a placeholder still.

Placeholders are told from tokens once more when the token is looked up, and there by their first
two characters alone. So the two forms come apart. One in braces counts for nothing, and the token
is looked for as if the settings gave none. One without braces is taken for a token.

The text is followed on its way from the file: through the document (`Placeholder.get_fillEntries`),
through the section (`KubeSettings.field_token_of_read`) and through the load
(`Settings.token_of_load`). What the look-up makes of it depends on its form alone
(`Token.isUsable_bare`, `Token.not_isUsable_braced`).

Main statement: `Token.resolve_of_unfilled`. After it comes a file whose placeholder is sent as the
token.
-/

namespace PipelineRuns

theorem Value.entries?_eq_some_iff {v : Value} {m : Mapping} :
    v.entries? = some m ↔ v = .mapping m := by
  cases v <;> simp [entries?]

theorem Value.text?_eq_some_iff {v : Value} {s : String} : v.text? = some s ↔ v = .text s := by
  cases v <;> simp [text?]

/-! ### The forms of a placeholder -/

namespace Placeholder

variable {env : Environment} {s n x : String}

/-- The placeholder in braces. -/
def braced (x : String) : String := "$\x7b" ++ x ++ "\x7d"

/-- The placeholder without braces. -/
def bare (x : String) : String := "$" ++ x

theorem toList_braced (x : String) :
    (braced x).toList = '$' :: '\x7b' :: (x.toList ++ ['\x7d']) := by
  simp [braced]

theorem toList_bare (x : String) : (bare x).toList = '$' :: x.toList := by
  simp [bare]

theorem braced?_eq_some_iff {s n : List Char} : braced? s = some n ↔ s = n ++ ['\x7d'] := by
  unfold braced?
  constructor
  · intro h
    split at h
    · next hlast =>
      obtain ⟨hne, hlast⟩ := List.getLast?_eq_some_iff.mp hlast
      obtain rfl := Option.some.inj h
      rw [hlast, List.dropLast_concat]
    · exact nomatch h
  · rintro rfl
    rw [List.getLast?_concat, List.dropLast_concat]
    rfl

theorem name?_braced (x : String) : name? (braced x) = some (Text.strip x) := by
  have hinner : braced? (x.toList ++ ['\x7d']) = some x.toList := braced?_eq_some_iff.mpr rfl
  unfold name?
  rw [toList_braced]
  change (braced? (x.toList ++ ['\x7d'])).map (fun n => String.ofList (Text.trim n)) = _
  rw [hinner]
  rfl

theorem name?_bare (h : x.toList.head? ≠ some '\x7b') : name? (bare x) = some (Text.strip x) := by
  unfold name?
  rw [toList_bare]
  split
  · next heq =>
    rw [(List.cons.inj heq).2] at h
    exact absurd rfl h
  · next heq =>
    rw [← (List.cons.inj heq).2]
    rfl
  · next hother => exact absurd rfl (hother x.toList)

/-- **What a load recognises.** Placeholders are the texts of both forms and no others. -/
theorem name?_eq_some_iff :
    name? s = some n ↔ ∃ x, n = Text.strip x ∧
      (s = braced x ∨ (s = bare x ∧ x.toList.head? ≠ some '\x7b')) := by
  constructor
  · intro h
    unfold name? at h
    split at h
    · next rest heq =>
      obtain ⟨inner, hinner, rfl⟩ := Option.map_eq_some_iff.mp h
      rw [braced?_eq_some_iff.mp hinner] at heq
      refine ⟨String.ofList inner, by rw [Text.strip, String.toList_ofList], Or.inl ?_⟩
      rw [← String.toList_inj, heq, toList_braced, String.toList_ofList]
    · next rest hopen heq =>
      -- Behind the sign stands no brace, or the text would have been taken for the other form.
      refine ⟨String.ofList rest, ?_, Or.inr ⟨?_, ?_⟩⟩
      · rw [Text.strip, String.toList_ofList]
        exact (Option.some.inj h).symm
      · rw [← String.toList_inj, heq, toList_bare, String.toList_ofList]
      · rw [String.toList_ofList]
        cases rest with
        | nil => simp
        | cons c rest =>
          intro hc
          obtain rfl : c = '\x7b' := Option.some.inj hc
          exact hopen rest rfl
    · exact nomatch h
  · rintro ⟨x, rfl, rfl | ⟨rfl, hopen⟩⟩
    · exact name?_braced x
    · exact name?_bare hopen

/-! ### What a load makes of one -/

/-- A placeholder for no variable stays as it is. -/
theorem resolve_of_get?_eq_none (hname : name? s = some n) (hnone : env.get? n = none) :
    resolve env s = s := by
  unfold resolve
  rw [hname]
  dsimp only
  rw [hnone]
  rfl

/-- Filling placeholders keeps the keys of a mapping, and with them the look-ups. -/
theorem get?_fillEntries (env : Environment) (m : Mapping) (key : String) :
    Mapping.get? (fillEntries env m) key = (Mapping.get? m key).map (fill env) := by
  induction m with
  | nil => rfl
  | cons e rest ih =>
    obtain ⟨k, v⟩ := e
    rw [fillEntries, Mapping.get?_cons, Mapping.get?_cons]
    split
    · rfl
    · exact ih

theorem get_fillEntries (env : Environment) (m : Mapping) (key : String) :
    Mapping.get (fillEntries env m) key = fill env (Mapping.get m key) := by
  unfold Mapping.get
  rw [get?_fillEntries]
  cases Mapping.get? m key with
  | none => rw [Option.map_none, Option.getD_none, fill.eq_def]
  | some v => rfl

end Placeholder

/-! ### The token of a file -/

/-- The token of a section is that of its field. -/
theorem KubeSettings.field_token_of_read {s : SectionSource} {kube : KubeSettings}
    (h : read s = .ok kube) : s.field "token" none Field.textOrNull = .ok kube.token := by
  unfold read at h
  split at h
  · next htoken _ _ _ _ _ =>
    obtain rfl := Except.ok.inj h
    exact htoken
  · exact nomatch h

namespace Settings

variable {host : Host} {path : FilePath} {env : Environment} {t : String}

theorem entriesOf_mapping (m : Mapping) : entriesOf (.mapping m) = .ok m := by
  unfold entriesOf
  cases m with
  | nil => rfl
  | cons e rest => rfl

theorem eq_of_valuesOf {doc m values : Mapping} {name : String} (hget : doc.get name = .mapping m)
    (h : valuesOf doc name = .ok values) : values = m := by
  unfold valuesOf at h
  rw [hget] at h
  cases m with
  | nil => exact (Except.ok.inj h).symm
  | cons e rest =>
    have htruthy : (Value.mapping (e :: rest)).isTruthy = true := rfl
    rw [if_pos htruthy] at h
    dsimp only at h
    split at h
    · exact (Except.ok.inj h).symm
    · exact nomatch h

/-- The text that a document gives as the token. -/
def tokenText? (v : Value) : Option String := do
  let doc ← v.entries?
  let kube ← (doc.get "kube").entries?
  (kube.get "token").text?

/-- The file at a path gives a text as the token. -/
structure GivesToken (host : Host) (path : FilePath) (t : String) : Prop where
  isFile : host.files.isFile path = true
  gives : ∃ content v,
    host.files.readText path = .ok content ∧ Yaml.parse content = .ok v ∧ tokenText? v = some t

theorem exists_of_tokenText? {v : Value} (h : tokenText? v = some t) :
    ∃ doc kube : Mapping, v = .mapping doc ∧ doc.get "kube" = .mapping kube ∧
      kube.get? "token" = some (.text t) := by
  obtain ⟨doc, hdoc, h⟩ := Option.bind_eq_some_iff.mp h
  obtain ⟨kube, hkube, h⟩ := Option.bind_eq_some_iff.mp h
  refine ⟨doc, kube, Value.entries?_eq_some_iff.mp hdoc, Value.entries?_eq_some_iff.mp hkube, ?_⟩
  have htoken : kube.get "token" = .text t := Value.text?_eq_some_iff.mp h
  unfold Mapping.get at htoken
  cases hget : kube.get? "token" with
  | none =>
    rw [hget] at htoken
    exact nomatch htoken
  | some v =>
    rw [hget] at htoken
    exact congrArg some htoken

/-- The values of the section on the cluster, with placeholders filled, have the token of the
document. -/
theorem get?_of_tokenText? {v : Value} (hgives : tokenText? v = some t) {doc values : Mapping}
    (hdoc : entriesOf (Placeholder.fill env v) = .ok doc)
    (hvalues : valuesOf doc KubeSettings.family.name = .ok values) :
    values.get? "token" = some (.text (Placeholder.resolve env t)) := by
  obtain ⟨entries, kube, rfl, hkube, htoken⟩ := exists_of_tokenText? hgives
  rw [Placeholder.fill, entriesOf_mapping] at hdoc
  obtain rfl := Except.ok.inj hdoc
  have hget : Mapping.get (Placeholder.fillEntries env entries) "kube" =
      .mapping (Placeholder.fillEntries env kube) := by
    rw [Placeholder.get_fillEntries, hkube, Placeholder.fill]
  obtain rfl := eq_of_valuesOf hget hvalues
  rw [Placeholder.get?_fillEntries, htoken, Option.map_some, Placeholder.fill]

/-- A section has the token that is given for it, whatever its variables hold. -/
theorem token_of_alone {values : Mapping} {kube : KubeSettings}
    (hgiven : values.get? "token" = some (.text t))
    (h : KubeSettings.family.alone env values = .ok kube) : kube.token = some t := by
  unfold Section.alone at h
  split at h
  · next a hread =>
    obtain rfl := Except.ok.inj h
    -- The variable of the field is asked only where nothing is given.
    have hfield := KubeSettings.field_token_of_read hread
    unfold SectionSource.field SectionSource.value? at hfield
    rw [hgiven] at hfield
    exact (Except.ok.inj hfield).symm
  · exact nomatch h

/-- **The token of a load.** Settings that are read from a file have the token of the file, with
placeholders filled. -/
theorem token_of_load (hgives : GivesToken host path t) {settings : Settings}
    (hload : (load host path).settings = .ok settings) :
    settings.kube.token = some (Placeholder.resolve host.environment t) := by
  obtain ⟨hfile, content, v, hread, hparse, htoken⟩ := hgives
  have houtcome : outcome host path host.environment = .ok settings := hload
  rw [outcome_eq] at houtcome
  obtain ⟨given, hsources, hassemble⟩ := exists_of_bind_eq_ok houtcome
  unfold sources at hsources
  rw [if_pos hfile, hread] at hsources
  change Yaml.parse content >>= documentSources host.environment = .ok given at hsources
  rw [hparse] at hsources
  obtain ⟨filled, values, kube, display, logging, hfilled, hvalues, hkube, rfl⟩ :=
    exists_of_documentSources hsources
  -- Sections from a file are built already, so assembling them does not change the token.
  rw [assemble_built (holdsJson_of_assemble hassemble)] at hassemble
  obtain rfl := Except.ok.inj hassemble
  exact token_of_alone (get?_of_tokenText? htoken hfilled hvalues) hkube

end Settings

/-! ### Looking up the token -/

namespace Token

variable {captured : Environment} {files : FileTree} {kube : KubeSettings} {x : String}

theorem isUsable_iff {token : String} :
    isUsable token = true ↔ token ≠ "" ∧ ¬ "$\x7b".toList <+: token.toList := by
  unfold isUsable
  rw [Bool.and_eq_true, decide_eq_true_eq, Bool.not_eq_true', Bool.eq_false_iff]
  exact and_congr_right (fun _ => not_congr List.isPrefixOf_iff_prefix)

theorem not_isUsable_braced (x : String) : isUsable (Placeholder.braced x) = false := by
  rw [Bool.eq_false_iff, Ne, isUsable_iff]
  rintro ⟨-, hopen⟩
  refine hopen ?_
  rw [Placeholder.toList_braced]
  exact List.prefix_append ['$', '\x7b'] (x.toList ++ ['\x7d'])

theorem isUsable_bare (h : x.toList.head? ≠ some '\x7b') :
    isUsable (Placeholder.bare x) = true := by
  rw [isUsable_iff]
  constructor
  · intro hempty
    have hnil := Placeholder.toList_bare x
    rw [hempty] at hnil
    exact nomatch hnil
  · rw [Placeholder.toList_bare]
    rintro ⟨rest, hrest⟩
    have hx : x.toList = '\x7b' :: rest := (List.cons.inj hrest).2.symm
    rw [hx] at h
    exact h rfl

theorem resolve_of_isUsable (h : isUsable (kube.token.getD "") = true) :
    resolve captured files kube = .ok kube.token :=
  if_pos h

/-- A token that cannot be used might as well not be given. -/
theorem resolve_of_not_isUsable (h : isUsable (kube.token.getD "") = false) :
    resolve captured files kube = resolve captured files { kube with token := none } := by
  have hnone : isUsable ((none : Option String).getD "") = false := by decide
  unfold resolve
  rw [if_neg (Bool.eq_false_iff.mp h)]
  dsimp only
  rw [if_neg (Bool.eq_false_iff.mp hnone)]

/-- **Placeholders that are left over.** Let a file give as the token a placeholder for a variable
that is not set when it is loaded. The settings have the placeholder as their token. Whenever the
token is looked up later, a placeholder in braces leads to what settings without a token lead to:
the token file, the variables that are captured then, or nothing. A placeholder without braces is
itself the token that is found. -/
theorem resolve_of_unfilled {host : Host} {path : FilePath} {settings : Settings} {t name : String}
    (hgives : Settings.GivesToken host path t) (hname : Placeholder.name? t = some name)
    (hnone : host.environment.get? name = none)
    (hload : (Settings.load host path).settings = .ok settings) (captured : Environment)
    (files : FileTree) :
    settings.kube.token = some t ∧
    ((∃ x, t = Placeholder.braced x) →
      resolve captured files settings.kube =
        resolve captured files { settings.kube with token := none }) ∧
    ((∀ x, t ≠ Placeholder.braced x) → resolve captured files settings.kube = .ok (some t)) := by
  have htoken : settings.kube.token = some t := by
    rw [Settings.token_of_load hgives hload, Placeholder.resolve_of_get?_eq_none hname hnone]
  have hgetD : settings.kube.token.getD "" = t := by
    rw [htoken]
    rfl
  refine ⟨htoken, ?_, ?_⟩
  · rintro ⟨x, rfl⟩
    refine resolve_of_not_isUsable ?_
    rw [hgetD]
    exact not_isUsable_braced x
  · intro hbare
    -- The only other form is the one without braces, and the look-up does not know it.
    obtain ⟨x, -, rfl | ⟨rfl, hopen⟩⟩ := Placeholder.name?_eq_some_iff.mp hname
    · exact absurd rfl (hbare x)
    · rw [resolve_of_isUsable (by rw [hgetD]; exact isUsable_bare hopen), htoken]

/-- A file of settings with a token. -/
def settingsText (token : String) : String :=
  "kube:\n  token: " ++ token ++ "\n"

/-- A machine with this file, and a token among its variables. -/
def tokenHost (token : String) : Host where
  environment := [("KUBE_TOKEN", "env-token")]
  files := { entries := [(["tknpac.yaml"], .file (FileTree.encode (settingsText token)))] }

/-- The settings of this file where its token is left as it is. -/
def tokenSettings (token : String) : Settings where
  kube := { token := some token }

theorem givesToken_tokenHost {token : String}
    (hread : (tokenHost token).files.readText Settings.defaultPath = .ok (settingsText token))
    (hparse : (Yaml.parse (settingsText token)).toOption.bind Settings.tokenText? = some token) :
    Settings.GivesToken (tokenHost token) Settings.defaultPath token := by
  obtain ⟨v, hv, htoken⟩ := Option.bind_eq_some_iff.mp hparse
  exact ⟨rfl, settingsText token, v, hread, eq_ok_of_toOption hv, htoken⟩

theorem givesToken_bare :
    Settings.GivesToken (tokenHost "$MISSING") Settings.defaultPath "$MISSING" :=
  givesToken_tokenHost (eq_ok_of_toOption (by decide +kernel)) (by decide +kernel)

theorem load_bare :
    (Settings.load (tokenHost "$MISSING") Settings.defaultPath).settings =
      .ok (tokenSettings "$MISSING") :=
  eq_ok_of_toOption (by decide +kernel)

theorem not_braced_bare (x : String) : "$MISSING" ≠ Placeholder.braced x := by
  intro h
  have hchars := congrArg String.toList h
  rw [Placeholder.toList_braced] at hchars
  have hsecond : 'M' = '\x7b' := (List.cons.inj (List.cons.inj hchars).2).1
  exact absurd hsecond (by decide)

/-- A placeholder without braces is found as the token, with a token among the variables. -/
theorem resolve_of_unfilled_bare :
    Settings.GivesToken (tokenHost "$MISSING") Settings.defaultPath "$MISSING" ∧
      Placeholder.name? "$MISSING" = some "MISSING" ∧
      (tokenHost "$MISSING").environment.get? "MISSING" = none ∧
      (Settings.load (tokenHost "$MISSING") Settings.defaultPath).settings =
        .ok (tokenSettings "$MISSING") ∧
      resolve [("KUBE_TOKEN", "env-token")]
        (tokenHost "$MISSING").files (tokenSettings "$MISSING").kube =
        .ok (some "$MISSING") := by
  have hname : Placeholder.name? "$MISSING" = some "MISSING" := by decide
  have hnone : (tokenHost "$MISSING").environment.get? "MISSING" = none := by decide
  have hresolve := resolve_of_unfilled givesToken_bare hname hnone load_bare
    [("KUBE_TOKEN", "env-token")] (tokenHost "$MISSING").files
  exact ⟨givesToken_bare, hname, hnone, load_bare, hresolve.2.2 not_braced_bare⟩

/-- A placeholder that nothing fills can come out as the token, where settings without a token have
the one among the variables. -/
theorem unfilled_not_skipped :
    ¬ ∀ (host : Host) (path : FilePath) (settings : Settings) (t name : String),
        Settings.GivesToken host path t → Placeholder.name? t = some name →
        host.environment.get? name = none →
        (Settings.load host path).settings = .ok settings →
        resolve (Settings.load host path).captured host.files settings.kube =
          resolve (Settings.load host path).captured host.files
            { settings.kube with token := none } := by
  intro h
  have hsame := h (tokenHost "$MISSING") Settings.defaultPath
    (tokenSettings "$MISSING") "$MISSING" "MISSING" givesToken_bare (by decide)
    (by decide) load_bare
  have hgiven : resolve (tokenHost "$MISSING").environment (tokenHost "$MISSING").files
      (tokenSettings "$MISSING").kube = .ok (some "$MISSING") := rfl
  have habsent : resolve (tokenHost "$MISSING").environment (tokenHost "$MISSING").files
      { (tokenSettings "$MISSING").kube with token := none } = .ok (some "env-token") := rfl
  have hequal : Except.ok (some "$MISSING") = Except.ok (some "env-token") :=
    hgiven.symm.trans (hsame.trans habsent)
  exact absurd (Option.some.inj (Except.ok.inj hequal)) (by decide)

end Token

end PipelineRuns
