import PipelineRuns.Proofs.RoundTrip
import PipelineRuns.Proofs.Tokens

/-!
# The variable of the token, read in two ways

The token of the variable `KUBE_TOKEN` is found in one of two ways. Where a file of settings gives
no token, the variable is read with the section on the cluster, and its value becomes the token of
the settings. Where the file gives a placeholder that nothing fills, the variable is looked up with
the token, in the environment that the load captured.

Two files that differ in this alone (`Settings.AddsToken`) are followed through a load side by side:
one section comes from the other by putting in the placeholder (`KubeSettings.read_withToken`), and
so do the settings, or the same failure comes of both (`Settings.ofDocument_withToken`). What a
section leaves out and what it gives does not change when placeholders are filled
(`Settings.valuesOf_fill`).

The two ways part at the look-up. A token of the settings is found as it is, and the one of the
captured environment without the blanks at its ends.

Main statement: `Token.afterLoad_two_ways`. A variable with a blank at its end is read in two ways
(`Token.afterLoad_not_always_same`).
-/

namespace PipelineRuns

/-! ### Filling what counts as given -/

namespace Placeholder

/-- What does not count as given holds no placeholder. -/
theorem free_of_not_isTruthy {v : Value} (h : v.isTruthy = false) : free v = true := by
  cases v with
  | text s =>
    have hs : s = "" := by simpa [Value.isTruthy] using h
    rw [hs]
    rfl
  | list xs =>
    have hxs : xs = [] := by simpa [Value.isTruthy] using h
    rw [hxs, free, freeItems]
  | mapping m =>
    have hm : m = [] := by simpa [Value.isTruthy] using h
    rw [hm, free, freeEntries]
  | _ => rfl

theorem isTruthy_fillEntries (env : Environment) (m : Mapping) :
    (Value.mapping (fillEntries env m)).isTruthy = (Value.mapping m).isTruthy := by
  cases m with
  | nil => rw [fillEntries]
  | cons e rest => rfl

/-- Filling placeholders keeps the keys of a mapping. -/
theorem all_fst_fillEntries (env : Environment) (p : Value → Bool) (m : Mapping) :
    (fillEntries env m).all (fun e => p e.1) = m.all (fun e => p e.1) := by
  induction m with
  | nil => rw [fillEntries]
  | cons e rest ih =>
    obtain ⟨k, v⟩ := e
    rw [fillEntries, List.all_cons, List.all_cons, ih]

end Placeholder

namespace Settings

variable {env : Environment} {v v' : Value} {doc doc' : Mapping} {name t : String}

theorem entriesOf_fill (env : Environment) (h : entriesOf v = .ok doc) :
    entriesOf (Placeholder.fill env v) = .ok (Placeholder.fillEntries env doc) := by
  unfold entriesOf at h
  split at h
  · split at h
    · next m =>
      obtain rfl := Except.ok.inj h
      rw [Placeholder.fill, entriesOf_mapping]
    · exact nomatch h
  · next hfalsy =>
    obtain rfl := Except.ok.inj h
    have hfalsy : v.isTruthy = false := Bool.eq_false_iff.mpr hfalsy
    rw [Placeholder.fill_of_free env v (Placeholder.free_of_not_isTruthy hfalsy),
      Placeholder.fillEntries]
    unfold entriesOf
    rw [hfalsy]
    rfl

theorem valuesOf_congr (h : doc'.get name = doc.get name) :
    valuesOf doc' name = valuesOf doc name := by
  unfold valuesOf
  rw [h]

/-- **What a document gives for a section stays what it gives** when placeholders are filled. -/
theorem valuesOf_fill (env : Environment) {values : Mapping} (h : valuesOf doc name = .ok values) :
    valuesOf (Placeholder.fillEntries env doc) name = .ok (Placeholder.fillEntries env values) := by
  unfold valuesOf at h ⊢
  rw [Placeholder.get_fillEntries]
  dsimp only at h ⊢
  -- Filling keeps the keys, and it keeps whether there are any.
  split at h
  · next htruthy =>
    split at h
    · next m hget =>
      rw [hget] at htruthy
      split at h
      · next hkeys =>
        obtain rfl := Except.ok.inj h
        rw [hget, Placeholder.fill, Placeholder.isTruthy_fillEntries, if_pos htruthy]
        dsimp only
        rw [Placeholder.all_fst_fillEntries env (fun k => (k.text?).isSome) m, if_pos hkeys]
      · exact nomatch h
    · exact nomatch h
  · next hfalsy =>
    obtain rfl := Except.ok.inj h
    have hfree := Placeholder.free_of_not_isTruthy (Bool.eq_false_iff.mpr hfalsy)
    rw [Placeholder.fill_of_free env _ hfree, if_neg hfalsy, Placeholder.fillEntries]

end Settings

/-! ### A token put into settings -/

/-- The settings with another token. -/
def KubeSettings.withToken (t : String) (kube : KubeSettings) : KubeSettings :=
  { kube with token := some t }

/-- The settings with another token. -/
def Settings.withToken (t : String) (settings : Settings) : Settings :=
  { settings with kube := settings.kube.withToken t }

namespace SectionSource

variable {s s' : SectionSource} {name : String} {v : Value}

/-- What is given comes before the variable. -/
theorem value?_of_given (h : s.given.get? name = some v) : s.value? name = some v := by
  unfold value?
  rw [h]
  rfl

theorem value?_of_not_given (h : s.given.get? name = none) :
    s.value? name = (s.environment.fold? (s.stem ++ name)).map .text := by
  unfold value?
  rw [h]
  rfl

variable {α : Type}

theorem field_of_value? (h : s'.value? name = s.value? name) (hplace : s'.place = s.place)
    (absent : α) (read : String → Value → Except Issue α) :
    s'.field name absent read = s.field name absent read := by
  unfold field
  rw [h, hplace]

theorem field_of_some (h : s.value? name = some v) (absent : α)
    (read : String → Value → Except Issue α) :
    s.field name absent read = read (s.place ++ name) v := by
  unfold field
  rw [h]

theorem field_of_none (h : s.value? name = none) (absent : α)
    (read : String → Value → Except Issue α) : s.field name absent read = .ok absent := by
  unfold field
  rw [h]

end SectionSource

/-- A section that differs in the token alone is the other one with this token, or has the same
issues. -/
theorem KubeSettings.read_withToken {s s' : SectionSource} (hplace : s'.place = s.place)
    (hsame : ∀ f ∈ KubeSettings.family.fields, f ≠ "token" → s'.value? f = s.value? f)
    {a : Option String} {t : String} (ha : s.field "token" none Field.textOrNull = .ok a)
    (ht : s'.field "token" none Field.textOrNull = .ok (some t)) :
    read s' = (read s).map (withToken t) := by
  have hfield {α : Type} (f : String) (hf : f ∈ KubeSettings.family.fields) (hne : f ≠ "token")
    (absent : α)
      (r : String → Value → Except Issue α) : s'.field f absent r = s.field f absent r :=
    SectionSource.field_of_value? (hsame f hf hne) hplace absent r
  unfold read
  rw [ha, ht, hfield "namespace" (by decide) (by decide), hfield "api_url" (by decide) (by decide),
    hfield "token_file" (by decide) (by decide), hfield "ca_cert" (by decide) (by decide),
    hfield "verify_ssl" (by decide) (by decide), hfield "timeout" (by decide) (by decide),
    hfield "kubeconfig" (by decide) (by decide)]
  -- Nothing is wrong with the token, so either all other fields can be read or their issues are
  -- those of both.
  rcases s.field "namespace" "" Field.text with i | ns
  · rfl
  rcases s.field "api_url" "" Field.text with i | apiUrl
  · rfl
  rcases s.field "token_file" none Field.textOrNull with i | tokenFile
  · rfl
  rcases s.field "ca_cert" none Field.textOrNull with i | bundle
  · rfl
  rcases s.field "verify_ssl" true Field.truth with i | verify
  · rfl
  rcases s.field "timeout" 30 (fun place => Field.integer place timeoutBounds.1 timeoutBounds.2)
    with i | timeout
  · rfl
  rcases s.field "kubeconfig" none Field.textOrNull with i | kubeconfig
  · rfl
  · rfl

theorem Section.alone_map {α : Type} {s : Section α} {env : Environment} {given given' : Mapping}
    {f : α → α} (h : s.read ⟨given', env, s.stem, ""⟩ = (s.read ⟨given, env, s.stem, ""⟩).map f) :
    s.alone env given' = (s.alone env given).map f := by
  unfold alone
  rw [h]
  cases s.read ⟨given, env, s.stem, ""⟩ with
  | error issues => rfl
  | ok a => rfl

/-- The token file of a section is that of its field. -/
theorem KubeSettings.field_tokenFile_of_read {s : SectionSource} {kube : KubeSettings}
    (h : read s = .ok kube) : s.field "token_file" none Field.textOrNull = .ok kube.tokenFile := by
  unfold read at h
  split at h
  · next htokenFile _ _ _ _ =>
    obtain rfl := Except.ok.inj h
    exact htokenFile
  · exact nomatch h

namespace Settings

variable {env : Environment} {v v' : Value} {doc doc' : Mapping} {t : String}

/-- The file at a path holds a document with these entries. -/
structure Holds (host : Host) (path : FilePath) (doc : Mapping) : Prop where
  isFile : host.files.isFile path = true
  holds : ∃ content v,
    host.files.readText path = .ok content ∧ Yaml.parse content = .ok v ∧ entriesOf v = .ok doc

/-- Both documents give the same, except that the second one gives a text as the token and the first
one no token. No token file is given by either. -/
structure AddsToken (doc doc' : Mapping) (t : String) : Prop where
  display : doc'.get "display" = doc.get "display"
  logging : doc'.get "logging" = doc.get "logging"
  kube : ∃ values values', valuesOf doc "kube" = .ok values ∧ valuesOf doc' "kube" = .ok values' ∧
    values.get? "token" = none ∧ values'.get? "token" = some (.text t) ∧
    values.get? "token_file" = none ∧
    ∀ key, key ≠ "token" → values'.get? key = values.get? key

theorem alone_withToken {values values' : Mapping} {text : String}
    (hvar : env.fold? "kube_token" = some text) (hleft : values.get? "token" = none)
    (hset : values'.get? "token" = some (.text t))
    (hsame : ∀ key, key ≠ "token" → values'.get? key = values.get? key) :
    KubeSettings.family.alone env values' =
      (KubeSettings.family.alone env values).map (KubeSettings.withToken t) := by
  let source : SectionSource := ⟨values, env, "kube_", ""⟩
  let source' : SectionSource := ⟨values', env, "kube_", ""⟩
  have hplace : source'.place = source.place := rfl
  have hsources :
      ∀ f ∈ KubeSettings.family.fields, f ≠ "token" → source'.value? f = source.value? f := by
    intro f _ hne
    unfold SectionSource.value?
    exact congrArg (fun given : Option Value => given.or _) (hsame f hne)
  have hleftValue : source.value? "token" = some (.text text) :=
    (SectionSource.value?_of_not_given hleft).trans (congrArg (Option.map Value.text) hvar)
  have hsetValue : source'.value? "token" = some (.text t) := SectionSource.value?_of_given hset
  have hleftField : source.field "token" none Field.textOrNull = .ok (some text) :=
    SectionSource.field_of_some hleftValue none Field.textOrNull
  have hsetField : source'.field "token" none Field.textOrNull = .ok (some t) :=
    SectionSource.field_of_some hsetValue none Field.textOrNull
  have hread :
      KubeSettings.family.read source' = (KubeSettings.family.read source).map
      (KubeSettings.withToken t) :=
    KubeSettings.read_withToken hplace hsources hleftField hsetField
  exact Section.alone_map (s := KubeSettings.family) hread

/-- A section that is built already is put together with the others as it is. -/
theorem assemble_withToken (kube : KubeSettings) (display : Given DisplaySettings)
    (logging : Given LoggingSettings) :
    assemble env { kube := .built (kube.withToken t), display, logging } =
      (assemble env { kube := .built kube, display, logging }).map (withToken t) := by
  unfold assemble
  rcases KubeSettings.family.whole? env with f | kubeExtra
  · rfl
  rcases DisplaySettings.family.whole? env with f | displayExtra
  · rfl
  rcases LoggingSettings.family.whole? env with f | loggingExtra
  · rfl
  change (DisplaySettings.family.part env (DisplaySettings.family.combined display displayExtra) >>=
    fun d => _) =
    Except.map _ (DisplaySettings.family.part env
      (DisplaySettings.family.combined display displayExtra) >>= fun d => _)
  rcases DisplaySettings.family.part env
    (DisplaySettings.family.combined display displayExtra) with f | d
  · rfl
  change (LoggingSettings.family.part env (LoggingSettings.family.combined logging loggingExtra) >>=
    fun l => _) =
    Except.map _ (LoggingSettings.family.part env
      (LoggingSettings.family.combined logging loggingExtra) >>= fun l => _)
  rcases LoggingSettings.family.part env
    (LoggingSettings.family.combined logging loggingExtra) with f | l
  · rfl
  -- All three sections are there; each has issues or none.
  rcases d with issues | d
  · rfl
  rcases l with issues | l
  · rfl
  · rfl

theorem ofDocument_of_values {filled values : Mapping}
    (hfilled : entriesOf (Placeholder.fill env v) = .ok filled)
    (hvalues : valuesOf filled "kube" = .ok values) :
    ofDocument env v = (do
      let kube ← KubeSettings.family.alone env values
      let display ← sectionOf DisplaySettings.family env filled
      let logging ← sectionOf LoggingSettings.family env filled
      assemble env { kube := .built kube, display, logging }) := by
  have hkube : sectionOf KubeSettings.family env filled =
      (do return .built (← KubeSettings.family.alone env values)) := by
    unfold sectionOf
    change (valuesOf filled "kube" >>= fun values => _) = _
    rw [hvalues]
    rfl
  unfold ofDocument
  rw [hfilled]
  change (sectionOf KubeSettings.family env filled >>= fun kube => _) = _
  rw [hkube, bind_assoc]
  rfl

theorem sectionOf_congr {α : Type} (s : Section α) (h : doc'.get s.name = doc.get s.name) :
    sectionOf s env (Placeholder.fillEntries env doc') =
      sectionOf s env (Placeholder.fillEntries env doc) := by
  have hvalues :
      valuesOf (Placeholder.fillEntries env doc') s.name =
        valuesOf (Placeholder.fillEntries env doc) s.name :=
    valuesOf_congr (by rw [Placeholder.get_fillEntries, Placeholder.get_fillEntries, h])
  unfold sectionOf
  rw [hvalues]

/-- **Settings of two files that differ in the token.** Those of the second are those of the first
with its token, or both fail alike. -/
theorem ofDocument_withToken {text : String} (hvar : env.fold? "kube_token" = some text)
    (hv : entriesOf v = .ok doc) (hv' : entriesOf v' = .ok doc') (hadds : AddsToken doc doc' t)
    (hkept : Placeholder.resolve env t = t) :
    ofDocument env v' = (ofDocument env v).map (withToken t) := by
  obtain ⟨values, values', hvalues, hvalues', hleft, hset, -, hsame⟩ := hadds.kube
  have hkube : KubeSettings.family.alone env (Placeholder.fillEntries env values') =
      (KubeSettings.family.alone env (Placeholder.fillEntries env values)).map
      (KubeSettings.withToken t) := by
    refine alone_withToken hvar ?_ ?_ ?_
    · rw [Placeholder.get?_fillEntries, hleft]
      rfl
    · rw [Placeholder.get?_fillEntries, hset, Option.map_some, Placeholder.fill, hkept]
    · intro key hne
      rw [Placeholder.get?_fillEntries, Placeholder.get?_fillEntries, hsame key hne]
  rw [ofDocument_of_values (entriesOf_fill env hv) (valuesOf_fill env hvalues),
    ofDocument_of_values (entriesOf_fill env hv') (valuesOf_fill env hvalues'), hkube,
    sectionOf_congr DisplaySettings.family hadds.display,
    sectionOf_congr LoggingSettings.family hadds.logging]
  -- The three sections are read in order; what fails first fails on both sides alike.
  rcases KubeSettings.family.alone env (Placeholder.fillEntries env values) with f | kube
  · rfl
  rcases sectionOf DisplaySettings.family env (Placeholder.fillEntries env doc) with f | display
  · rfl
  rcases sectionOf LoggingSettings.family env (Placeholder.fillEntries env doc) with f | logging
  · rfl
  · exact assemble_withToken kube display logging

/-- What is loaded from a file is made of its document. -/
theorem exists_load_of_holds {host : Host} {path : FilePath} (h : Holds host path doc) :
    ∃ v, entriesOf v = .ok doc ∧ (load host path).settings = ofDocument host.environment v := by
  obtain ⟨content, v, hread, hparse, hentries⟩ := h.holds
  refine ⟨v, hentries, ?_⟩
  change ofPath host path = _
  unfold ofPath
  rw [h.isFile, hread]
  change Yaml.parse content >>= ofDocument host.environment = _
  rw [hparse]
  rfl

/-- The section on the cluster is that of the values that the document gives for it. -/
theorem alone_of_ofDocument {filled values : Mapping} {settings : Settings}
    (hfilled : entriesOf (Placeholder.fill env v) = .ok filled)
    (hvalues : valuesOf filled "kube" = .ok values) (h : ofDocument env v = .ok settings) :
    KubeSettings.family.alone env values = .ok settings.kube := by
  rw [ofDocument_eq] at h
  obtain ⟨given, hgiven, hassemble⟩ := exists_of_bind_eq_ok h
  obtain ⟨_, _, kube, display, logging, hdoc, hgot, hkube, rfl⟩ := exists_of_documentSources hgiven
  obtain rfl := Except.ok.inj (hdoc.symm.trans hfilled)
  obtain rfl := Except.ok.inj (hgot.symm.trans hvalues)
  rw [assemble_built (holdsJson_of_assemble hassemble)] at hassemble
  obtain rfl := Except.ok.inj hassemble
  exact hkube

/-- Where nothing else is given, the variable of the token is the token, and there is no token
file. -/
theorem token_of_variable {values : Mapping} {text : String} {kube : KubeSettings}
    (hvar : env.fold? "kube_token" = some text) (hfile : env.fold? "kube_token_file" = none)
    (htoken : values.get? "token" = none) (htokenFile : values.get? "token_file" = none)
    (h : KubeSettings.family.alone env values = .ok kube) :
    kube.token = some text ∧ kube.tokenFile = none := by
  unfold Section.alone at h
  split at h
  · next a hread =>
    obtain rfl := Except.ok.inj h
    have hfound := KubeSettings.field_token_of_read hread
    have hmissing := KubeSettings.field_tokenFile_of_read hread
    have hvalue : SectionSource.value? ⟨values, env, "kube_", ""⟩ "token" = some (.text text) :=
      (SectionSource.value?_of_not_given htoken).trans (congrArg (Option.map Value.text) hvar)
    have hnoValue : SectionSource.value? ⟨values, env, "kube_", ""⟩ "token_file" = none :=
      (SectionSource.value?_of_not_given htokenFile).trans (congrArg (Option.map Value.text) hfile)
    have hgiven := (SectionSource.field_of_some hvalue none Field.textOrNull).symm.trans hfound
    have hnotGiven :=
      (SectionSource.field_of_none hnoValue none Field.textOrNull).symm.trans hmissing
    exact ⟨(Except.ok.inj hgiven).symm, (Except.ok.inj hnotGiven).symm⟩
  · exact nomatch h

end Settings

/-! ### The token after a load -/

namespace Token

variable {captured : Environment} {files : FileTree} {kube : KubeSettings} {given value x : String}

/-- The token that is found right after settings are loaded. -/
def afterLoad (host : Host) (path : FilePath) : Except Failure (Option String) :=
  let loaded := Settings.load host path
  loaded.settings >>= fun settings => resolve loaded.captured host.files settings.kube

/-- The variable in the captured environment is read without the blanks at its ends. -/
theorem ofEnvironment_of_value (h : captured.get? "KUBE_TOKEN" = some value) (hne : value ≠ "") :
    ofEnvironment captured files = .ok (some (Text.strip value)) := by
  have hvalue : captured.value "KUBE_TOKEN" = value := by
    unfold Environment.value
    rw [h]
    rfl
  unfold ofEnvironment
  rw [hvalue, if_pos hne]

/-- A token of the settings is found as it is. -/
theorem resolve_of_token (h : kube.token = some given) (hfile : kube.tokenFile = none)
    (hvar : captured.get? "KUBE_TOKEN" = some value) (hne : value ≠ "") :
    resolve captured files kube =
      .ok (some (if isUsable given then given else Text.strip value)) := by
  have hgetD : kube.token.getD "" = given := by
    rw [h]
    rfl
  by_cases husable : isUsable given = true
  · rw [if_pos husable, resolve_of_isUsable (by rwa [hgetD]), h]
  · have hleft : LeftToEnvironment kube :=
      ⟨by rw [hgetD]; exact Bool.eq_false_iff.mpr husable, by rw [hfile]; rfl⟩
    rw [if_neg husable, resolve_of_left hleft, ofEnvironment_of_value hvar hne]

/-- A variable that is set is found under its name in small letters, or another one is that differs
in case. -/
theorem exists_fold?_of_get? {env : Environment} {name : String} (h : env.get? name = some value) :
    ∃ other, env.fold? (Text.toLower name) = some other := by
  obtain ⟨before, after, rfl, -⟩ := List.lookup_eq_some_iff.mp h
  have hfind : ((before ++ (name, value) :: after).reverse.find?
      (fun e => Text.toLower e.1 = Text.toLower name)).isSome = true := by
    rw [List.find?_isSome]
    exact ⟨(name, value), by simp, by simp⟩
  obtain ⟨e, he⟩ := Option.isSome_iff_exists.mp hfind
  unfold Environment.fold?
  rw [he]
  exact ⟨e.2, rfl⟩

theorem fold?_variable (value : String) :
    Environment.fold? [("KUBE_TOKEN", value)] "kube_token" = some value := by
  have hname : Text.toLower "KUBE_TOKEN" = "kube_token" := by decide
  unfold Environment.fold?
  rw [List.reverse_singleton, List.find?_singleton, if_pos (by simp [hname])]
  rfl

/-- **One variable, two ways.** Let `KUBE_TOKEN` be set to a value that can be a token, and let no
token file be named. Take two files of settings that differ in that the first leaves the token out
and the second gives a placeholder in braces for a variable that is not set. Either both loads fail,
for one reason, or the second way leads to the value of the variable without the blanks at its ends,
and the first to what is set last under the name of the variable, case aside, with its blanks, if
that can be a token. So where there is no other variable of this name, both ways lead to one token
exactly when there are no blanks at the ends of the value. -/
theorem afterLoad_two_ways {host host' : Host} {path path' : FilePath} {doc doc' : Mapping}
    (hsame : host'.environment = host.environment) (hleft : Settings.Holds host path doc)
    (hset : Settings.Holds host' path' doc')
    (hadds : Settings.AddsToken doc doc' (Placeholder.braced x))
    (hname : host.environment.get? (Text.strip x) = none)
    (hvar : host.environment.get? "KUBE_TOKEN" = some value) (husable : isUsable value = true)
    (hfile : host.environment.fold? "kube_token_file" = none) :
    ∃ given, host.environment.fold? "kube_token" = some given ∧
      (host.environment.restrict (· = "kube_token") = [("KUBE_TOKEN", value)] → given = value) ∧
      ((∃ f, afterLoad host path = .error f ∧ afterLoad host' path' = .error f) ∨
        afterLoad host' path' = .ok (some (Text.strip value)) ∧
          afterLoad host path = .ok (some (if isUsable given then given else Text.strip value)) ∧
          (given = value →
            (afterLoad host path = afterLoad host' path' ↔ Text.strip value = value))) := by
  have hne : value ≠ "" := (isUsable_iff.mp husable).1
  obtain ⟨given, hfold⟩ := exists_fold?_of_get? hvar
  change host.environment.fold? "kube_token" = some given at hfold
  refine ⟨given, hfold, ?_, ?_⟩
  · intro honly
    rw [← Environment.fold?_restrict host.environment (p := (· = "kube_token")) rfl, honly,
      fold?_variable] at hfold
    exact (Option.some.inj hfold).symm
  obtain ⟨v, hv, hload⟩ := Settings.exists_load_of_holds hleft
  obtain ⟨v', hv', hload'⟩ := Settings.exists_load_of_holds hset
  have hkept : Placeholder.resolve host.environment (Placeholder.braced x) = Placeholder.braced x :=
    Placeholder.resolve_of_get?_eq_none (Placeholder.name?_braced x) hname
  -- Both loads are told by the first one.
  rw [hsame, Settings.ofDocument_withToken hfold hv hv' hadds hkept] at hload'
  unfold afterLoad
  dsimp only
  rw [hload, hload']
  cases hdocument : Settings.ofDocument host.environment v with
  | error f => exact Or.inl ⟨f, rfl, rfl⟩
  | ok settings =>
    obtain ⟨values, values', hvalues, -, htoken, -, htokenFile, -⟩ := hadds.kube
    have halone := Settings.alone_of_ofDocument (Settings.entriesOf_fill host.environment hv)
      (Settings.valuesOf_fill host.environment hvalues) hdocument
    obtain ⟨hgiven, hnoFile⟩ := Settings.token_of_variable hfold hfile
      (by rw [Placeholder.get?_fillEntries, htoken]; rfl)
      (by rw [Placeholder.get?_fillEntries, htokenFile]; rfl) halone
    have hfirst : resolve host.environment host.files settings.kube =
        .ok (some (if isUsable given then given else Text.strip value)) :=
      resolve_of_token hgiven hnoFile hvar hne
    have hsecond :
        resolve host'.environment host'.files (settings.withToken (Placeholder.braced x)).kube =
        .ok (some (Text.strip value)) := by
      have hleftOver : LeftToEnvironment (settings.withToken (Placeholder.braced x)).kube :=
        ⟨not_isUsable_braced x, congrArg (fun file : Option String => file.getD "") hnoFile⟩
      rw [resolve_of_left hleftOver, hsame, ofEnvironment_of_value hvar hne]
    refine Or.inr ⟨hsecond, hfirst, ?_⟩
    rintro rfl
    change resolve host.environment host.files settings.kube =
      resolve host'.environment host'.files (settings.withToken (Placeholder.braced x)).kube ↔ _
    rw [hfirst, hsecond, if_pos husable, Except.ok.injEq, Option.some.injEq]
    exact eq_comm

/-! ### A variable with blanks at its ends -/

/-- Settings of a namespace. -/
def leftTree : Yaml.Tree := .mapping [("kube", .mapping [("namespace", .text "ci")])]

/-- The same settings with a placeholder as the token. -/
def setTree : Yaml.Tree :=
  .mapping [("kube", .mapping [("namespace", .text "ci"), ("token", .text "$\x7bMISSING\x7d")])]

/-- The files of both settings. -/
def variableFiles : FileTree where
  entries := [(["left.yaml"], .file (FileTree.encode (Yaml.write leftTree))),
    (["set.yaml"], .file (FileTree.encode (Yaml.write setTree)))]

/-- A machine with these files and a variable for the token. -/
def variableHost (value : String) : Host where
  environment := [("KUBE_TOKEN", value)]
  files := variableFiles

/-- What the file without a token gives. -/
def leftDocument : Mapping := [(.text "kube", .mapping [(.text "namespace", .text "ci")])]

/-- What the file with a placeholder gives. -/
def setDocument : Mapping :=
  [(.text "kube",
    .mapping [(.text "namespace", .text "ci"), (.text "token", .text "$\x7bMISSING\x7d")])]

theorem holds_left (value : String) :
    Settings.Holds (variableHost value) (FilePath.ofText "left.yaml") leftDocument where
  isFile := by
    change variableFiles.isFile (FilePath.ofText "left.yaml") = true
    decide +kernel
  holds := ⟨Yaml.write leftTree, leftTree.value, eq_ok_of_toOption (by
    change (variableFiles.readText (FilePath.ofText "left.yaml")).toOption = _
    decide +kernel), Yaml.parse_write (by decide +kernel) (fun _ h => nomatch h), rfl⟩

theorem holds_set (value : String) :
    Settings.Holds (variableHost value) (FilePath.ofText "set.yaml") setDocument where
  isFile := by
    change variableFiles.isFile (FilePath.ofText "set.yaml") = true
    decide +kernel
  holds := ⟨Yaml.write setTree, setTree.value, eq_ok_of_toOption (by
    change (variableFiles.readText (FilePath.ofText "set.yaml")).toOption = _
    decide +kernel), Yaml.parse_write (by decide +kernel) (fun _ h => nomatch h), rfl⟩

theorem addsToken_setDocument :
    Settings.AddsToken leftDocument setDocument (Placeholder.braced "MISSING") where
  display := rfl
  logging := rfl
  kube := by
    refine ⟨[(.text "namespace", .text "ci")],
      [(.text "namespace", .text "ci"), (.text "token", .text "$\x7bMISSING\x7d")], rfl, rfl, rfl,
      ?_, rfl, ?_⟩
    · have hbraced : Placeholder.braced "MISSING" = "$\x7bMISSING\x7d" := by decide
      rw [hbraced]
      rfl
    · intro key hne
      simp [Ne.symm hne]

/-- A token without blanks at its ends is found in both ways. -/
theorem afterLoad_two_ways_tok :
    Settings.Holds (variableHost "tok") (FilePath.ofText "left.yaml") leftDocument ∧
      Settings.Holds (variableHost "tok") (FilePath.ofText "set.yaml") setDocument ∧
      Settings.AddsToken leftDocument setDocument (Placeholder.braced "MISSING") ∧
      (variableHost "tok").environment.get? (Text.strip "MISSING") = none ∧
      (variableHost "tok").environment.get? "KUBE_TOKEN" = some "tok" ∧ isUsable "tok" = true ∧
      (variableHost "tok").environment.fold? "kube_token_file" = none ∧
      afterLoad (variableHost "tok") (FilePath.ofText "left.yaml") =
        afterLoad (variableHost "tok") (FilePath.ofText "set.yaml") := by
  have hname : (variableHost "tok").environment.get? (Text.strip "MISSING") = none := by decide
  have hvar : (variableHost "tok").environment.get? "KUBE_TOKEN" = some "tok" := rfl
  have husable : isUsable "tok" = true := by decide
  have hfile : (variableHost "tok").environment.fold? "kube_token_file" = none := by decide
  refine ⟨holds_left "tok", holds_set "tok", addsToken_setDocument, hname, hvar, husable, hfile, ?_⟩
  obtain ⟨given, -, honly, hboth⟩ := afterLoad_two_ways rfl (holds_left "tok")
    (holds_set "tok") addsToken_setDocument hname hvar husable hfile
  rcases hboth with ⟨f, hfirst, hsecond⟩ | ⟨-, -, hsame⟩
  · exact hfirst.trans hsecond.symm
  · exact (hsame (honly (by decide))).mpr (by decide)

/-- A variable with a blank at each end leads to two tokens: the settings keep the blanks. -/
theorem afterLoad_not_always_same :
    ¬ ∀ (host : Host) (path path' : FilePath) (doc doc' : Mapping) (x value : String),
        Settings.Holds host path doc → Settings.Holds host path' doc' →
        Settings.AddsToken doc doc' (Placeholder.braced x) →
        host.environment.get? (Text.strip x) = none →
        host.environment.get? "KUBE_TOKEN" = some value → isUsable value = true →
        host.environment.fold? "kube_token_file" = none →
        afterLoad host path = afterLoad host path' := by
  intro h
  have hsame := h (variableHost " tok ") (FilePath.ofText "left.yaml")
    (FilePath.ofText "set.yaml") leftDocument setDocument "MISSING" " tok " (holds_left " tok ")
    (holds_set " tok ") addsToken_setDocument (by decide) rfl (by decide) (by decide)
  have hleft :
      afterLoad (variableHost " tok ") (FilePath.ofText "left.yaml") = .ok (some " tok ") :=
    eq_ok_of_toOption (by decide +kernel)
  have hset : afterLoad (variableHost " tok ") (FilePath.ofText "set.yaml") = .ok (some "tok") :=
    eq_ok_of_toOption (by decide +kernel)
  exact absurd (Option.some.inj (Except.ok.inj (hleft.symm.trans (hsame.trans hset)))) (by decide)

end Token

end PipelineRuns
