import PipelineRuns.Kubeconfig
import PipelineRuns.Proofs.Actions

/-!
# When a kubeconfig file gives a context

Loading a kubeconfig file is meant to give a context in any case, an empty one where there is
nothing to be had. It does so where the file is missing, where the system does not deliver it, where
it is not YAML, and where it is something else than a mapping or names no current context.
Everything else has to be of the right kind: the file has to be UTF-8 (`FileTree.IsLegible`), the
parts that the current context names have to be mappings (`Kubeconfig.Selects`), and so do the
values in them that become the context (`Kubeconfig.IsUsable`).

The system may refuse to look at the path at all, and a document may mean a value that has no
counterpart here; in the one case there is no context, and the other is left out.

Main statement: `Kubeconfig.exists_outcome_iff`. A file that is not UTF-8 is seen after it.
-/

namespace PipelineRuns

/-! ### Values of fields -/

namespace Value

/-- A value that a field takes as a text: a text, or bytes in UTF-8. -/
def IsTextual : Value → Prop
  | .text _ => True
  | .bytes content => (Field.utf8? content).isSome = true
  | _ => False

/-- A value that a field takes as a text or as absent. -/
def IsTextualOrNull (v : Value) : Prop := v = .null ∨ v.IsTextual

end Value

namespace Field

variable {place : String} {v : Value}

/-- A field for texts takes texts, and nothing else. -/
theorem exists_text_iff : (∃ s, Field.text place v = .ok s) ↔ v.IsTextual := by
  cases v with
  | bytes content =>
    rw [Field.text, Value.IsTextual]
    cases utf8? content with
    | none => simp
    | some s => simp
  | _ => simp [Field.text, Value.IsTextual]

theorem exists_textOrNull_iff : (∃ s, Field.textOrNull place v = .ok s) ↔ v.IsTextualOrNull := by
  have hmap (x : Except Issue String) : (∃ s, x.map some = .ok s) ↔ ∃ s, x = .ok s := by
    cases x with
    | error issue => simp [Except.map]
    | ok s => simp [Except.map]
  cases v with
  | null => simp [Field.textOrNull, Value.IsTextualOrNull]
  | _ => rw [Field.textOrNull, hmap, exists_text_iff, Value.IsTextualOrNull] <;> simp

end Field

/-! ### Files with a text -/

namespace FileTree

theorem toList_loop (bytes : ByteArray) (i : Nat) (before : List UInt8) :
    ByteArray.toList.loop bytes i before = before.reverse ++ bytes.data.toList.drop i := by
  induction i, before using ByteArray.toList.loop.induct bytes with
  | case1 i before hlt ih =>
    have hlength : i < bytes.data.toList.length := by simpa using hlt
    have hget : bytes.get! i = bytes.data.toList[i] := by
      rw [Array.getElem_toList]
      exact getElem!_pos bytes.data i (by simpa using hlt)
    rw [ByteArray.toList.loop, if_pos hlt, ih, List.drop_eq_getElem_cons hlength, hget,
      List.reverse_cons, List.append_assoc]
    rfl
  | case2 i before hge =>
    have hlength : bytes.data.toList.length ≤ i := by simpa using hge
    rw [ByteArray.toList.loop, if_neg hge, List.drop_eq_nil_of_le hlength, List.append_nil]

/-- A text is read from the bytes that it is written in. -/
theorem decode_encode (s : String) : decode (encode s) = .ok s := by
  have hbytes : (⟨(encode s).toArray⟩ : ByteArray) = s.toByteArray := by
    unfold encode ByteArray.toList
    rw [toList_loop]
    rfl
  unfold decode
  rw [hbytes, String.fromUTF8?, dif_pos s.isValidUTF8]
  rfl

/-- The text of a file that holds one. -/
theorem readText_of_entryAt {t : FileTree} {p : FilePath} {s : String}
    (h : t.entryAt p = .ok (.file (encode s))) (hpath : '\x00' ∉ p.text.toList) :
    t.readText p = .ok (String.ofList (Text.unifyNewlines s.toList)) := by
  unfold readText read?
  rw [if_neg (fun hnull => hpath (List.contains_iff_mem.mp hnull)), h]
  dsimp only
  rw [decode_encode]
  rfl

/-- A file whose content, if the system delivers it, is a text. -/
structure IsLegible (t : FileTree) (p : FilePath) : Prop where
  path : '\x00' ∉ p.text.toList
  content : ∀ content, t.read? p = .ok content → ∃ s, decode content = .ok s

theorem notUtf8_of_decode {content : List UInt8} {f : Failure} (h : decode content = .error f) :
    f = .notUtf8 := by
  unfold decode at h
  split at h
  · exact nomatch h
  · exact (Except.error.inj h).symm

/-- A file is legible where its reading says something, be it a fault of the system. -/
theorem isLegible_iff {t : FileTree} {p : FilePath} :
    t.IsLegible p ↔ (∃ s, t.readText p = .ok s) ∨ ∃ fault, t.readText p = .error (.file fault) := by
  unfold readText
  by_cases hnull : p.text.toList.contains '\x00' = true
  · have hnot : ¬ t.IsLegible p := fun h => h.path (List.contains_iff_mem.mp hnull)
    rw [if_pos hnull]
    simp [hnot]
  have hpath : '\x00' ∉ p.text.toList := fun hmem => hnull (List.contains_iff_mem.mpr hmem)
  rw [if_neg hnull]
  -- A fault of the system leaves nothing to decode, and otherwise the bytes decide.
  cases hread : t.read? p with
  | error fault =>
    have hlegible : t.IsLegible p := ⟨hpath, fun _ h => nomatch hread.symm.trans h⟩
    simp [hlegible]
  | ok content =>
    have hiff : t.IsLegible p ↔ ∃ s, decode content = .ok s :=
      ⟨fun h => h.content content hread,
        fun h => ⟨hpath, fun _ h' => Except.ok.inj (hread.symm.trans h') ▸ h⟩⟩
    rw [hiff]
    cases hdecode : decode content with
    | ok s => simp [hdecode, Except.map]
    | error f => simp [hdecode, Except.map, notUtf8_of_decode hdecode]

end FileTree

namespace Kubeconfig

variable {host : Host} {base : FilePath}

/-! ### The parts of a document -/

/-- The parts of a document that `current` names, each of which has to be a mapping. -/
structure Selects (data : Mapping) (current : Value) (s : Selection) : Prop where
  context : named (data.get "contexts").items current "context" = .mapping s.context
  cluster : named (data.get "clusters").items (nameUnder s.context "cluster") "cluster" =
    .mapping s.cluster
  user : named (data.get "users").items (nameUnder s.context "user") "user" = .mapping s.user

theorem entries_eq_ok_iff {v : Value} {m : Mapping} : entries v = .ok m ↔ v = .mapping m := by
  cases v with
  | mapping m' => simp [entries]
  | _ => simp [entries]

/-- A selection is made where the three entries are mappings. -/
theorem select_eq_ok_iff {data : Mapping} {current : Value} {s : Selection} :
    select data current = .ok s ↔ Selects data current s := by
  unfold select
  simp only [bind_eq_ok_iff, entries_eq_ok_iff]
  constructor
  · rintro ⟨context, hcontext, cluster, hcluster, user, huser, hs⟩
    obtain rfl := Except.ok.inj hs
    exact ⟨hcontext, hcluster, huser⟩
  · intro h
    exact ⟨s.context, h.context, s.cluster, h.cluster, s.user, h.user, rfl⟩

/-! ### The values of a context -/

/-- A value for the path of the certificates: one that is given has to be a text. -/
structure IsAuthority (v : Value) : Prop where
  textual : v.IsTextualOrNull
  given : v.isTruthy = true → ∃ s, v = .text s

/-- A user whose token can be told: its own one is textual, and so is the path of the file that is
read instead of it, which has to hold a text. -/
structure HasToken (host : Host) (base : FilePath) (user : Mapping) : Prop where
  own : (user.get "token").isTruthy = true ∨ (user.get "tokenFile").isTruthy = false →
    (user.get "token").IsTextualOrNull
  file : (user.get "token").isTruthy = false → (user.get "tokenFile").isTruthy = true →
    ∃ path, user.get "tokenFile" = .text path ∧
    host.files.IsLegible (base.join (FilePath.ofText path))

/-- Parts of a document whose values make up a context. -/
structure IsUsable (host : Host) (base : FilePath) (current : Value) (s : Selection) : Prop where
  name : current.IsTextual
  ns : (givenUnder s.context "namespace").IsTextual
  server : (givenUnder s.cluster "server").IsTextual
  authority : IsAuthority (s.cluster.get "certificate-authority")
  certificates : (s.cluster.get "certificate-authority-data").IsTextualOrNull
  token : HasToken host base s.user

/-- What becomes of the path of the certificates is a text or null exactly for such values. -/
theorem exists_authorityPath_iff {v : Value} :
    (∃ v', authorityPath base v = .ok v' ∧ v'.IsTextualOrNull) ↔ IsAuthority v := by
  unfold authorityPath
  split
  · next hgiven =>
    -- Bytes are textual, but no path is made of them.
    cases v with
    | text s => exact ⟨fun _ => ⟨Or.inr trivial, fun _ => ⟨s, rfl⟩⟩,
        fun _ => ⟨_, rfl, Or.inr trivial⟩⟩
    | _ =>
      constructor
      · rintro ⟨v', hv, -⟩
        exact nomatch hv
      · intro h
        obtain ⟨s, hs⟩ := h.given hgiven
        exact nomatch hs
  · next hgiven =>
    constructor
    · rintro ⟨v', hv, htextual⟩
      obtain rfl := Except.ok.inj hv
      exact ⟨htextual, fun h => absurd h hgiven⟩
    · intro h
      exact ⟨v, rfl, h.textual⟩

/-- A context is made of six fields where each of them has its kind. -/
theorem exists_ofFields_iff {name ns server authority certificates token : Value}
    {insecure : Bool} :
    (∃ c, ofFields name ns server authority certificates insecure token = .ok c) ↔
      name.IsTextual ∧ ns.IsTextual ∧ server.IsTextual ∧ authority.IsTextualOrNull ∧
        certificates.IsTextualOrNull ∧ token.IsTextualOrNull := by
  unfold ofFields
  constructor
  · -- All six fields are read before anything is refused, so a context means that all six were
    -- read.
    rintro ⟨c, h⟩
    split at h
    · next name ns server ca data token hname hns hserver hca hdata htoken =>
      exact ⟨Field.exists_text_iff.mp ⟨_, hname⟩, Field.exists_text_iff.mp ⟨_, hns⟩,
        Field.exists_text_iff.mp ⟨_, hserver⟩, Field.exists_textOrNull_iff.mp ⟨_, hca⟩,
        Field.exists_textOrNull_iff.mp ⟨_, hdata⟩, Field.exists_textOrNull_iff.mp ⟨_, htoken⟩⟩
    · exact nomatch h
  · rintro ⟨hname, hns, hserver, hauthority, hcertificates, htoken⟩
    obtain ⟨_, hname⟩ := Field.exists_text_iff.mpr hname
    obtain ⟨_, hns⟩ := Field.exists_text_iff.mpr hns
    obtain ⟨_, hserver⟩ := Field.exists_text_iff.mpr hserver
    obtain ⟨_, hauthority⟩ := Field.exists_textOrNull_iff.mpr hauthority
    obtain ⟨_, hcertificates⟩ := Field.exists_textOrNull_iff.mpr hcertificates
    obtain ⟨_, htoken⟩ := Field.exists_textOrNull_iff.mpr htoken
    exact ⟨_, by rw [hname, hns, hserver, hauthority, hcertificates, htoken]⟩

/-! ### The token -/

theorem onlyNotes_fileToken (path : String) : (fileToken host base path).OnlyNotes := by
  unfold fileToken
  dsimp only
  split
  · exact .pure _
  · exact .bind (.note _) (fun _ => .pure _)
  · exact .throw _

theorem onlyNotes_token (user : Mapping) : (token host base user).OnlyNotes := by
  unfold token
  dsimp only
  split
  · exact .pure _
  · split
    · exact onlyNotes_fileToken _
    · exact .throw _

/-- A file for a token gives one, or none, whenever it holds a text or is not delivered. -/
theorem exists_fileToken_iff {path : String} :
    (∃ v, (fileToken host base path).result = .ok v ∧ v.IsTextualOrNull) ↔
      host.files.IsLegible (base.join (FilePath.ofText path)) := by
  rw [FileTree.isLegible_iff]
  unfold fileToken
  dsimp only
  split
  · next s hread =>
    refine ⟨fun _ => Or.inl ⟨s, hread⟩, fun _ => ⟨_, rfl, ?_⟩⟩
    split
    · exact Or.inl rfl
    · exact Or.inr trivial
  -- A file that is not delivered is no failure: there is no token then.
  · next fault hread => exact ⟨fun _ => Or.inr ⟨fault, hread⟩, fun _ => ⟨.null, rfl, Or.inl rfl⟩⟩
  · next f hfault hread =>
    constructor
    · rintro ⟨v, hv, -⟩
      exact nomatch hv
    · rintro (⟨s, hs⟩ | ⟨fault, hf⟩)
      · exact nomatch hread.symm.trans hs
      · exact absurd (Except.error.inj (hread.symm.trans hf)) (hfault fault)

/-- There is a token, or none, in one of two ways. -/
theorem exists_token_iff {user : Mapping} :
    (∃ v, (token host base user).result = .ok v ∧ v.IsTextualOrNull) ↔ HasToken host base user := by
  unfold token
  dsimp only
  split
  -- The token of the user counts: it is given, or there is no file of a token.
  · next hown =>
    have hown' : (user.get "token").isTruthy = true ∨ (user.get "tokenFile").isTruthy = false := by
      simpa using hown
    constructor
    · rintro ⟨v, hv, htextual⟩
      obtain rfl := Except.ok.inj hv
      refine ⟨fun _ => htextual, fun hnone hfile => ?_⟩
      rcases hown' with h | h
      · exact absurd (h.symm.trans hnone) Bool.noConfusion
      · exact absurd (hfile.symm.trans h) Bool.noConfusion
    · intro h
      exact ⟨_, rfl, h.own hown'⟩
  -- There is a file of a token and no token, so the file has to be legible.
  · next hown =>
    obtain ⟨hnone, hfile⟩ : (user.get "token").isTruthy = false ∧
        (user.get "tokenFile").isTruthy = true := by
      simpa using hown
    have hiff : HasToken host base user ↔
        ∃ path, user.get "tokenFile" = .text path ∧
        host.files.IsLegible (base.join (FilePath.ofText path)) := by
      refine ⟨fun h => h.file hnone hfile, fun h => ⟨fun hown => ?_, fun _ _ => h⟩⟩
      rw [hnone, hfile] at hown
      exact absurd hown (by decide)
    rw [hiff]
    split
    · next path hpath => simp [hpath, exists_fileToken_iff]
    · next hnot =>
      constructor
      · rintro ⟨v, hv, -⟩
        exact nomatch hv
      · rintro ⟨path, hpath, -⟩
        exact absurd hpath (hnot path)

/-! ### A document -/

theorem onlyNotes_read (data : Mapping) : (read host data base).OnlyNotes := by
  unfold read
  dsimp only
  split
  · exact .pure _
  · exact .bind (.lift _)
        (fun context => .bind (.lift _) (fun cluster => .bind (.lift _) (fun authority =>
      .bind (.lift _) (fun user => .bind (onlyNotes_token user) (fun token => .lift _)))))

/-- Where no context counts as given, reading gives the empty one and notes nothing. -/
theorem read_of_not_isTruthy {data : Mapping}
    (hcurrent : (data.get "current-context").isTruthy = false) (host : Host) (base : FilePath) :
    read host data base = pure {} := by
  unfold read
  dsimp only
  rw [hcurrent]
  rfl

/-- The reading of a file that names a context, without its notes. -/
theorem result_read {data : Mapping} (hcurrent : (data.get "current-context").isTruthy = true) :
    (read host data base).result = (do
      let context ← entries
        (named (data.get "contexts").items (data.get "current-context") "context")
      let cluster ← entries
        (named (data.get "clusters").items (nameUnder context "cluster") "cluster")
      let authority ← authorityPath base (cluster.get "certificate-authority")
      let user ← entries (named (data.get "users").items (nameUnder context "user") "user")
      let token ← (token host base user).result
      ofFields (data.get "current-context") (givenUnder context "namespace")
        (givenUnder cluster "server")
        authority (cluster.get "certificate-authority-data")
        (cluster.get "insecure-skip-tls-verify").isTruthy token) := by
  unfold read
  dsimp only
  rw [hcurrent, if_neg (by decide)]
  -- The token alone is looked up with notes; all other steps are pure.
  rw [Action.result_lift_bind]
  refine bind_congr (fun context => ?_)
  rw [Action.result_lift_bind]
  refine bind_congr (fun cluster => ?_)
  rw [Action.result_lift_bind]
  refine bind_congr (fun authority => ?_)
  rw [Action.result_lift_bind]
  refine bind_congr (fun user => ?_)
  exact (onlyNotes_token user).result_bind (fun token => .lift _)

/-- A document gives a context if it names none, and otherwise only if all parts that it names are
usable. -/
theorem exists_read_iff {data : Mapping} :
    (∃ c, (read host data base).result = .ok c) ↔
      (data.get "current-context").isTruthy = true →
        ∃ s, Selects data (data.get "current-context") s ∧
          IsUsable host base (data.get "current-context") s := by
  cases hcurrent : (data.get "current-context").isTruthy with
  | false => simp [read_of_not_isTruthy hcurrent]
  | true =>
    -- Both sides say stage by stage what has to be there; each stage has its own equivalence.
    rw [result_read hcurrent]
    simp only [bind_eq_ok_iff, entries_eq_ok_iff, forall_const]
    constructor
    · rintro ⟨c, context, hcontext, cluster, hcluster, authority, hauthority, user, huser, token,
        htoken, hfields⟩
      obtain ⟨hname, hns, hserver, htextual, hdata, htextual'⟩ :=
        exists_ofFields_iff.mp ⟨c, hfields⟩
      exact ⟨⟨context, cluster, user⟩, ⟨hcontext, hcluster, huser⟩, hname, hns, hserver,
        exists_authorityPath_iff.mp ⟨_, hauthority, htextual⟩, hdata,
        exists_token_iff.mp ⟨_, htoken, htextual'⟩⟩
    · rintro ⟨s, hs, h⟩
      obtain ⟨authority, hauthority, htextual⟩ := exists_authorityPath_iff.mpr h.authority
      obtain ⟨token, htoken, htextual'⟩ := exists_token_iff.mpr h.token
      obtain ⟨c, hc⟩ :=
        exists_ofFields_iff.mpr ⟨h.name, h.ns, h.server, htextual, h.certificates, htextual'⟩
      exact ⟨c, s.context, hs.context, s.cluster, hs.cluster, authority, hauthority, s.user,
        hs.user, token, htoken, hc⟩

/-! ### A file -/

/-- What loading a kubeconfig file results in. -/
def outcome (host : Host) (path : Option String) : Except Failure ClusterContext :=
  (load host path).result

/-- What it results in on a system that may refuse to look at the file. -/
def outcomeUnder (refused : Refusals) (host : Host) (path : Option String) :
    Except Failure ClusterContext :=
  (loadUnder refused host path).result

theorem onlyNotes_loadAt (host : Host) (p : FilePath) : (loadAt host p).OnlyNotes := by
  unfold loadAt
  split
  · exact .pure _
  · split
    · exact .bind (.note _) (fun _ => .pure _)
    · exact .throw _
    · split
      · exact .bind (.note _) (fun _ => .pure _)
      · exact .throw _
      · exact onlyNotes_read _
      · exact .pure _

theorem onlyNotes_load (host : Host) (path : Option String) : (load host path).OnlyNotes :=
  .bind (.lift _) (fun p => onlyNotes_loadAt host p)

/-- A file that says nothing on a current context: it is missing, is not delivered, is not YAML, is
no mapping, or names no current context. -/
inductive IsAbsent (host : Host) (p : FilePath) : Prop
  | missing (hfile : host.files.isFile p = false)
  | undelivered {fault : FileFault} (hread : host.files.readText p = .error (.file fault))
  | notYaml {text : String} (hread : host.files.readText p = .ok text)
      (hparse : Yaml.parse text = .error .notYaml)
  | notMapping {text : String} {v : Value} (hread : host.files.readText p = .ok text)
      (hparse : Yaml.parse text = .ok v) (hv : v.entries? = none)
  | noCurrent {text : String} {data : Mapping} (hread : host.files.readText p = .ok text)
      (hparse : Yaml.parse text = .ok (.mapping data))
      (hcurrent : (data.get "current-context").isTruthy = false)

/-- A file with a current context all of whose parts are usable. -/
inductive HoldsContext (host : Host) (p : FilePath) : Prop
  | document {text : String} {data : Mapping} {s : Selection}
    (hread : host.files.readText p = .ok text)
      (hparse : Yaml.parse text = .ok (.mapping data))
      (hselects : Selects data (data.get "current-context") s)
      (husable : IsUsable host p.parent (data.get "current-context") s)

variable {path : Option String} {p : FilePath}

/-- What loading the file at a path results in. -/
def outcomeAt (host : Host) (p : FilePath) : Except Failure ClusterContext :=
  if host.files.isFile p then
    match host.files.readText p with
    | .error (.file _) => .ok {}
    | .error f => .error f
    | .ok text =>
      match Yaml.parse text with
      | .error .notYaml => .ok {}
      | .error f => .error f
      | .ok (.mapping data) => (read host data p.parent).result
      | .ok _ => .ok {}
  else .ok {}

/-- The load from a path, without its notes. -/
theorem result_loadAt (host : Host) (p : FilePath) : (loadAt host p).result = outcomeAt host p := by
  unfold loadAt outcomeAt
  -- The cases are those of the load: no file, no text, no YAML, no mapping.
  cases host.files.isFile p with
  | false => rfl
  | true =>
    rw [if_pos rfl, if_neg (by decide)]
    cases host.files.readText p with
    | error f =>
      cases f with
      | file fault => rfl
      | _ => rfl
    | ok text =>
      dsimp only
      cases Yaml.parse text with
      | error f =>
        cases f with
        | notYaml => rfl
        | _ => rfl
      | ok v =>
        cases v with
        | mapping data => rfl
        | _ => rfl

theorem outcome_eq (host : Host) (path : Option String) :
    outcome host path = pathOf host path >>= outcomeAt host := by
  unfold outcome load
  rw [Action.result_lift_bind]
  exact bind_congr (fun p => result_loadAt host p)

/-- On a system that may refuse, the path is looked at first. -/
theorem outcomeUnder_eq_ok_iff {refused : Refusals} {c : ClusterContext} :
    outcomeUnder refused host path = .ok c ↔
      ∃ p, pathOf host path = .ok p ∧ refused.look p = none ∧ outcomeAt host p = .ok c := by
  unfold outcomeUnder loadUnder
  rw [Action.result_lift_bind, bind_eq_ok_iff]
  refine exists_congr (fun p => and_congr_right (fun _ => ?_))
  cases refused.look p with
  | none => simp [result_loadAt]
  | some refusal => exact iff_of_false (fun h => nomatch h) (fun h => nomatch h.1)

theorem outcome_of_pathOf (hp : pathOf host path = .ok p) :
    outcome host path = outcomeAt host p := by
  rw [outcome_eq, hp]
  rfl

/-- What says nothing counts as absent. -/
theorem outcomeAt_of_isAbsent (h : IsAbsent host p) : outcomeAt host p = .ok {} := by
  unfold outcomeAt
  split
  · next hfile =>
    cases h with
    | missing hmissing => exact absurd (hfile.symm.trans hmissing) Bool.noConfusion
    | undelivered hread => rw [hread]
    | notYaml hread hparse => simp only [hread, hparse]
    | @notMapping text v hread hparse hv =>
      cases v with
      | mapping data => exact nomatch hv
      | _ => simp only [hread, hparse]
    | noCurrent hread hparse hcurrent =>
      simp only [hread, hparse, read_of_not_isTruthy hcurrent, Action.result_pure]
  · rfl

/-- What does not count as absent has to hold a context. -/
theorem holdsContext_of_outcomeAt {c : ClusterContext} (hc : outcomeAt host p = .ok c)
    (hnot : ¬ IsAbsent host p) : HoldsContext host p := by
  -- In the order in which a file is examined: each case but the last is one in which it counts as
  -- absent.
  unfold outcomeAt at hc
  split at hc
  case isFalse hfile => exact absurd (.missing ((Bool.not_eq_true _).mp hfile)) hnot
  split at hc
  · next fault hread => exact absurd (.undelivered hread) hnot
  · exact nomatch hc
  next text hread =>
  split at hc
  · next hparse => exact absurd (.notYaml hread hparse) hnot
  · exact nomatch hc
  · next data hparse =>
    cases hcurrent : (Mapping.get data "current-context").isTruthy with
    | false => exact absurd (.noCurrent hread hparse hcurrent) hnot
    | true =>
      obtain ⟨s, hs, husable⟩ := exists_read_iff.mp ⟨c, hc⟩ hcurrent
      exact .document hread hparse hs husable
  · next v hv hparse =>
    refine absurd (.notMapping hread hparse ?_) hnot
    cases v with
    | mapping data => exact absurd rfl (hv data)
    | _ => rfl

/-- A file with a context leads to one. -/
theorem exists_outcomeAt_of_holdsContext (h : HoldsContext host p) :
    ∃ c, outcomeAt host p = .ok c := by
  obtain ⟨hread, hparse, hs, husable⟩ := h
  unfold outcomeAt
  split
  · simp only [hread, hparse]
    exact exists_read_iff.mpr (fun _ => ⟨_, hs, husable⟩)
  · exact ⟨{}, rfl⟩

/-- The path means a file that the system lets the program look at, and that file counts as absent
or holds a context with usable parts. -/
def IsLoadable (refused : Refusals) (host : Host) (path : Option String) : Prop :=
  ∃ p, pathOf host path = .ok p ∧ refused.look p = none ∧ (IsAbsent host p ∨ HoldsContext host p)

/-- A machine with a context that names a namespace. -/
def devHost : Host where
  files := { entries := [(["config"],
    .file (FileTree.encode
      "current-context: dev\ncontexts:\n- name: dev\n  context: \x7bnamespace: ci\x7d\n"))] }

/-- Nobody may look at what root has. -/
def rootsOwn : Refusals where
  look p :=
    if p.parts.head? = some "root" ∧ '\x00' ∉ p.text.toList
      then some ⟨⟨.denied, some p.text⟩, rfl⟩ else none
  change _ := none
  meant := fun _ hnull => ⟨if_neg (fun h => h.2 hnull), rfl⟩

/-- A machine whose kubeconfig file is two bytes that no text in UTF-8 begins with. -/
def garbledHost : Host where
  files := { entries := [(["config"], .file [0xff, 0xff])] }

end Kubeconfig

end PipelineRuns
