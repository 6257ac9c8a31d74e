import PipelineRuns.Proofs.Bundles

/-!
# Certificates that come as data

A kubeconfig can hold certificates in Base64, and a file is written with the bytes that are read
from it. The text may be broken into lines or indented anywhere (`Text.Spaced`); blanks are taken
out before it is read, and as Base64 writes none, what is left is what was encoded
(`Text.withoutBlanks_of_spaced`).

Base64 writes three bytes as four numbers of six bits and a reader puts these together again. At the
start of every group of four the reader carries nothing over, so that the groups can be followed one
by one (`Base64.read_group`); the last of them may be filled up with one pad character or with two.
`Base64.read_encode` goes over the groups from any bytes that were read before, and
`Base64.decode_encode` is what this says about a whole text.

Main statement: `Client.certificateFile_of_encode`.
-/

namespace PipelineRuns

/-! ### Blanks in a text -/

namespace Text

variable {text s : List Char}

/-- The second text is the first one with blanks put in at any places. -/
inductive Spaced : List Char → List Char → Prop
  | nil : Spaced [] []
  | keep (c : Char) {text s : List Char} (h : Spaced text s) : Spaced (c :: text) (c :: s)
  | blank {c : Char} {text s : List Char} (hc : isBlank c = true) (h : Spaced text s) :
      Spaced text (c :: s)

theorem withoutBlanks_of_spaced (h : Spaced text s) (hsolid : ∀ c ∈ text, isBlank c = false) :
    withoutBlanks s = text := by
  unfold withoutBlanks
  induction h with
  | nil => rfl
  | @keep c text s _ ih =>
    have hc : isBlank c = false := hsolid c List.mem_cons_self
    rw [List.filter_cons_of_pos (by rw [hc]; rfl),
      ih (fun d hd => hsolid d (List.mem_cons_of_mem _ hd))]
  | blank hc _ ih => rw [List.filter_cons_of_neg (by rw [hc]; exact Bool.false_ne_true), ih hsolid]

/-- Putting blanks in leaves no text empty. -/
theorem Spaced.ne_nil (h : Spaced text s) (hne : text ≠ []) : s ≠ [] := by
  rintro rfl
  cases h
  exact hne rfl

end Text

/-! ### Base64 -/

namespace Base64

variable {n : Nat}

/-- What Base64 writes has a place in ASCII and is not blank. -/
def IsWritten (c : Char) : Prop :=
  c.toNat ≤ 0x7f ∧ Text.isBlank c = false

instance (c : Char) : Decidable (IsWritten c) :=
  inferInstanceAs (Decidable (_ ∧ _))

/-- The letters are told apart by their values. -/
theorem value?_letter (h : n < 64) : value? (letter n) = some n := by
  have hall : ∀ n < 64, value? (letter n) = some n := by decide +kernel
  exact hall n h

theorem letter_ne_pad (h : n < 64) : letter n ≠ '=' := by
  intro hpad
  have hvalue := value?_letter h
  rw [hpad] at hvalue
  exact absurd hvalue (by simp [value?])

theorem isWritten_letter (h : n < 64) : IsWritten (letter n) := by
  have hall : ∀ n < 64, IsWritten (letter n) := by decide +kernel
  exact hall n h

theorem isWritten_of_mem_encode {bytes : List UInt8} {c : Char} (h : c ∈ encode bytes) :
    IsWritten c := by
  have hpad : IsWritten '=' := by decide
  -- Every character is the letter of six bits or the pad.
  induction bytes using encode.induct with
  | case1 => exact nomatch h
  | case2 a =>
    have ha := a.toNat_lt
    simp only [encode, List.mem_cons, List.not_mem_nil, or_false] at h
    rcases h with rfl | rfl | rfl | rfl
    · exact isWritten_letter (by omega)
    · exact isWritten_letter (by omega)
    · exact hpad
    · exact hpad
  | case3 a b =>
    have ha := a.toNat_lt
    have hb := b.toNat_lt
    simp only [encode, List.mem_cons, List.not_mem_nil, or_false] at h
    rcases h with rfl | rfl | rfl | rfl
    · exact isWritten_letter (by omega)
    · exact isWritten_letter (by omega)
    · exact isWritten_letter (by omega)
    · exact hpad
  | case4 a b c rest ih =>
    have ha := a.toNat_lt
    have hb := b.toNat_lt
    have hc := c.toNat_lt
    simp only [encode, List.mem_cons] at h
    rcases h with rfl | rfl | rfl | rfl | h
    · exact isWritten_letter (by omega)
    · exact isWritten_letter (by omega)
    · exact isWritten_letter (by omega)
    · exact isWritten_letter (by omega)
    · exact ih h

theorem encode_ne_nil {bytes : List UInt8} (h : bytes ≠ []) : encode bytes ≠ [] := by
  cases bytes using encode.fun_cases with
  | case1 => exact absurd rfl h
  | case2 a => exact List.cons_ne_nil _ _
  | case3 a b => exact List.cons_ne_nil _ _
  | case4 a b c rest => exact List.cons_ne_nil _ _

/-! ### Reading what was written -/

/-- Between two groups: these bytes were read, the last one first, and nothing is carried over. -/
def Cursor.between (bytes : List UInt8) : Cursor := ⟨bytes, 0, 0, 0⟩

theorem read_letter (h : n < 64) {c : Cursor} (hpads : c.pads = 0) (rest : List Char) :
    read c (letter n :: rest) = read (c.push n) rest := by
  rw [read, if_neg (letter_ne_pad h), value?_letter h]
  dsimp only
  rw [if_neg (not_not_intro hpads)]

/-- The first two characters of a group give its first byte. -/
theorem read_first (a : UInt8) {low : Nat} (hlow : low < 16) (before : List UInt8)
    (rest : List Char) :
    read (.between before) (letter (a.toNat / 4) :: letter (a.toNat % 4 * 16 + low) :: rest) =
      read ⟨a :: before, 2, low, 0⟩ rest := by
  have ha := a.toNat_lt
  have hbyte : a.toNat / 4 * 4 + (a.toNat % 4 * 16 + low) / 16 = a.toNat := by omega
  have hcarried : (a.toNat % 4 * 16 + low) % 16 = low := by omega
  rw [read_letter (by omega) rfl, read_letter (by omega) rfl]
  change read ⟨UInt8.ofNat (a.toNat / 4 * 4 + (a.toNat % 4 * 16 + low) / 16) :: before, 2,
    (a.toNat % 4 * 16 + low) % 16, 0⟩ rest = _
  rw [hbyte, hcarried, UInt8.ofNat_toNat]

/-- The third character, with the upper half of the second byte carried over, gives this byte. -/
theorem read_second (b : UInt8) {low : Nat} (hlow : low < 4) (before : List UInt8)
    (rest : List Char) :
    read ⟨before, 2, b.toNat / 16, 0⟩ (letter (b.toNat % 16 * 4 + low) :: rest) =
      read ⟨b :: before, 3, low, 0⟩ rest := by
  have hb := b.toNat_lt
  have hbyte : b.toNat / 16 * 16 + (b.toNat % 16 * 4 + low) / 4 = b.toNat := by omega
  have hcarried : (b.toNat % 16 * 4 + low) % 4 = low := by omega
  rw [read_letter (by omega) rfl]
  change read ⟨UInt8.ofNat (b.toNat / 16 * 16 + (b.toNat % 16 * 4 + low) / 4) :: before, 3,
    (b.toNat % 16 * 4 + low) % 4, 0⟩ rest = _
  rw [hbyte, hcarried, UInt8.ofNat_toNat]

/-- The last character, with the upper two bits of the third byte carried over, gives this byte. -/
theorem read_third (c : UInt8) (before : List UInt8) (rest : List Char) :
    read ⟨before, 3, c.toNat / 64, 0⟩ (letter (c.toNat % 64) :: rest) =
      read (.between (c :: before)) rest := by
  have hbyte : c.toNat / 64 * 64 + c.toNat % 64 = c.toNat := by omega
  rw [read_letter (by omega) rfl]
  change read ⟨UInt8.ofNat (c.toNat / 64 * 64 + c.toNat % 64) :: before, 0, 0, 0⟩ rest = _
  rw [hbyte, UInt8.ofNat_toNat]
  rfl

/-- A whole group gives its three bytes. -/
theorem read_group (a b c : UInt8) (bytes before : List UInt8) :
    read (.between before) (encode (a :: b :: c :: bytes)) =
      read (.between (c :: b :: a :: before)) (encode bytes) := by
  have hb := b.toNat_lt
  have hc := c.toNat_lt
  rw [encode, read_first a (by omega), read_second b (by omega), read_third]

/-- Bytes that were written are read after those before them. -/
theorem read_encode (bytes before : List UInt8) :
    read (.between before) (encode bytes) = .ok (before.reverse ++ bytes) := by
  -- Induction on the groups; what was read is the reverse of what the reader holds.
  induction bytes using encode.induct generalizing before with
  | case1 => exact congrArg Except.ok (List.append_nil _).symm
  | case2 a =>
    have hread := read_first a (by decide : 0 < 16) before ['=', '=']
    rw [encode]
    refine hread.trans ?_
    change Except.ok (a :: before).reverse = _
    rw [List.reverse_cons]
  | case3 a b =>
    have hb := b.toNat_lt
    rw [encode, read_first a (by omega)]
    have hread := read_second b (by decide : 0 < 4) (a :: before) ['=']
    refine hread.trans ?_
    change Except.ok (b :: a :: before).reverse = _
    rw [List.reverse_cons, List.reverse_cons, List.append_assoc]
    rfl
  | case4 a b c rest ih =>
    rw [read_group, ih]
    simp only [List.reverse_cons, List.append_assoc, List.cons_append, List.nil_append]

/-- **Reading undoes writing**, for all bytes. -/
theorem decode_encode (bytes : List UInt8) : decode (encode bytes) = .ok bytes := by
  have hascii : (encode bytes).any (fun c => 0x7f < c.toNat) = false := by
    rw [List.any_eq_false]
    intro c hc
    have hle := (isWritten_of_mem_encode hc).1
    simpa using hle
  unfold decode
  rw [hascii, if_neg Bool.false_ne_true]
  exact read_encode bytes []

/-- Blanks in between change nothing. -/
theorem decode_of_spaced {bytes : List UInt8} {s : List Char} (h : Text.Spaced (encode bytes) s) :
    decode (Text.withoutBlanks s) = .ok bytes := by
  rw [Text.withoutBlanks_of_spaced h (fun _ hc => (isWritten_of_mem_encode hc).2), decode_encode]

/-- Three bytes and one more. -/
example : encode [102, 111, 111, 98] = ['Z', 'm', '9', 'v', 'Y', 'g', '=', '='] := by decide

end Base64

/-! ### The file of a client -/

namespace Client

variable {host : Host} {captured : Environment} {settings : Settings} {kube : KubeSettings}
  {context : ClusterContext} {content : List UInt8} {data : String}

/-- The certificates of a context are checked against this data: checking is not switched off, and
no file is named instead. -/
structure UsesData (kube : KubeSettings) (context : ClusterContext) (data : String) : Prop where
  checked : kube.verify = true ∧ context.insecure = false
  noFile : kube.bundle.getD "" = "" ∧ context.certificateAuthority.getD "" = ""
  data_eq : context.certificateAuthorityData = some data

theorem UsesData.certificateData_eq (h : UsesData kube context data) (hne : data ≠ "") :
    certificateData kube context = some data := by
  unfold certificateData
  rw [h.checked.1, h.checked.2, h.noFile.1, h.noFile.2, h.data_eq]
  simp [hne]

/-- A file of this number and content is written, in a place that was free, and nothing else
changes. -/
structure WritesFile (before after : Bundles) (number : Nat) (content : List UInt8) : Prop where
  free : before.get? number = none
  content_eq : after.get? number = some content
  others : ∀ other ≠ number, after.get? other = before.get? other

theorem writesFile_create {b : Bundles} (hfresh : b.IsFresh) (content : List UInt8) :
    WritesFile b (b.create content).2 b.next content where
  free := Bundles.get?_eq_none_of_le hfresh le_rfl
  content_eq := by rw [Bundles.get?_create hfresh, if_pos rfl]
  others := by
    intro other hother
    rw [Bundles.get?_create hfresh, if_neg hother]

theorem from_createBundle_of_spaced (h : Text.Spaced (Base64.encode content) data.toList)
    (before : Effects) :
    Action.from before (createBundle data) = (.ok (.temporary before.bundles.next),
      { before with bundles := (before.bundles.create content).2 }) := by
  rw [from_createBundle, Base64.decode_of_spaced h]

/-- Data that is used makes a file. -/
theorem verificationOf_eq (h : UsesData kube context data) (hne : data ≠ "") :
    verificationOf host kube context = createBundle data := by
  rcases verificationOf_cases host kube context with ⟨data', hdata, hv⟩ | ⟨v, hnone, -, -⟩
  · rw [h.certificateData_eq hne] at hdata
    rw [hv, ← Option.some.inj hdata]
  · rw [h.certificateData_eq hne] at hnone
    exact nomatch hnone

/-- A client that is built with certificates has them in its file. -/
theorem writesFile_of_built {before after : Bundles} {client : Client} (hfresh : before.IsFresh)
    (hbuilt : Built host settings before (.ok client) after)
    (hcertificates : certificates host settings = some content) :
    ∃ number, client.verification = .temporary number ∧ WritesFile before after number content := by
  cases hbuilt with
  | plain hnone =>
    rw [hcertificates] at hnone
    exact nomatch hnone
  | @withFile _ content' hsome hverification =>
    obtain rfl : content' = content := Option.some.inj (hsome.symm.trans hcertificates)
    exact ⟨before.next, hverification, writesFile_create hfresh content'⟩

/-- **The certificate file holds what was encoded.** Whatever bytes are written in Base64, one at
least, and whatever blanks are put in, the file that is made for the text holds these bytes, and no
other file is touched. So it is where a context comes with the text and the text is used, and every
client that is built for this context checks certificates against a file that holds these bytes. -/
theorem certificateFile_of_encode (hcontent : content ≠ [])
    (h : Text.Spaced (Base64.encode content) data.toList) :
    (∀ before : Effects, before.bundles.IsFresh → ∃ number after,
      Action.from before (createBundle data) = (.ok (.temporary number), after) ∧
        WritesFile before.bundles after.bundles number content) ∧
    (∀ (host : Host) (kube : KubeSettings) (context : ClusterContext) (before : Effects),
      before.bundles.IsFresh →
      UsesData kube context data → ∃ number after,
        Action.from before (verificationOf host kube context) = (.ok (.temporary number), after) ∧
          WritesFile before.bundles after.bundles number content) ∧
    ∀ (host : Host) (captured : Environment) (settings : Settings) (context : ClusterContext)
      (before after : Effects) (client : Client), before.bundles.IsFresh →
      Kubeconfig.outcome host settings.kube.kubeconfig = .ok context →
      UsesData settings.kube context data →
      Action.from before (ofSettings host captured settings) = (.ok client, after) →
        ∃ number, client.verification = .temporary number ∧
          WritesFile before.bundles after.bundles number content := by
  -- An empty text would count as no certificates; this one holds at least the letters of one byte.
  have hne : data ≠ "" := by
    rintro rfl
    exact h.ne_nil (Base64.encode_ne_nil hcontent) rfl
  have hcreate (before : Effects) (hfresh : before.bundles.IsFresh) : ∃ number after,
      Action.from before (createBundle data) = (.ok (.temporary number), after) ∧
        WritesFile before.bundles after.bundles number content :=
    ⟨_, _, from_createBundle_of_spaced h before, writesFile_create hfresh content⟩
  refine ⟨hcreate, ?_, ?_⟩
  · intro host kube context before hfresh huses
    rw [verificationOf_eq huses hne]
    exact hcreate before hfresh
  · intro host captured settings context before after client hfresh hcontext huses hclient
    -- What a client can be built with is the content, so it is not built without a file.
    have hcertificates : certificates host settings = some content := by
      rw [certificates_of_outcome hcontext, huses.certificateData_eq hne, Option.bind_some,
        Base64.decode_of_spaced h]
      rfl
    have hbuilt := built_ofSettings host captured settings hfresh
    rw [hclient] at hbuilt
    exact writesFile_of_built hfresh hbuilt hcertificates

/-- A kubeconfig file whose certificates are cut in two. -/
def wrappedKubeconfig : String :=
  "current-context: a\ncontexts:\n- name: a\n  context:\n    cluster: a\n" ++
    "clusters:\n- name: a\n  cluster:\n    certificate-authority-data: Q0\n      E=\n"

/-- A machine with this file. -/
def wrappedHost : Host where
  files := { entries := [(["config"], .file (FileTree.encode wrappedKubeconfig))] }

/-- Settings that lead to this file, and name the server. -/
def wrappedSettings : Settings where
  kube := { apiUrl := "https://here", kubeconfig := some "/config" }

theorem outcome_wrappedHost : Kubeconfig.outcome wrappedHost wrappedSettings.kube.kubeconfig =
    .ok { name := "a", certificateAuthorityData := some "Q0 E=" } := by
  have hpath :
      Kubeconfig.pathOf wrappedHost wrappedSettings.kube.kubeconfig = .ok ⟨"/", ["config"]⟩ := by
    rfl
  have hentry : wrappedHost.files.entryAt ⟨"/", ["config"]⟩ =
      .ok (.file (FileTree.encode wrappedKubeconfig)) := by rfl
  have hread := FileTree.readText_of_entryAt hentry (by decide)
  rw [Kubeconfig.outcome_of_pathOf hpath, Kubeconfig.outcomeAt, hread]
  exact eq_ok_of_toOption (by decide +kernel)

theorem certificateFile_of_encode_wrapped :
    [0x43, 0x41] ≠ ([] : List UInt8) ∧ Text.Spaced (Base64.encode [0x43, 0x41]) "Q0 E=".toList ∧
      ∃ (client : Client) (after : Effects) (number : Nat),
        Action.from {} (ofSettings wrappedHost [] wrappedSettings) = (.ok client, after) ∧
          client.verification = .temporary number ∧
          after.bundles.get? number = some [0x43, 0x41] := by
  have hspaced : Text.Spaced (Base64.encode [0x43, 0x41]) "Q0 E=".toList :=
    .keep _ (.keep _ (.blank (by decide) (.keep _ (.keep _ .nil))))
  have hfresh : ({} : Effects).bundles.IsFresh := fun _ hfile => absurd hfile List.not_mem_nil
  have huses :
      UsesData wrappedSettings.kube { name := "a", certificateAuthorityData := some "Q0 E=" }
      "Q0 E=" :=
    ⟨⟨rfl, rfl⟩, ⟨rfl, rfl⟩, rfl⟩
  obtain ⟨records, hload⟩ := from_ofSettings outcome_wrappedHost [] {}
  obtain ⟨client, after, hclient⟩ : ∃ client after,
      Action.from {} (ofSettings wrappedHost [] wrappedSettings) = (.ok client, after) :=
        ⟨_, _, hload⟩
  obtain ⟨-, -, hbuilt⟩ := certificateFile_of_encode (List.cons_ne_nil _ _) hspaced
  obtain ⟨number, hverification, hfile⟩ :=
    hbuilt wrappedHost [] wrappedSettings _ {} after client hfresh outcome_wrappedHost huses hclient
  exact ⟨List.cons_ne_nil _ _, hspaced, client, after, number, hclient, hverification,
    hfile.content_eq⟩

end Client

end PipelineRuns
