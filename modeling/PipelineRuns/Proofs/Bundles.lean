import PipelineRuns.Proofs.Credentials
import PipelineRuns.Proofs.Manifests

/-!
# Temporary certificate files

Building a client can make a temporary file, closing one removes it, and nothing else touches these
files (`Action.KeepsBundles`). What building does to them is one of three things (`Client.Built`):
nothing if it fails, be it that a file was made first, nothing if the client needs none, and one
more file for the client if it is built with certificates that its context comes with
(`Client.certificates`).

So what a description does with a source that it opened itself leaves the files as they were
(`Describe.sameFiles_useAndClose`), however it ends. They are not the same store, since numbers were
handed out meanwhile (`Bundles.SameFiles`). That the next number is larger than every number in use
(`Bundles.IsFresh`) is what makes a file that was removed again one that was never there.
-/

namespace PipelineRuns

variable {α β : Type}

/-! ### The store of temporary files -/

namespace Bundles

/-- The next number is larger than that of every file. -/
def IsFresh (b : Bundles) : Prop :=
  ∀ file ∈ b.files, file.1 < b.next

/-- The same files, of a store that may have handed out more numbers. -/
structure SameFiles (b b' : Bundles) : Prop where
  files_eq : b'.files = b.files
  next_le : b.next ≤ b'.next

theorem SameFiles.refl (b : Bundles) : SameFiles b b := ⟨rfl, le_refl _⟩

theorem SameFiles.of_eq {b b' : Bundles} (h : b' = b) : SameFiles b b' := h ▸ .refl b

/-- A number that was not handed out has no file. -/
theorem get?_eq_none_of_le {b : Bundles} (h : b.IsFresh) {number : Nat} (hle : b.next ≤ number) :
    b.get? number = none := by
  unfold get?
  rw [List.lookup_eq_none_iff]
  intro file hfile
  have hne : number ≠ file.1 := ((h file hfile).trans_le hle).ne'
  exact bne_iff_ne.mpr hne

/-- A new file is found under its number, and the other files as before. -/
theorem get?_create {b : Bundles} (h : b.IsFresh) (content : List UInt8) (number : Nat) :
    (b.create content).2.get? number = if number = b.next then some content else b.get? number := by
  unfold create get?
  rw [List.lookup_append]
  split
  · next hnumber =>
    have hnone : b.files.lookup number = none := get?_eq_none_of_le h hnumber.ge
    rw [hnone, hnumber]
    simp
  · next hnumber =>
    have hbeq : (number == b.next) = false := beq_eq_false_iff_ne.mpr hnumber
    rw [List.lookup_cons, hbeq]
    simp

/-- A removed number has no file, and the others keep theirs. -/
theorem get?_remove (b : Bundles) (removed number : Nat) :
    (b.remove removed).get? number = if number = removed then none else b.get? number := by
  unfold remove get?
  induction b.files with
  | nil => simp
  | cons file rest ih =>
    obtain ⟨k, content⟩ := file
    -- A file with the removed number is passed over, be it looked for or not.
    by_cases hk : k = removed
    · rw [List.filter_cons_of_neg (by simp [hk]), ih, List.lookup_cons]
      by_cases hnumber : number = removed
      · rw [if_pos hnumber, if_pos hnumber]
      · have hbeq : (number == k) = false := beq_eq_false_iff_ne.mpr (hk ▸ hnumber)
        rw [hbeq]
    · rw [List.filter_cons_of_pos (by simp [hk]), List.lookup_cons, List.lookup_cons, ih]
      by_cases hnumber : number = removed
      · have hbeq : (number == k) = false := beq_eq_false_iff_ne.mpr
          (fun h => hk (h.symm.trans hnumber))
        rw [hbeq, if_pos hnumber]
      · rw [if_neg hnumber, if_neg hnumber]

/-- A file that is removed right after it was made was never there. -/
theorem sameFiles_remove_create {b : Bundles} (h : b.IsFresh) (content : List UInt8) :
    SameFiles b ((b.create content).2.remove b.next) := by
  refine ⟨?_, Nat.le_succ _⟩
  have hkept : b.files.filter (fun file => file.1 ≠ b.next) = b.files := by
    rw [List.filter_eq_self]
    exact fun file hfile => decide_eq_true (h file hfile).ne
  change (b.files ++ [(b.next, content)]).filter (fun file => file.1 ≠ b.next) = b.files
  rw [List.filter_append, hkept, List.filter_cons_of_neg (by simp)]
  exact List.append_nil _

/-- A new file takes the next number, so later ones are free still. -/
theorem IsFresh.create {b : Bundles} (h : b.IsFresh) (content : List UInt8) :
    (b.create content).2.IsFresh := by
  intro file hfile
  rcases List.mem_append.mp hfile with hold | hnew
  · exact Nat.lt_succ_of_lt (h file hold)
  · rw [List.mem_singleton.mp hnew]
    exact Nat.lt_succ_self _

theorem IsFresh.remove {b : Bundles} (h : b.IsFresh) (number : Nat) : (b.remove number).IsFresh :=
  fun file hfile => h file (List.mem_of_mem_filter hfile)

theorem IsFresh.of_sameFiles {b b' : Bundles} (h : b.IsFresh) (hsame : SameFiles b b') :
    b'.IsFresh := by
  intro file hfile
  rw [hsame.files_eq] at hfile
  exact (h file hfile).trans_le hsame.next_le

theorem SameFiles.get?_eq {b b' : Bundles} (h : SameFiles b b') (number : Nat) :
    b'.get? number = b.get? number := by
  unfold get?
  rw [h.files_eq]

end Bundles

/-! ### Actions that leave the files alone -/

namespace Action

/-- Whatever was done before, the temporary files are left as they are. -/
def KeepsBundles (a : Action α) : Prop :=
  ∀ before, (Action.from before a).2.bundles = before.bundles

namespace KeepsBundles

variable {a : Action α} {f : α → Action β}

theorem pure (x : α) : KeepsBundles (pure x : Action α) := fun _ => rfl

theorem throw (f : Failure) : KeepsBundles (throw f : Action α) := fun _ => rfl

theorem lift (x : Except Failure α) : KeepsBundles (liftM x : Action α) := fun _ => rfl

theorem note (r : Record) : KeepsBundles (note r) := fun _ => rfl

theorem noteAll (records : List Record) : KeepsBundles (noteAll records) := fun _ => rfl

theorem send (r : Request) : KeepsBundles (send r) := fun _ => rfl

theorem bind (ha : KeepsBundles a) (hf : ∀ x, KeepsBundles (f x)) : KeepsBundles (a >>= f) := by
  intro before
  rw [from_bind]
  have hfirst := ha before
  cases hresult : Action.from before a with
  | mk r after =>
    rw [hresult] at hfirst
    cases r with
    | ok x => exact (hf x after).trans hfirst
    | error e => exact hfirst

end KeepsBundles

theorem OnlyNotes.keepsBundles {a : Action α} (h : a.OnlyNotes) : a.KeepsBundles := by
  intro before
  obtain ⟨records, hfrom⟩ := h before
  rw [hfrom]

end Action

/-! ### Building and closing a client -/

namespace Client

variable {host : Host} {captured : Environment} {settings : Settings} {kube : KubeSettings}
  {context : ClusterContext} {before : Effects}

/-- The certificates in Base64 that a context comes with and that are used: certificates are
checked, and no bundle is named that comes first. -/
def certificateData (kube : KubeSettings) (context : ClusterContext) : Option String :=
  if kube.verify && !context.insecure && kube.bundle.getD "" = "" &&
    context.certificateAuthority.getD "" = "" then
    context.certificateAuthorityData.filter (· ≠ "")
  else none

/-- The certificates that a client of these settings is built with, if it is built with any. -/
def certificates (host : Host) (settings : Settings) : Option (List UInt8) :=
  match Kubeconfig.outcome host settings.kube.kubeconfig with
  | .ok context => (certificateData settings.kube context).bind (fun data =>
      (Base64.decode (Text.withoutBlanks data.toList)).toOption)
  | .error _ => none

theorem certificates_of_outcome (hcontext : Kubeconfig.outcome host settings.kube.kubeconfig =
    .ok context) :
    certificates host settings = (certificateData settings.kube context).bind (fun data =>
      (Base64.decode (Text.withoutBlanks data.toList)).toOption) := by
  unfold certificates
  rw [hcontext]

/-- A temporary file is made for certificates that are used as data, and for nothing else. -/
theorem verificationOf_cases (host : Host) (kube : KubeSettings) (context : ClusterContext) :
    (∃ data, certificateData kube context = some data ∧
      verificationOf host kube context = createBundle data) ∨
      ∃ v, certificateData kube context = none ∧ temporaryOf v = none ∧
        verificationOf host kube context = pure v := by
  unfold verificationOf certificateData
  -- The cases are the sources of certificates, in the order in which they are preferred.
  by_cases hoff : (!kube.verify || context.insecure) = true
  · have hnone : (kube.verify && !context.insecure && kube.bundle.getD "" = "" &&
        context.certificateAuthority.getD "" = "") = false := by
      cases hverify : kube.verify with
      | false => rfl
      | true =>
        have hinsecure : context.insecure = true := by simpa [hverify] using hoff
        simp [hinsecure]
    rw [if_pos hoff, hnone]
    exact Or.inr ⟨.off, rfl, rfl, rfl⟩
  rw [if_neg hoff]
  by_cases hbundle : kube.bundle.getD "" = ""
  case neg =>
    rw [if_pos hbundle]
    exact Or.inr ⟨.bundle _, by simp [hbundle], rfl, rfl⟩
  rw [if_neg (not_not_intro hbundle)]
  by_cases hauthority : context.certificateAuthority.getD "" = ""
  case neg =>
    rw [if_pos hauthority]
    exact Or.inr ⟨.bundle _, by simp [hauthority], rfl, rfl⟩
  have hused : (kube.verify && !context.insecure && kube.bundle.getD "" = "" &&
      context.certificateAuthority.getD "" = "") = true := by
    obtain ⟨hverify, hinsecure⟩ : kube.verify = true ∧ context.insecure = false := by
      simpa using hoff
    simp [hverify, hinsecure, hbundle, hauthority]
  rw [if_neg (not_not_intro hauthority), hused, if_pos rfl]
  cases hdata : context.certificateAuthorityData with
  | none =>
    rw [if_neg (by simp)]
    split
    · exact Or.inr ⟨_, rfl, rfl, rfl⟩
    · exact Or.inr ⟨_, rfl, rfl, rfl⟩
  | some data =>
    by_cases hempty : data = ""
    · rw [if_neg (by simp [hempty])]
      split
      · exact Or.inr ⟨_, by simp [hempty], rfl, rfl⟩
      · exact Or.inr ⟨_, by simp [hempty], rfl, rfl⟩
    · rw [if_pos (by simpa using hempty)]
      exact Or.inl ⟨data, by simp [hempty], rfl⟩

/-- A bundle is made of what the data decode to, or it is refused. -/
theorem from_createBundle (data : String) (before : Effects) :
    Action.from before (createBundle data) =
      match Base64.decode (Text.withoutBlanks data.toList) with
      | .error fault => (.error (.fetch (.badBundle fault)), before)
      | .ok content => (.ok (.temporary before.bundles.next),
          { before with bundles := (before.bundles.create content).2 }) := by
  unfold createBundle
  cases Base64.decode (Text.withoutBlanks data.toList) with
  | error fault => rfl
  | ok content => rfl

theorem verification_of_make {url : String} {token : Option String} {v : Verification}
    {timeout : Int} {client : Client} (h : make url token v timeout = .ok client) :
    client.verification = v := by
  unfold make at h
  split at h
  · exact nomatch h
  · rw [← Except.ok.inj h]

/-- What becomes of the temporary files when a client is built: nothing if that fails or if there
are no certificates to write, and otherwise one more file for the client. -/
inductive Built (host : Host) (settings : Settings) (before : Bundles) :
    Except Failure Client → Bundles → Prop
  | failed {f : Failure} {after : Bundles} (hfiles : before.SameFiles after) :
      Built host settings before (.error f) after
  | plain {client : Client} (hnone : certificates host settings = none)
      (hverification : temporaryOf client.verification = none)
      (htemporary : client.temporary = none) :
      Built host settings before (.ok client) before
  | withFile {client : Client} {content : List UInt8}
      (hsome : certificates host settings = some content)
      (hverification : client.verification = .temporary before.next)
      (htemporary : client.temporary = some before.next) :
      Built host settings before (.ok client) (before.create content).2

/-- A client that comes about has its certificates in a file, and one that does not leaves none. -/
theorem built_ofSettings (host : Host) (captured : Environment) (settings : Settings)
    (hfresh : before.bundles.IsFresh) :
    Built host settings before.bundles (Action.from before (ofSettings host captured settings)).1
      (Action.from before (ofSettings host captured settings)).2.bundles := by
  obtain ⟨records, hload⟩ := Kubeconfig.onlyNotes_load host settings.kube.kubeconfig before
  have houtcome : Kubeconfig.outcome host settings.kube.kubeconfig =
      (Kubeconfig.load host settings.kube.kubeconfig).result := rfl
  rw [ofSettings_eq, Action.from_bind, hload, ← houtcome]
  cases hcontext : Kubeconfig.outcome host settings.kube.kubeconfig with
  | error f => exact .failed (.refl _)
  | ok context =>
    dsimp only
    unfold ofContext
    dsimp only
    rw [Action.from_bind, Action.from_lift]
    cases htoken : tokenOf host captured settings.kube context with
    | error f => exact .failed (.refl _)
    | ok token =>
      dsimp only
      rw [Action.from_bind]
      -- The token is there; now a file is made, or none is needed.
      rcases verificationOf_cases host settings.kube context with ⟨data, hdata, hv⟩
        | ⟨v, hdata, hnone, hv⟩
      · rw [hv, from_createBundle]
        cases hdecode : Base64.decode (Text.withoutBlanks data.toList) with
        | error fault => exact .failed (.refl _)
        | ok content =>
          have hcertificates : certificates host settings = some content := by
            rw [certificates_of_outcome hcontext, hdata, Option.bind_some, hdecode]
            rfl
          dsimp only
          rw [Action.from_bind, Action.from_note]
          dsimp only
          -- Without a server the file that was just made has to go again.
          cases hmake : make (serverOf host.environment settings.kube context) token
              (.temporary before.bundles.next) settings.kube.timeout with
          | error f => exact .failed (Bundles.sameFiles_remove_create hfresh content)
          | ok client =>
            have hverification : client.verification = .temporary before.bundles.next :=
              verification_of_make hmake
            exact .withFile hcertificates hverification rfl
      · have hcertificates : certificates host settings = none := by
          rw [certificates_of_outcome hcontext, hdata, Option.bind_none]
        rw [hv, Action.from_pure]
        dsimp only
        rw [Action.from_bind, Action.from_note]
        dsimp only
        cases hmake : make (serverOf host.environment settings.kube context) token v
          settings.kube.timeout with
        | error f =>
          rw [hnone]
          exact .failed (.refl _)
        | ok client =>
          refine .plain hcertificates ?_ hnone
          change temporaryOf client.verification = none
          rw [verification_of_make hmake, hnone]

/-- Closing a client removes its temporary file, if it has one, and never fails. -/
theorem from_close (client : Client) (before : Effects) :
    Action.from before client.close = (.ok { client with temporary := none },
      { before with bundles := client.temporary.elim before.bundles before.bundles.remove }) := by
  unfold close
  cases client.temporary with
  | none => rfl
  | some number => rfl

/-- What a reply says has one result. -/
theorem onlyNotes_interpret (client : Client) (name ns : String) (reply : Reply) :
    (client.interpret name ns reply).OnlyNotes := by
  unfold interpret
  split
  · exact .throw _
  · exact .throw _
  split
  · exact .throw _
  split
  · exact .bind (.lift _) (fun _ => .throw _)
  split
  · exact .throw _
  · exact Repository.onlyNotes_ofResource _
  · exact .throw _

/-- Whatever comes back for a request, the temporary files are left as they are. -/
theorem keepsBundles_fetch (client : Client) (wire : Wire) (name ns : String) :
    (client.fetch wire name ns).KeepsBundles :=
  .bind (.note _)
    (fun _ => .bind (.send _) (fun _ => (client.onlyNotes_interpret _ _ _).keepsBundles))

end Client

theorem Source.bundles_close_ofClient (client : Client) (wire : Wire) (before : Effects) :
    (Action.from before (ofClient client wire).close).2.bundles =
      client.temporary.elim before.bundles before.bundles.remove := by
  unfold ofClient
  rw [Action.from_bind, client.from_close]
  rfl

/-! ### Describing -/

namespace Describe

variable {host : Host} {captured : Environment} {settings : Settings} {options : Options}
  {wire : Wire} {before : Effects}

/-- A report keeps all files, if the fetches of its source do. -/
theorem keepsBundles_report {source : Source}
    (hfetch : ∀ name ns, (source.fetch name ns).KeepsBundles) (now : Moment)
    (name ambient override : String) (style : Style) :
    (report source now name ambient override style).KeepsBundles :=
  .bind (.note _) (fun _ => .bind (hfetch _ _) (fun _ => .bind (.noteAll _) (fun _ => .pure _)))

/-- Making an outcome of a report has no effects of its own. -/
theorem from_outcome_snd (a : Action String) (before : Effects) :
    (Action.from before (outcome a)).2 = (Action.from before a).2 := by
  unfold outcome
  rw [Action.from_tryCatch, Action.from_bind]
  cases Action.from before a with
  | mk r after =>
    cases r with
    | ok text => rfl
    | error f =>
      cases f with
      | fetch reason => rfl
      | _ => rfl

/-- A description with a source that it is handed leaves the temporary files as they are. -/
theorem keepsBundles_runWith {source : Source}
    (hfetch : ∀ name ns, (source.fetch name ns).KeepsBundles) (host : Host) (settings : Settings)
    (options : Options) (now : Moment) (isTerminal : Bool) :
    (runWith host settings options source now isTerminal).KeepsBundles := by
  refine .bind (Namespace.onlyNotes_current host settings.kube).keepsBundles (fun ambient => ?_)
  intro before
  rw [from_outcome_snd]
  exact keepsBundles_report hfetch now options.name ambient options.ns.orEmpty _ before

/-- What is done with a source that the command opened by itself leaves the temporary files as they
are, if the source has been closed after it. -/
theorem sameFiles_useAndClose {α : Type} {ambient : String} (use : Source → Action α)
    (huse : ∀ source, (∀ name ns, (source.fetch name ns).KeepsBundles) → (use source).KeepsBundles)
    (hfresh : before.bundles.IsFresh) :
    before.bundles.SameFiles (Action.from before
      (useAndClose (openSource host captured settings options wire ambient) use)).2.bundles := by
  rw [from_useAndClose (opensClosable_openSource host captured settings options wire ambient)]
  unfold openSource
  cases options.file with
  | blank => exact .refl _
  | text path =>
    unfold Source.ofManifest
    rw [Action.from_bind]
    have hload := (Manifest.onlyNotes_load host (FilePath.ofText path)).keepsBundles before
    cases hfirst : Action.from before (Manifest.load host (FilePath.ofText path)) with
    | mk r after =>
      rw [hfirst] at hload
      cases r with
      | error f => exact .of_eq hload
      | ok repos =>
        -- Closing a shelf does nothing.
        have hused := huse (Source.ofShelf (Shelf.ofList (repos.map (Manifest.placed ambient))))
          (fun name ns => .lift _) after
        exact .of_eq (hused.trans hload)
  | absent =>
    dsimp only
    rw [Action.from_bind]
    have hbuilt := Client.built_ofSettings host captured settings hfresh
    cases hfirst : Action.from before (Client.ofSettings host captured settings) with
    | mk r after =>
      rw [hfirst] at hbuilt
      dsimp only at hbuilt ⊢
      generalize hbundles : after.bundles = b at hbuilt
      cases hbuilt with
      | failed hfiles => exact hbundles ▸ hfiles
      | @plain client hnone hverification htemporary =>
        have hused := huse (Source.ofClient client wire) (client.keepsBundles_fetch wire) after
        dsimp only
        rw [Action.from_pure]
        dsimp only
        rw [Source.bundles_close_ofClient, htemporary]
        exact .of_eq (hused.trans hbundles)
      | @withFile client content hsome hverification htemporary =>
        have hused := huse (Source.ofClient client wire) (client.keepsBundles_fetch wire) after
        dsimp only
        rw [Action.from_pure]
        dsimp only
        rw [Source.bundles_close_ofClient, htemporary]
        -- The file that is removed is the one that was made for the client.
        change before.bundles.SameFiles (Bundles.remove _ before.bundles.next)
        rw [hused, hbundles]
        exact Bundles.sameFiles_remove_create hfresh content

/-- A description with a source of its own leaves the temporary files as they were. -/
theorem sameFiles_run (host : Host) (captured : Environment) (settings : Settings)
    (options : Options) (wire : Wire) (now : Moment) (isTerminal : Bool)
    (hfresh : before.bundles.IsFresh) :
    before.bundles.SameFiles
      (Action.from before (run host captured settings options wire now isTerminal)).2.bundles := by
  unfold run
  rw [Action.from_bind]
  have hcurrent := (Namespace.onlyNotes_current host settings.kube).keepsBundles before
  cases hfirst : Action.from before (Namespace.current host settings.kube) with
  | mk r after =>
    rw [hfirst] at hcurrent
    cases r with
    | error f => exact .of_eq hcurrent
    | ok ambient =>
      dsimp only
      rw [from_outcome_snd, ← show after.bundles = before.bundles from hcurrent]
      refine sameFiles_useAndClose _ (fun source hfetch => keepsBundles_report hfetch _ _ _ _ _) ?_
      exact hfresh.of_sameFiles (.of_eq hcurrent)

end Describe

end PipelineRuns
