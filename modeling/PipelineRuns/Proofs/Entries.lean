import PipelineRuns.Proofs.Actions
import PipelineRuns.Repository

/-!
# Entries of a status cannot spoil a Repository

An entry of a status is an arbitrary mapping. Reading it takes two steps, and both always succeed:
the draft that is taken from an entry holds texts, timestamps and nulls only, which is what the
check of the draft asks for (`Run.read_eq`). So the runs of a resource add nothing to the ways in
which it can be unreadable, and `Repository.outcome_eq_described` splits the outcome in two: whether
there is a Repository is decided by a resource with the metadata and the specification alone
(`described`), and its runs by the recorded list alone.

Each part of a run is read from one key of its entry (`Run.Part.key`), and `Run.agree_ofEntry` is
the two-run statement for it: entries that agree on this key agree on this part. With
`Run.recorded_set` a change to one value of one entry changes one run, in the parts that are read
from that key.

Main statement: `Repository.runs_ofResource`.
-/

namespace PipelineRuns

namespace Run

/-! ### Parts of a run -/

/-- The parts of a run. -/
inductive Part where
  | name
  | reason
  | message
  | start
  | completion
  | sha
  | shaUrl
  | title
  | branch
  | event
  deriving DecidableEq, Repr

/-- The key of an entry that a part is read from; two parts are read from the conditions. -/
def Part.key : Part → String
  | name => "pipelineRunName"
  | reason => "conditions"
  | message => "conditions"
  | start => "startTime"
  | completion => "completionTime"
  | sha => "sha"
  | shaUrl => "sha_url"
  | title => "title"
  | branch => "target_branch"
  | event => "event_type"

/-- Two runs have the same part. -/
def Part.Agree (a b : Run) : Part → Prop
  | name => a.name = b.name
  | reason => a.reason = b.reason
  | message => a.message = b.message
  | start => a.start = b.start
  | completion => a.completion = b.completion
  | sha => a.sha = b.sha
  | shaUrl => a.shaUrl = b.shaUrl
  | title => a.title = b.title
  | branch => a.branch = b.branch
  | event => a.event = b.event

/-- A run has no other parts. -/
theorem eq_of_agree {a b : Run} (h : ∀ p : Part, p.Agree a b) : a = b := by
  cases a
  cases b
  simp only [mk.injEq]
  exact ⟨h .name, h .reason, h .message, h .start, h .completion, h .sha, h .shaUrl, h .title,
    h .branch, h .event⟩

/-- Two runs have the same parts, those apart that are read from `key`. -/
def SameBut (key : String) (a b : Run) : Prop :=
  ∀ p : Part, p.key ≠ key → p.Agree a b

/-- **Every part has its own key.** Entries that agree on the key of a part agree on the part. -/
theorem agree_ofEntry (p : Part) {m m' : Mapping} (h : m.get p.key = m'.get p.key) :
    p.Agree (ofEntry m) (ofEntry m') := by
  have htext {key : String} (hk : m.get key = m'.get key) : textAt m key = textAt m' key := by
    unfold textAt
    rw [hk]
  have htime {key : String} (hk : m.get key = m'.get key) : timeAt m key = timeAt m' key := by
    unfold timeAt
    rw [hk]
  have hcondition (hk : m.get "conditions" = m'.get "conditions") : condition m = condition m' := by
    unfold condition
    rw [hk]
  -- Each part is read from one key of the entry; reason and message share the key of the
  -- conditions.
  cases p with
  | name => exact congrArg (Option.getD · "") (htext h)
  | reason => exact congrArg (fun c => nonEmpty (textAt c "reason")) (hcondition h)
  | message => exact congrArg (fun c => nonEmpty (textAt c "message")) (hcondition h)
  | start => exact htime h
  | completion => exact htime h
  | sha => exact htext h
  | shaUrl => exact htext h
  | title => exact htext h
  | branch => exact htext h
  | event => exact htext h

theorem sameBut_ofEntry {key : String} {m m' : Mapping} (h : ∀ k, k ≠ key → m'.get k = m.get k) :
    SameBut key (ofEntry m) (ofEntry m') :=
  fun p hp => agree_ofEntry p (h p.key hp).symm

/-! ### Both steps of reading succeed -/

theorem textOrNull_ofText? (place : String) (s : Option String) :
    Field.textOrNull place (Value.ofText? s) = .ok s := by
  cases s with
  | none => rfl
  | some t => rfl

/-- A draft holds a timestamp or null where the record has a time. -/
theorem momentOrNull_stamped (place : String) (v : Value) :
    momentOrNull place (stamped v) = .ok (if noTime v then none else Moment.ofValue? v) := by
  unfold stamped
  split
  · rfl
  · unfold Moment.ofValue?
    cases Reading.ofValue? v with
    | none => rfl
    | some stamp => rfl

/-- An entry is always readable. -/
theorem read_eq (entry : Mapping) : read entry = .ok (ofEntry entry) := by
  unfold read ofDraft draft
  simp only [Field.text, textOrNull_ofText?, momentOrNull_stamped]
  rfl

theorem from_load (entry : Mapping) (before : Effects) :
    Action.from before (load entry) =
      (.ok (ofEntry entry), { before with journal := before.journal ++ remarks entry }) := by
  unfold load
  rw [Action.from_bind, Action.from_noteAll, read_eq]
  rfl

/-- Entries are read one after the other, and none stops the reading. -/
theorem from_mapM_load (entries : List Mapping) (before : Effects) :
    Action.from before (entries.mapM load) =
      (.ok (entries.map ofEntry),
        { before with journal := before.journal ++ entries.flatMap remarks }) := by
  induction entries generalizing before with
  | nil => simp
  | cons entry rest ih =>
    rw [List.mapM_cons, Action.from_bind, from_load]
    simp only
    rw [Action.from_bind, ih]
    simp only [Action.from_pure, List.map_cons, List.flatMap_cons, List.append_assoc]

/-! ### Lists of entries -/

/-- The runs that a list of a status records: those of its items that are mappings. -/
def recorded (items : List Value) : List Run :=
  (items.filterMap Value.entries?).map ofEntry

/-- An item that is a mapping is the entry of one run, and another mapping in its place gives
another run in the place of this one. -/
theorem recorded_set {items : List Value} {i : Nat} {entry : Mapping}
    (h : items[i]? = some (.mapping entry)) (entry' : Mapping) :
    ∃ j, (recorded items)[j]? = some (ofEntry entry) ∧
      recorded (items.set i (.mapping entry')) = (recorded items).set j (ofEntry entry') := by
  -- Induction on the items before the changed one; those that are no mappings do not count for `j`.
  induction items generalizing i with
  | nil => exact absurd h (by simp)
  | cons v rest ih =>
    cases i with
    | zero =>
      obtain rfl : v = .mapping entry := by simpa using h
      exact ⟨0, rfl, rfl⟩
    | succ i =>
      obtain ⟨j, hget, hset⟩ := ih (by simpa using h)
      unfold recorded at hget hset ⊢
      rw [List.set_cons_succ]
      cases hv : v.entries? with
      | none =>
        rw [List.filterMap_cons_none hv, List.filterMap_cons_none hv]
        exact ⟨j, hget, hset⟩
      | some m =>
        rw [List.filterMap_cons_some hv, List.filterMap_cons_some hv, List.map_cons, List.map_cons]
        exact ⟨j + 1, hget, congrArg (ofEntry m :: ·) hset⟩

end Run

namespace Repository

/-! ### What decides whether there is a Repository -/

/-- A resource with the metadata and the specification of another one, and nothing else. -/
def described (data : Mapping) : Mapping :=
  [(.text "metadata", data.get "metadata"), (.text "spec", data.get "spec")]

/-- What can be wrong with a resource: its metadata or its specification is given and is no mapping,
its name or namespace is no text, or its URL is given and is no text. -/
inductive Faulty (data : Mapping) : Prop
  | part (key : String) (hkey : key = "metadata" ∨ key = "spec")
    (hgiven : (data.get key).isTruthy = true)
      (hshape : (data.get key).entries? = none)
  | identity (metadata : Mapping) (hpart : data.get "metadata" = .mapping metadata) (key : String)
      (hkey : key = "name" ∨ key = "namespace") (v : Value) (hv : metadata.get? key = some v)
      (hshape : v.text? = none)
  | url (spec : Mapping) (hpart : data.get "spec" = .mapping spec)
      (hgiven : (spec.get "url").isTruthy = true) (hshape : (spec.get "url").text? = none)

/-- The list of a status: the one under its own key, or where that is absent or null the one under
the older key; no items where there is no list. -/
inductive Selected (data : Mapping) : List Value → Prop
  | own {items : List Value} (h : data.get "pipelinerun_status" = .list items) : Selected data items
  | older {items : List Value} (h : data.get "pipelinerun_status" = .null)
      (h' : data.get "status" = .list items) : Selected data items
  | ownNoList (h : data.get "pipelinerun_status" ≠ .null)
      (h' : ∀ items, data.get "pipelinerun_status" ≠ .list items) : Selected data []
  | olderNoList (h : data.get "pipelinerun_status" = .null)
      (h' : ∀ items, data.get "status" ≠ .list items) : Selected data []

theorem selected_statuses (data : Mapping) : Selected data (statuses data) := by
  unfold statuses
  cases h : data.get "pipelinerun_status" with
  | null =>
    simp only [Value.isNull, if_true]
    cases h' : data.get "status" with
    | list items => exact .older h h'
    | _ => exact .olderNoList h (by simp [h'])
  | list items => exact .own h
  | _ => exact .ownNoList (by simp [h]) (by simp [h])

theorem part_described (data : Mapping) {key : String} (hkey : key = "metadata" ∨ key = "spec") :
    part (described data) key = part data key := by
  have hget : (described data).get key = data.get key := by
    rcases hkey with rfl | rfl
    · simp [described, Mapping.get]
    · simp [described, Mapping.get]
  unfold part
  rw [hget]

/-- The fields of a Repository are checked without looking at its runs. -/
theorem map_ofFields (name ns url : Value) (runs runs' : List Run) :
    (ofFields name ns url runs).map (fun repo => { repo with runs := runs' }) =
      ofFields name ns url runs' := by
  unfold ofFields
  cases Field.text "name" name <;> cases Field.text "namespace" ns <;>
    cases Field.text "url" url <;> rfl

theorem text?_of_text_error {place : String} {v : Value} {i : Issue}
    (h : Field.text place v = .error i) : v.text? = none := by
  cases v with
  | text s => exact absurd h (by simp [Field.text])
  | _ => rfl

theorem faulty_of_part {data : Mapping} {key : String} (hkey : key = "metadata" ∨ key = "spec")
    {f : Failure} (h : part data key = .error f) : Faulty data := by
  unfold part at h
  simp only at h
  split at h
  · next hgiven =>
    refine .part key hkey hgiven ?_
    cases hv : data.get key with
    | mapping m => simp [hv] at h
    | _ => rfl
  · exact absurd h (by simp)

/-- A part that can be used is the mapping under its key, or empty. -/
theorem part_eq_ok {data m : Mapping} {key : String} (h : part data key = .ok m) :
    data.get key = .mapping m ∨ m = [] := by
  unfold part at h
  simp only at h
  split at h
  · cases hv : data.get key with
    | mapping m' =>
      rw [hv] at h
      exact Or.inl (congrArg Value.mapping (Except.ok.inj h))
    | _ => simp [hv] at h
  · exact Or.inr (Except.ok.inj h).symm

theorem faulty_of_identity {data metadata : Mapping} (hpart : part data "metadata" = .ok metadata)
    {key : String} (hkey : key = "name" ∨ key = "namespace") {i : Issue}
    (h : Field.text key (textOrEmpty metadata key) = .error i) : Faulty data := by
  unfold textOrEmpty at h
  cases hv : metadata.get? key with
  | none => simp [hv, Field.text] at h
  | some v =>
    rw [hv, Option.getD_some] at h
    rcases part_eq_ok hpart with hmap | rfl
    · exact .identity metadata hmap key hkey v hv (text?_of_text_error h)
    · exact absurd hv (by simp)

theorem faulty_of_url {data spec : Mapping} (hpart : part data "spec" = .ok spec) {i : Issue}
    (h : Field.text "url" (givenOrEmpty spec "url") = .error i) : Faulty data := by
  unfold givenOrEmpty at h
  split at h
  · next hgiven =>
    rcases part_eq_ok hpart with hmap | rfl
    · exact .url spec hmap hgiven (text?_of_text_error h)
    · exact absurd hgiven (by simp [Mapping.get, Value.isTruthy])
  · exact absurd h (by simp [Field.text])

/-! ### The outcome of reading a resource -/

/-- The outcome of reading a resource, apart from its notes. -/
def outcome (data : Mapping) (before : Effects) : Except Failure Repository :=
  (Action.from before (ofResource data)).1

theorem outcome_eq (data : Mapping) (before : Effects) :
    outcome data before =
      (part data "metadata").bind (fun metadata => (part data "spec").bind (fun spec =>
        ofFields (textOrEmpty metadata "name") (textOrEmpty metadata "namespace")
          (givenOrEmpty spec "url") ((statusEntries data).map Run.ofEntry))) := by
  unfold outcome ofResource
  rw [Action.from_bind, Action.from_lift]
  cases part data "metadata" with
  | error f => rfl
  | ok metadata =>
    simp only
    rw [Action.from_bind, Action.from_lift]
    cases part data "spec" with
    | error f => rfl
    | ok spec =>
      simp only
      rw [Action.from_bind, Run.from_mapM_load]
      rfl

/-- Whether there is a Repository does not depend on the status; its runs depend on nothing else. -/
theorem outcome_eq_described (data : Mapping) (before before' : Effects) :
    outcome data before = (outcome (described data) before').map
      (fun repo => { repo with runs := (statusEntries data).map Run.ofEntry }) := by
  rw [outcome_eq, outcome_eq, part_described data (Or.inl rfl), part_described data (Or.inr rfl)]
  cases part data "metadata" with
  | error f => rfl
  | ok metadata =>
    cases part data "spec" with
    | error f => rfl
    | ok spec => exact (map_ofFields _ _ _ _ _).symm

theorem faulty_of_outcome {data : Mapping} {before : Effects} {f : Failure}
    (h : outcome data before = .error f) : Faulty data := by
  rw [outcome_eq] at h
  -- The reading takes these steps in order; whichever fails first is a fault of the resource.
  cases hm : part data "metadata" with
  | error g => exact faulty_of_part (Or.inl rfl) hm
  | ok metadata =>
    cases hs : part data "spec" with
    | error g => exact faulty_of_part (Or.inr rfl) hs
    | ok spec =>
      rw [hm, hs] at h
      simp only [Except.bind, ofFields] at h
      cases hname : Field.text "name" (textOrEmpty metadata "name") with
      | error i => exact faulty_of_identity hm (Or.inl rfl) hname
      | ok name =>
        cases hns : Field.text "namespace" (textOrEmpty metadata "namespace") with
        | error i => exact faulty_of_identity hm (Or.inr rfl) hns
        | ok ns =>
          cases hurl : Field.text "url" (givenOrEmpty spec "url") with
          | error i => exact faulty_of_url hs hurl
          | ok url => simp [hname, hns, hurl] at h

/-- **The status of a resource never makes it unreadable.** Every entry of a status is read. Reading
a resource fails only where its metadata or its specification is at fault; its outcome is that of a
resource which holds nothing but these two, with the runs put in that the selected list records.
Every part of a run is read from one key of its entry, and the run from these keys alone. An entry
that is replaced by one that differs under one key changes its own run and no other, in the parts
read from that key. -/
theorem runs_ofResource (data : Mapping) (before : Effects) :
    (∀ entry, Run.read entry = .ok (Run.ofEntry entry)) ∧
      (∀ f, outcome data before = .error f → Faulty data) ∧
      (∃ items, Selected data items ∧ outcome data before = (outcome (described data) {}).map
        (fun repo => { repo with runs := Run.recorded items })) ∧
      (∀ (p : Run.Part) (m m' : Mapping), m.get p.key = m'.get p.key →
        p.Agree (Run.ofEntry m) (Run.ofEntry m')) ∧
      (∀ m m' : Mapping, (∀ p : Run.Part, m.get p.key = m'.get p.key) →
        Run.ofEntry m = Run.ofEntry m') ∧
      (∀ (items : List Value) (i : Nat) (entry entry' : Mapping) (key : String),
        items[i]? = some (.mapping entry) → (∀ k, k ≠ key → entry'.get k = entry.get k) →
        ∃ j, (Run.recorded items)[j]? = some (Run.ofEntry entry) ∧
          Run.recorded (items.set i (.mapping entry')) =
            (Run.recorded items).set j (Run.ofEntry entry') ∧
          Run.SameBut key (Run.ofEntry entry) (Run.ofEntry entry')) := by
  refine ⟨Run.read_eq, fun f hf => faulty_of_outcome hf, ?_,
    fun p m m' h => Run.agree_ofEntry p h, ?_, ?_⟩
  · exact ⟨statuses data, selected_statuses data, outcome_eq_described data before {}⟩
  · intro m m' h
    exact Run.eq_of_agree (fun p => Run.agree_ofEntry p (h p))
  · intro items i entry entry' key hget hkeys
    obtain ⟨j, hj, hset⟩ := Run.recorded_set hget entry'
    exact ⟨j, hj, hset, Run.sameBut_ofEntry hkeys⟩

/-- An entry of a status with a start. -/
def entryStarting (start : String) : Mapping :=
  [(.text "pipelineRunName", .text "build"), (.text "startTime", .text start),
    (.text "sha", .int 7)]

theorem runs_ofResource_start :
    ∃ j, (Run.recorded [.null, .mapping (entryStarting "2024-05-01T12:00:00Z")])[j]? =
        some (Run.ofEntry (entryStarting "2024-05-01T12:00:00Z")) ∧
      Run.recorded [.null, .mapping (entryStarting "soon")] =
        (Run.recorded [.null, .mapping (entryStarting "2024-05-01T12:00:00Z")]).set j
          (Run.ofEntry (entryStarting "soon")) ∧
      Run.SameBut "startTime" (Run.ofEntry (entryStarting "2024-05-01T12:00:00Z"))
        (Run.ofEntry (entryStarting "soon")) := by
  have hget : ∀ start k, k ≠ "startTime" → (entryStarting start).get k =
      Mapping.get [(.text "pipelineRunName", .text "build"), (.text "sha", .int 7)] k := by
    intro start k hk
    unfold entryStarting Mapping.get
    rw [Mapping.get?_cons, Mapping.get?_cons, Value.isText_text k "startTime",
      decide_eq_false (Ne.symm hk), if_neg Bool.false_ne_true]
    rfl
  have hkeys : ∀ k, k ≠ "startTime" →
      (entryStarting "soon").get k = (entryStarting "2024-05-01T12:00:00Z").get k :=
    fun k hk => (hget "soon" k hk).trans (hget "2024-05-01T12:00:00Z" k hk).symm
  exact (runs_ofResource [] {}).2.2.2.2.2
    [.null, .mapping (entryStarting "2024-05-01T12:00:00Z")] 1 _ _ "startTime" rfl hkeys

example : (Run.ofEntry (entryStarting "soon")).start = none := by decide

end Repository

end PipelineRuns
