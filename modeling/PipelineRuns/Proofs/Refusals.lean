import PipelineRuns.Proofs.Descriptions

/-!
# What a refusal ends in

A server that does not hand out a Repository answers with a status of 400 or more. With status 404
there is no such Repository, and with any other one the request was refused; either is a failed
fetch, so that a description reports it as an error and ends with exit code 1.

The body of such an answer can be anything. It is read as a text and, where that is possible, as
JSON (`Client.Body`), and nothing is assumed here on how the two readings belong together; a client
reads UTF-8 (`Client.Body.ofText`, `Client.fetch_eq_exchange`). There is one exception to what is
said above. A body that is JSON but no mapping (`Client.Body.IsBare`) is not searched for a message,
and then a refusal is no failed fetch: it ends the fetch for another reason, and the description
with it.

What comes of one response is `Client.EndsIn`, with a clause for each of the ways in which it can be
asked for. All of them rest on `Client.from_exchange`: a refusal has no result but its failure
(`Client.refusal`).

Main statement: `Client.refused`. An empty list as a body is seen after it.
-/

namespace PipelineRuns.Client

/-! ### Bodies -/

/-- The body of a response as it is read: its text, and the value that it is in JSON, if it is
any. -/
structure Body where
  text : String
  json : Option Value

namespace Body

/-- A body in UTF-8. -/
def ofText (text : String) : Body := ⟨text, Json.parse text⟩

/-- A body that is JSON but no mapping. -/
def IsBare (body : Body) : Prop :=
  ∃ v, body.json = some v ∧ v.entries? = none

/-- What a body says on a refusal: its message, or else itself, the reason or the status. -/
def complaint (body : Body) (status : Int) (reason : String) : Except Failure String :=
  match body.json with
  | some (.mapping m) =>
    match Mapping.get? m "message" with
    | some v => .ok v.shown
    | none => .ok (firstOf [body.text, reason, toString status])
  | some _ => .error .notMapping
  | none => .ok (firstOf [body.text, reason, toString status])

variable {body : Body}

theorem complaint_of_isBare (h : body.IsBare) (status : Int) (reason : String) :
    body.complaint status reason = .error .notMapping := by
  obtain ⟨v, hv, hentries⟩ := h
  unfold complaint
  rw [hv]
  cases v with
  | mapping m => exact nomatch hentries
  | _ => rfl

theorem exists_complaint (h : ¬ body.IsBare) (status : Int) (reason : String) :
    ∃ message, body.complaint status reason = .ok message := by
  unfold complaint
  cases hjson : body.json with
  | none => exact ⟨_, rfl⟩
  | some v =>
    cases v with
    | mapping m =>
      dsimp only
      cases Mapping.get? m "message" with
      | none => exact ⟨_, rfl⟩
      | some message => exact ⟨_, rfl⟩
    | _ => exact absurd ⟨_, hjson, rfl⟩ h

end Body

/-! ### Responses -/

variable {client : Client} {name ns reason text : String} {status : Int} {body : Body} {wire : Wire}

/-- What a client makes of a response. -/
def answer (name ns : String) (status : Int) (reason : String) (body : Body) : Action Repository :=
  if status = 404 then throw (.fetch (.notFound name ns))
  else if 400 ≤ status then do
    let message ← (body.complaint status reason : Except Failure String)
    throw (.fetch (.refused status message))
  else
    match body.json with
    | none => throw .notJson
    | some (.mapping m) => Repository.ofResource m
    | some _ => throw .notMapping

/-- A fetch for which a response comes back. -/
def exchange (client : Client) (status : Int) (reason : String) (body : Body) (name ns : String) :
    Action Repository := do
  note (.debug channel ("GET " ++ path name ns))
  send (client.request name ns)
  answer name ns status reason body

/-- A client reads UTF-8. -/
theorem fetch_eq_exchange (h : wire (client.request name ns) = .response status reason text) :
    client.fetch wire name ns = client.exchange status reason (.ofText text) name ns := by
  unfold fetch
  rw [h]
  rfl

/-- The failure that a refusal is. -/
def refusal (name ns : String) (status : Int) (reason : String) (body : Body) : Failure :=
  if status = 404 then .fetch (.notFound name ns)
  else
    match body.complaint status reason with
    | .ok message => .fetch (.refused status message)
    | .error f => f

/-- A refusal is nothing but a failure. -/
theorem from_exchange (client : Client) (hstatus : 400 ≤ status) (reason : String) (body : Body)
    (name ns : String) (before : Effects) :
    (Action.from before (client.exchange status reason body name ns)).1 =
      .error (refusal name ns status reason body) := by
  unfold exchange answer refusal
  rw [Action.from_bind, Action.from_note]
  dsimp only
  rw [Action.from_bind, Action.from_send]
  dsimp only
  by_cases hmissing : status = 404
  · rw [if_pos hmissing, if_pos hmissing, Action.from_throw]
  · rw [if_neg hmissing, if_neg hmissing, if_pos hstatus, Action.from_bind, Action.from_lift]
    cases body.complaint status reason with
    | ok message => rfl
    | error f => rfl

theorem refusal_of_missing (h : status = 404) :
    refusal name ns status reason body = .fetch (.notFound name ns) :=
  if_pos h

theorem refusal_of_complaint {message : String} (h : status ≠ 404)
    (hcomplaint : body.complaint status reason = .ok message) :
    refusal name ns status reason body = .fetch (.refused status message) := by
  unfold refusal
  rw [if_neg h, hcomplaint]

theorem refusal_of_isBare (h : status ≠ 404) (hbare : body.IsBare) :
    refusal name ns status reason body = .notMapping := by
  unfold refusal
  rw [if_neg h, body.complaint_of_isBare hbare]

/-- A refusal that is told begins with its status. -/
theorem status_prefix_message (status : Int) (message : String) :
    (toString status).toList <+: (FetchFailure.refused status message).message.toList := by
  have hmessage :
      (FetchFailure.refused status message).message = toString status ++ (": " ++ message) := by
    unfold FetchFailure.message
    exact String.append_assoc
  rw [hmessage, String.toList_append]
  exact List.prefix_append _ _

theorem eq_of_refusal_eq_notFound {name' ns' : String}
    (h : refusal name ns status reason body = .fetch (.notFound name' ns')) :
    status = 404 ∧ name' = name ∧ ns' = ns := by
  by_cases hmissing : status = 404
  · rw [refusal_of_missing hmissing] at h
    obtain ⟨rfl, rfl⟩ := FetchFailure.notFound.inj (Failure.fetch.inj h)
    exact ⟨hmissing, rfl, rfl⟩
  · by_cases hbare : body.IsBare
    · rw [refusal_of_isBare hmissing hbare] at h
      exact nomatch h
    · obtain ⟨message, hmessage⟩ := body.exists_complaint hbare status reason
      rw [refusal_of_complaint hmissing hmessage] at h
      exact nomatch h

/-! ### Descriptions -/

/-- A description asks for this Repository: it names it, in a namespace that counts. -/
structure AskedFor (host : Host) (settings : Settings) (options : Describe.Options)
    (name ns : String) : Prop where
  name_eq : options.name = name
  exists_ambient : ∃ ambient, (Namespace.current host settings.kube).result = .ok ambient ∧
    Namespace.effective ambient options.ns.orEmpty = ns

variable {host : Host} {settings : Settings} {options : Describe.Options} {source : Source}
  {f : Failure} {before : Effects}

theorem AskedFor.exists_from_current (h : AskedFor host settings options name ns)
    (before : Effects) :
    ∃ ambient after, Action.from before (Namespace.current host settings.kube) =
      (.ok ambient, after) ∧
      Namespace.effective ambient options.ns.orEmpty = ns := by
  obtain ⟨ambient, hambient, hns⟩ := h.exists_ambient
  obtain ⟨records, hcurrent⟩ := Namespace.onlyNotes_current host settings.kube before
  rw [hambient] at hcurrent
  exact ⟨ambient, _, hcurrent, hns⟩

/-- What a source fails with is what the description is concluded with. -/
theorem from_fetchFrom (hfetch : ∀ before, (Action.from before (source.fetch name ns)).1 = .error f)
    {ambient override : String} (hns : Namespace.effective ambient override = ns)
    (before : Effects) :
    (Action.from before (Describe.fetchFrom source name ambient override)).1 = .error f := by
  unfold Describe.fetchFrom
  rw [Action.from_bind, Action.from_note, hns]
  exact hfetch _

theorem from_fetched (hasked : AskedFor host settings options name ns)
    (hfetch : ∀ before, (Action.from before (source.fetch name ns)).1 = .error f)
    {opened : String → Action Source}
    (hopened : (Action.from before (Namespace.current host settings.kube >>= opened)).1 =
      .ok source) :
    (Action.from before (Describe.fetched host settings options opened)).1 = .error f := by
  obtain ⟨ambient, after, hcurrent, hns⟩ := hasked.exists_from_current before
  unfold Describe.fetched
  rw [Action.from_bind, hcurrent] at hopened ⊢
  dsimp only at hopened ⊢
  -- The source that is opened after the look-up of the namespace is the one that fails.
  rw [Action.from_bind]
  cases hsource : Action.from after (opened ambient) with
  | mk r later =>
    rw [hsource] at hopened
    obtain rfl : r = .ok source := hopened
    dsimp only
    rw [hasked.name_eq]
    exact from_fetchFrom hfetch hns later

/-- A source that is handed over is there after the look-up of the namespace. -/
theorem from_current_pure (hasked : AskedFor host settings options name ns) (source : Source) :
    (Action.from before (Namespace.current host settings.kube >>= fun _ => pure source)).1 =
      .ok source := by
  obtain ⟨ambient, after, hcurrent, -⟩ := hasked.exists_from_current before
  rw [Action.from_bind, hcurrent]
  rfl

/-- Without a manifest, the source is the client that the settings lead to. -/
theorem from_current_openSource (hasked : AskedFor host settings options name ns)
    (hfile : options.file = .absent) {captured : Environment}
    (hbuilt : (Action.from before (Namespace.current host settings.kube >>= fun _ =>
      ofSettings host captured settings)).1 = .ok client) :
    (Action.from before (Namespace.current host settings.kube >>=
      Describe.openSource host captured settings options wire)).1 =
        .ok (Source.ofClient client wire) := by
  obtain ⟨ambient, after, hcurrent, -⟩ := hasked.exists_from_current before
  rw [Action.from_bind, hcurrent] at hbuilt ⊢
  dsimp only at hbuilt ⊢
  unfold Describe.openSource
  rw [hfile]
  dsimp only
  rw [Action.from_bind]
  cases hclient : Action.from after (ofSettings host captured settings) with
  | mk r later =>
    rw [hclient] at hbuilt
    obtain rfl : r = .ok client := hbuilt
    rfl

/-- Where this response comes back, a fetch ends in the failure `f`, and a description that asks for
this Repository ends in `ending`: it is handed a source with such a fetch, or it builds the client
by itself. -/
structure EndsIn (client : Client) (name ns : String) (status : Int) (reason : String) (body : Body)
    (f : Failure) (ending : Except Failure Describe.Outcome) : Prop where
  exchange : ∀ before, (Action.from before (client.exchange status reason body name ns)).1 =
    .error f
  fetch : ∀ wire text before, body = .ofText text →
    wire (client.request name ns) = .response status reason text →
    (Action.from before (client.fetch wire name ns)).1 = .error f
  handed : ∀ host settings options source now isTerminal before,
    AskedFor host settings options name ns →
    source.fetch name ns = client.exchange status reason body name ns →
    (Action.from before (Describe.runWith host settings options source now isTerminal)).1 = ending
  built : ∀ host captured settings options wire text now isTerminal before,
    AskedFor host settings options name ns →
    options.file = .absent →
    (Action.from before (Namespace.current host settings.kube >>= fun _ =>
      ofSettings host captured settings)).1 = .ok client →
    body = .ofText text → wire (client.request name ns) = .response status reason text →
    (Action.from before (Describe.run host captured settings options wire now isTerminal)).1 =
      ending

/-- A refusal ends in its failure. -/
theorem endsIn_refusal (client : Client) (name ns : String) (hstatus : 400 ≤ status)
    (reason : String) (body : Body) {ending : Except Failure Describe.Outcome}
    (hending : ∀ now style,
      Describe.conclude now style (.error (refusal name ns status reason body)) = ending) :
    client.EndsIn name ns status reason body (refusal name ns status reason body) ending := by
  have hexchange := from_exchange client hstatus reason body name ns
  have hfetch (wire : Wire) (text : String) (before : Effects) (hbody : body = .ofText text)
      (hwire : wire (client.request name ns) = .response status reason text) :
      (Action.from before (client.fetch wire name ns)).1 =
        .error (refusal name ns status reason body) := by
    rw [fetch_eq_exchange hwire, ← hbody]
    exact hexchange before
  -- The command is handed a source, or it opens one; both ways end with the same fetch.
  refine ⟨hexchange, hfetch, ?_, ?_⟩
  · intro host settings options source now isTerminal before hasked hsource
    have hfails (before : Effects) : (Action.from before (source.fetch name ns)).1 =
        .error (refusal name ns status reason body) := by
      rw [hsource]
      exact hexchange before
    rw [Describe.from_runWith, from_fetched hasked hfails (from_current_pure hasked source)]
    exact hending _ _
  · intro host captured settings options wire text now isTerminal before hasked hfile hbuilt
      hbody hwire
    have hfails (before : Effects) :
        (Action.from before ((Source.ofClient client wire).fetch name ns)).1 =
        .error (refusal name ns status reason body) := hfetch wire text before hbody hwire
    rw [Describe.from_run, from_fetched hasked hfails (from_current_openSource hasked hfile hbuilt)]
    exact hending _ _

/-- **What a refusal ends in.** A response with a status of 400 or more ends a fetch, and a
description. With status 404, and with no other one, the Repository is not found. Any other status
is told with what the body says, after the status itself; the description is then the error with
exit code 1, as it is for a Repository that is not found. Only where the body is JSON but no
mapping, and the status is not 404, both end for another reason. -/
theorem refused (client : Client) (name ns : String) (hstatus : 400 ≤ status) (reason : String)
    (body : Body) :
    (status = 404 → client.EndsIn name ns status reason body (.fetch (.notFound name ns))
      (.ok ⟨1, "", "Error: " ++ (FetchFailure.notFound name ns).message ++ "\n"⟩)) ∧
    (∀ before name' ns', (Action.from before (client.exchange status reason body name ns)).1 =
      .error (.fetch (.notFound name' ns')) → status = 404 ∧ name' = name ∧ ns' = ns) ∧
    (status ≠ 404 → ¬ body.IsBare → ∃ message, body.complaint status reason = .ok message ∧
      (toString status).toList <+: (FetchFailure.refused status message).message.toList ∧
      client.EndsIn name ns status reason body (.fetch (.refused status message))
        (.ok ⟨1, "", "Error: " ++ (FetchFailure.refused status message).message ++ "\n"⟩)) ∧
    (status ≠ 404 → body.IsBare →
      client.EndsIn name ns status reason body .notMapping (.error .notMapping)) := by
  -- A fetch that ends in a refusal ends the whole command with what is concluded from it.
  have hends {f : Failure} {ending : Except Failure Describe.Outcome}
      (hf : refusal name ns status reason body = f)
      (hending : ∀ now style, Describe.conclude now style (.error f) = ending) :
      client.EndsIn name ns status reason body f ending := by
    subst hf
    exact endsIn_refusal client name ns hstatus reason body hending
  refine ⟨?_, ?_, ?_, ?_⟩
  · intro hmissing
    exact hends (refusal_of_missing hmissing) (fun _ _ => Describe.conclude_fetch _)
  · intro before name' ns' hfailed
    rw [from_exchange client hstatus] at hfailed
    exact eq_of_refusal_eq_notFound (Except.error.inj hfailed)
  · intro hother hbody
    obtain ⟨message, hmessage⟩ := body.exists_complaint hbody status reason
    refine ⟨message, hmessage, ?_,
      hends (refusal_of_complaint hother hmessage) (fun _ _ => Describe.conclude_fetch _)⟩
    exact status_prefix_message status message
  · intro hother hbare
    exact hends (refusal_of_isBare hother hbare)
      (fun _ _ => Describe.conclude_of_isNoFetch (fun _ h => nomatch h))

/-- A machine in a cluster. -/
def innerHost : Host where
  environment := [("KUBERNETES_SERVICE_HOST", "here")]

/-- The client that is built there. -/
def innerClient : Client where
  server := "https://here:443"

/-- A server that refuses every request, with this body. -/
def forbidding (text : String) : Wire :=
  fun _ => .response 403 "Forbidden" text

/-- A description there, with this body as the answer. -/
def refusedRun (text : String) : Except Failure Describe.Outcome :=
  (Describe.run innerHost [] {} { name := "a" } (forbidding text) ⟨0, 0⟩ false).result

theorem askedFor_innerHost : AskedFor innerHost {} { name := "a" } "a" "default" where
  name_eq := rfl
  exists_ambient := ⟨"default", eq_ok_of_toOption (by decide +kernel), rfl⟩

theorem built_innerHost :
    (Action.from {} (Namespace.current innerHost {} >>= fun _ => ofSettings innerHost [] {})).1 =
      .ok innerClient :=
  eq_ok_of_toOption (by decide +kernel)

theorem not_isBare_boom : ¬ (Body.ofText "boom").IsBare := by
  have hnone : (Json.parse "boom").isNone = true := by decide +kernel
  rintro ⟨v, hv, -⟩
  change Json.parse "boom" = some v at hv
  rw [hv] at hnone
  exact nomatch hnone

theorem isBare_emptyList : (Body.ofText "[]").IsBare := by
  have hlist : (Json.parse "[]").map (fun v => v.entries?.isNone) = some true := by decide +kernel
  obtain ⟨v, hv, hentries⟩ := Option.map_eq_some_iff.mp hlist
  exact ⟨v, hv, Option.isNone_iff_eq_none.mp hentries⟩

/-- A refusal with a text is reported, and one with an empty list is not. -/
theorem refused_forbidden :
    (400 : Int) ≤ 403 ∧ (403 : Int) ≠ 404 ∧ AskedFor innerHost {} { name := "a" } "a" "default" ∧
      ¬ (Body.ofText "boom").IsBare ∧ refusedRun "boom" = .ok ⟨1, "", "Error: 403: boom\n"⟩ ∧
      (Body.ofText "[]").IsBare ∧ refusedRun "[]" = .error .notMapping := by
  have hstatus : (400 : Int) ≤ 403 := by decide
  have hother : (403 : Int) ≠ 404 := by decide
  obtain ⟨-, -, htold, -⟩ := refused innerClient "a" "default" hstatus "Forbidden" (.ofText "boom")
  obtain ⟨message, hmessage, -, hboom⟩ := htold hother not_isBare_boom
  obtain rfl : message = "boom" := by
    have hcomplaint : ((Body.ofText "boom").complaint 403 "Forbidden").toOption = some "boom" := by
      decide +kernel
    exact (Except.ok.inj ((eq_ok_of_toOption hcomplaint).symm.trans hmessage)).symm
  obtain ⟨-, -, -, hbare⟩ := refused innerClient "a" "default" hstatus "Forbidden" (.ofText "[]")
  have hlist := hbare hother isBare_emptyList
  refine ⟨hstatus, hother, askedFor_innerHost, not_isBare_boom, ?_, isBare_emptyList, ?_⟩
  · exact hboom.built _ _ _ _ (forbidding "boom") "boom" _ _ {} askedFor_innerHost rfl
      built_innerHost rfl rfl
  · exact hlist.built _ _ _ _ (forbidding "[]") "[]" _ _ {} askedFor_innerHost rfl
      built_innerHost rfl rfl

/-- Not every refusal is a failed fetch. -/
theorem refusal_not_always_fetch :
    ¬ ∀ (client : Client) (wire : Wire) (name ns reason text : String)
      (status : Int), 400 ≤ status →
      wire (client.request name ns) = .response status reason text →
      ∃ failure, (client.fetch wire name ns).result = .error (.fetch failure) := by
  intro hall
  obtain ⟨failure, hfailure⟩ :=
    hall innerClient (forbidding "[]") "a" "default" "Forbidden" "[]" 403 (by decide) rfl
  have hfetch : innerClient.fetch (forbidding "[]") "a" "default" =
      innerClient.exchange 403 "Forbidden" (.ofText "[]") "a" "default" := fetch_eq_exchange rfl
  have hrefusal : (innerClient.exchange 403 "Forbidden" (.ofText "[]") "a" "default").result =
      .error .notMapping := by
    have hother : (403 : Int) ≠ 404 := by decide
    rw [← refusal_of_isBare hother isBare_emptyList]
    exact from_exchange innerClient (by decide) "Forbidden" (.ofText "[]") "a" "default" {}
  rw [hfetch, hrefusal] at hfailure
  exact nomatch hfailure

end PipelineRuns.Client
