import PipelineRuns.Proofs.Bundles

/-!
# A certificate file lives as long as its client

Clients are built from any settings, asked for Repositories and closed, in any order, and
descriptions are made with them and without them. A `Session` is what has been done so far;
`Session.after` does one thing more.

Every client that was built with certificates has a number of its own. These are in the file of that
number as long as the client is open, and there are no other files. That is `Session.Invariant`, in
four clauses:

* `fresh`: the number that is handed out next has no file, so building a client replaces no file.
* `sound`: what is known of each client by itself (`Session.Sound`). One that was built with
  certificates keeps the number of its file when it is closed, in its verification, so a closed
  client can still be told from the others.
* `distinct`: no two clients have the same number, so closing one leaves the files of the others.
* `owned`: every file belongs to a client that is open, so nothing is left behind.

An event keeps the invariant (`Session.Invariant.after`), so every sequence of events does
(`Session.invariant_run`). All that an event does to a session is to add a client
(`Session.Invariant.concat`), to replace one by a closed one (`Session.Invariant.set`), or to leave
the clients and the files (`Session.Invariant.of_sameFiles`).

Main statement: `Session.tidy_run`.
-/

namespace PipelineRuns

/-- A client that was built, the certificates that it was built with, and whether it is open. -/
structure Held where
  client : Client
  certificates : Option (List UInt8)
  isOpen : Bool

/-- The clients that were built so far, and what was done meanwhile. -/
structure Session where
  held : List Held := []
  effects : Effects := {}

namespace Session

/-- What can be done with clients: one is built, asked for a Repository, or closed, and a
description builds one for itself or is handed one. -/
inductive Event where
  | build (host : Host) (captured : Environment) (settings : Settings)
  | fetch (i : Nat) (wire : Wire) (name ns : String)
  | close (i : Nat)
  | describe (host : Host) (captured : Environment) (settings : Settings)
      (options : Describe.Options) (wire : Wire) (now : Moment) (isTerminal : Bool)
  | describeWith (i : Nat) (host : Host) (settings : Settings) (options : Describe.Options)
      (wire : Wire) (now : Moment) (isTerminal : Bool)

/-- The session after a client was closed. -/
def closed (s : Session) (i : Nat) (h : Held) : Session where
  held := s.held.set i { h with client := { h.client with temporary := none }, isOpen := false }
  effects := (Action.from s.effects h.client.close).2

/-- The session after an event. An event on a client that does not exist does nothing. -/
def after (s : Session) : Event → Session
  | .build host captured settings =>
    match Action.from s.effects (Client.ofSettings host captured settings) with
    | (.ok client, effects) =>
      ⟨s.held ++ [⟨client, Client.certificates host settings, true⟩], effects⟩
    | (.error _, effects) => ⟨s.held, effects⟩
  | .fetch i wire name ns =>
    match s.held[i]? with
    | some h => ⟨s.held, (Action.from s.effects (h.client.fetch wire name ns)).2⟩
    | none => s
  | .close i =>
    match s.held[i]? with
    | some h => s.closed i h
    | none => s
  | .describe host captured settings options wire now isTerminal =>
    ⟨s.held, (Action.from s.effects
      (Describe.run host captured settings options wire now isTerminal)).2⟩
  | .describeWith i host settings options wire now isTerminal =>
    match s.held[i]? with
    | some h => ⟨s.held, (Action.from s.effects
        (Describe.runWith host settings options (Source.ofClient h.client wire) now isTerminal)).2⟩
    | none => s

/-- The session after events, from no clients. -/
def run (events : List Event) : Session :=
  events.foldl after {}

/-- What is known of a client: one that was built with certificates has a number of its own, and as
long as it is open, these certificates are in the file of that number. -/
inductive Sound (b : Bundles) : Held → Prop
  | plain {h : Held} (hcertificates : h.certificates = none)
      (hverification : Client.temporaryOf h.client.verification = none)
      (htemporary : h.client.temporary = none) :
      Sound b h
  | inUse {h : Held} {content : List UInt8} {number : Nat}
      (hcertificates : h.certificates = some content) (hopen : h.isOpen = true)
      (hverification : h.client.verification = .temporary number)
      (htemporary : h.client.temporary = some number) (hlt : number < b.next)
      (hfile : b.get? number = some content) :
      Sound b h
  | givenUp {h : Held} {content : List UInt8} {number : Nat}
      (hcertificates : h.certificates = some content) (hopen : h.isOpen = false)
      (hverification : h.client.verification = .temporary number)
      (htemporary : h.client.temporary = none) (hlt : number < b.next)
      (hfile : b.get? number = none) :
      Sound b h

/-- The invariant of sessions: what is known of each client, that no two have the same number, and
that every file belongs to a client that is open. -/
structure Invariant (s : Session) : Prop where
  fresh : s.effects.bundles.IsFresh
  sound : ∀ (i : Nat) (h : Held), s.held[i]? = some h → Sound s.effects.bundles h
  distinct : ∀ (i j : Nat) (h h' : Held) (number : Nat), s.held[i]? = some h →
    s.held[j]? = some h' →
    h.client.verification = .temporary number → h'.client.verification = .temporary number → i = j
  owned : ∀ number content, s.effects.bundles.get? number = some content →
    ∃ (i : Nat) (h : Held), s.held[i]? = some h ∧
    h.isOpen = true ∧ h.certificates = some content ∧ h.client.verification = .temporary number

variable {s : Session} {b b' : Bundles} {h : Held} {number : Nat}

theorem Sound.lt_next (hsound : Sound b h)
    (hverification : h.client.verification = .temporary number) : number < b.next := by
  cases hsound with
  | plain _ hnone _ =>
    rw [hverification] at hnone
    exact nomatch hnone
  | inUse _ _ hnumber _ hlt _ =>
    obtain rfl := Verification.temporary.inj (hnumber.symm.trans hverification)
    exact hlt
  | givenUp _ _ hnumber _ hlt _ =>
    obtain rfl := Verification.temporary.inj (hnumber.symm.trans hverification)
    exact hlt

/-- What is known of a client depends on the file of its own number only. -/
theorem Sound.congr (hsound : Sound b h) (hle : b.next ≤ b'.next)
    (hfile : ∀ number, h.client.verification = .temporary number → b'.get? number = b.get? number) :
    Sound b' h := by
  cases hsound with
  | plain hcertificates hverification htemporary =>
    exact .plain hcertificates hverification htemporary
  | inUse hcertificates hopen hverification htemporary hlt hcontent =>
    exact .inUse hcertificates hopen hverification htemporary (hlt.trans_le hle)
      ((hfile _ hverification).trans hcontent)
  | givenUp hcertificates hopen hverification htemporary hlt hnone =>
    exact .givenUp hcertificates hopen hverification htemporary (hlt.trans_le hle)
      ((hfile _ hverification).trans hnone)

theorem getElem?_concat_cases {l : List Held} {new : Held} {i : Nat}
    (hi : (l ++ [new])[i]? = some h) : l[i]? = some h ∨ i = l.length ∧ h = new := by
  rcases Nat.lt_or_ge i l.length with hlt | hge
  · rw [List.getElem?_append_left hlt] at hi
    exact Or.inl hi
  · rw [List.getElem?_append_right hge, List.getElem?_singleton] at hi
    split at hi
    · exact Or.inr ⟨by omega, (Option.some.inj hi).symm⟩
    · exact nomatch hi

namespace Invariant

theorem init : Invariant {} where
  fresh _ h := nomatch h
  sound _ _ h := nomatch h
  distinct _ _ _ _ _ h := nomatch h
  owned _ _ h := nomatch h

/-- The invariant goes on where the files stay the same. -/
theorem of_sameFiles (hs : s.Invariant) {e : Effects} (h : s.effects.bundles.SameFiles e.bundles) :
    Invariant ⟨s.held, e⟩ where
  fresh := hs.fresh.of_sameFiles h
  sound i held hi := (hs.sound i held hi).congr h.next_le (fun number _ => h.get?_eq number)
  distinct := hs.distinct
  owned number content hcontent := hs.owned number content ((h.get?_eq number).symm.trans hcontent)

/-- One more client, whose number is new if it has one. The files of the numbers before stay, and a
file of a later number is that of the client. -/
theorem concat (hs : s.Invariant) {e : Effects} {new : Held} (hfresh : e.bundles.IsFresh)
    (hle : s.effects.bundles.next ≤ e.bundles.next) (hsound : Sound e.bundles new)
    (hkept : ∀ number < s.effects.bundles.next,
      e.bundles.get? number = s.effects.bundles.get? number)
    (hnew : ∀ number, new.client.verification = .temporary number → s.effects.bundles.next ≤ number)
    (howned : ∀ number content, s.effects.bundles.next ≤ number →
      e.bundles.get? number = some content →
      new.isOpen = true ∧ new.certificates = some content ∧
      new.client.verification = .temporary number) :
    Invariant ⟨s.held ++ [new], e⟩ := by
  have hold {i number : Nat} {h : Held} (hi : s.held[i]? = some h)
      (hnumber : h.client.verification = .temporary number) : number < s.effects.bundles.next :=
    (hs.sound i h hi).lt_next hnumber
  refine ⟨hfresh, ?_, ?_, ?_⟩
  · intro i h hi
    rcases getElem?_concat_cases hi with hi' | ⟨-, rfl⟩
    · exact (hs.sound i h hi').congr hle (fun number hnumber => hkept number (hold hi' hnumber))
    · exact hsound
  · -- A number from before is never the new one.
    intro i j h h' number hi hj hnumber hnumber'
    rcases getElem?_concat_cases hi with hi' | ⟨hlast, rfl⟩
    · rcases getElem?_concat_cases hj with hj' | ⟨hlast', rfl⟩
      · exact hs.distinct i j h h' number hi' hj' hnumber hnumber'
      · exact absurd (hold hi' hnumber) (hnew number hnumber').not_gt
    · rcases getElem?_concat_cases hj with hj' | ⟨hlast', rfl⟩
      · exact absurd (hold hj' hnumber') (hnew number hnumber).not_gt
      · rw [hlast, hlast']
  · intro number content hcontent
    rcases Nat.lt_or_ge number s.effects.bundles.next with hlt | hge
    · obtain ⟨i, h, hi, howner⟩ := hs.owned number content ((hkept number hlt).symm.trans hcontent)
      have hlength : i < s.held.length := (List.getElem?_eq_some_iff.mp hi).1
      exact ⟨i, h, by rw [List.getElem?_append_left hlength, hi], howner⟩
    · exact ⟨s.held.length, new, by simp, howned number content hge hcontent⟩

/-- Building a client, whether it succeeds or not. -/
theorem build (hs : s.Invariant) (host : Host) (captured : Environment) (settings : Settings) :
    (s.after (.build host captured settings)).Invariant := by
  have hbuilt := Client.built_ofSettings host captured settings hs.fresh
  unfold after
  dsimp only
  cases hfrom : Action.from s.effects (Client.ofSettings host captured settings) with
  | mk r e =>
    rw [hfrom] at hbuilt
    dsimp only at hbuilt
    generalize hbundles : e.bundles = b at hbuilt
    cases hbuilt with
    | failed hfiles => exact hs.of_sameFiles (hbundles ▸ hfiles)
    | @plain client hnone hverification htemporary =>
      have hnumber (number : Nat) : client.verification ≠ .temporary number := by
        intro h
        rw [h] at hverification
        exact nomatch hverification
      have hle : s.effects.bundles.next ≤ e.bundles.next := by rw [hbundles]
      refine hs.concat (hbundles ▸ hs.fresh) hle (.plain hnone hverification htemporary)
        (fun number _ => by rw [hbundles]) (fun number h => absurd h (hnumber number)) ?_
      -- There is no file of a number that was not handed out.
      intro number content hge hcontent
      rw [hbundles, Bundles.get?_eq_none_of_le hs.fresh hge] at hcontent
      exact nomatch hcontent
    | @withFile client content hsome hverification htemporary =>
      -- The new number is the one that was to be handed out next, so that no client before has it.
      have hfile (number : Nat) : e.bundles.get? number =
          if number = s.effects.bundles.next then some content
          else s.effects.bundles.get? number := by
        rw [hbundles, Bundles.get?_create hs.fresh]
      have hlt : s.effects.bundles.next < e.bundles.next := by
        rw [hbundles]
        exact Nat.lt_succ_self _
      refine hs.concat (hbundles ▸ hs.fresh.create content) hlt.le
        (.inUse hsome rfl hverification htemporary hlt (by rw [hfile, if_pos rfl])) ?_ ?_ ?_
      · intro number hold
        rw [hfile, if_neg hold.ne]
      · intro number hnumber
        exact (Verification.temporary.inj (hverification.symm.trans hnumber)).le
      · intro number found hge hfound
        rw [hfile] at hfound
        split at hfound
        · next hnumber =>
          obtain rfl := Option.some.inj hfound
          exact ⟨rfl, hsome, hnumber ▸ hverification⟩
        · rw [Bundles.get?_eq_none_of_le hs.fresh hge] at hfound
          exact nomatch hfound

/-- One client is replaced by one with the same number, the file of which, and no other, is gone. -/
theorem set (hs : s.Invariant) {i : Nat} (hi : s.held[i]? = some h) {e : Effects} {h' : Held}
    (hverification : h'.client.verification = h.client.verification) (hfresh : e.bundles.IsFresh)
    (hle : s.effects.bundles.next ≤ e.bundles.next) (hsound : Sound e.bundles h')
    (hkept : ∀ number, h.client.verification ≠ .temporary number →
      e.bundles.get? number = s.effects.bundles.get? number)
    (hgone : ∀ number, h.client.verification = .temporary number → e.bundles.get? number = none) :
    Invariant ⟨s.held.set i h', e⟩ := by
  have hlength : i < s.held.length := (List.getElem?_eq_some_iff.mp hi).1
  have hself : (s.held.set i h')[i]? = some h' := List.getElem?_set_self hlength
  have hothers {j : Nat} (hne : i ≠ j) : (s.held.set i h')[j]? = s.held[j]? :=
    List.getElem?_set_ne hne
  -- The numbers are where they were.
  have hnumbers {j number : Nat} {x : Held} (hj : (s.held.set i h')[j]? = some x)
      (hx : x.client.verification = .temporary number) :
      ∃ x', s.held[j]? = some x' ∧ x'.client.verification = .temporary number := by
    by_cases hij : i = j
    · subst hij
      obtain rfl := Option.some.inj (hself.symm.trans hj)
      exact ⟨h, hi, hverification.symm.trans hx⟩
    · exact ⟨x, (hothers hij).symm.trans hj, hx⟩
  refine ⟨hfresh, ?_, ?_, ?_⟩
  · intro j x hj
    by_cases hij : i = j
    · subst hij
      obtain rfl := Option.some.inj (hself.symm.trans hj)
      exact hsound
    · have hj' : s.held[j]? = some x := (hothers hij).symm.trans hj
      refine (hs.sound j x hj').congr hle (fun number hx => hkept number (fun hnumber => ?_))
      exact hij (hs.distinct i j h x number hi hj' hnumber hx)
  · intro j k x y number hj hk hx hy
    obtain ⟨x', hj', hx'⟩ := hnumbers hj hx
    obtain ⟨y', hk', hy'⟩ := hnumbers hk hy
    exact hs.distinct j k x' y' number hj' hk' hx' hy'
  · -- A file that is still there has another number, so its client is another one.
    intro number content hcontent
    by_cases hnumber : h.client.verification = .temporary number
    · rw [hgone number hnumber] at hcontent
      exact nomatch hcontent
    · obtain ⟨j, x, hj, hopen, hcertificates, hx⟩ :=
        hs.owned number content ((hkept number hnumber).symm.trans hcontent)
      have hij : i ≠ j := by
        rintro rfl
        obtain rfl := Option.some.inj (hi.symm.trans hj)
        exact hnumber hx
      exact ⟨j, x, (hothers hij).trans hj, hopen, hcertificates, hx⟩

/-- Closing a client: its file goes if it is still there, and no other file does. -/
theorem closed (hs : s.Invariant) {i : Nat} (hi : s.held[i]? = some h) :
    (s.closed i h).Invariant := by
  have hbundles : (Action.from s.effects h.client.close).2.bundles =
      h.client.temporary.elim s.effects.bundles s.effects.bundles.remove := by
    rw [h.client.from_close]
  unfold Session.closed
  cases hs.sound i h hi with
  | plain hcertificates hverification htemporary =>
    rw [htemporary] at hbundles
    refine hs.set hi rfl (hbundles ▸ hs.fresh) (hbundles ▸ le_refl _)
      (.plain hcertificates hverification rfl) (fun number _ => by rw [hbundles]; rfl) ?_
    intro number hnumber
    rw [hnumber] at hverification
    exact nomatch hverification
  | givenUp hcertificates hopen hverification htemporary hlt hfile =>
    -- It was closed before, so there is nothing to remove any more.
    rw [htemporary] at hbundles
    have hsame : (Action.from s.effects h.client.close).2.bundles = s.effects.bundles := hbundles
    refine hs.set hi rfl (hsame ▸ hs.fresh) (hsame ▸ le_refl _)
      (.givenUp hcertificates rfl hverification rfl (hsame ▸ hlt) (hsame ▸ hfile))
      (fun number _ => by rw [hsame]) ?_
    intro number hnumber
    obtain rfl := Verification.temporary.inj (hverification.symm.trans hnumber)
    rw [hsame, hfile]
  | @inUse content own hcertificates hopen hverification htemporary hlt hfile =>
    rw [htemporary] at hbundles
    have hremoved :
        (Action.from s.effects h.client.close).2.bundles = s.effects.bundles.remove own := hbundles
    have hget (number : Nat) : (Action.from s.effects h.client.close).2.bundles.get? number =
        if number = own then none else s.effects.bundles.get? number := by
      rw [hremoved, Bundles.get?_remove]
    refine hs.set hi rfl (hremoved ▸ hs.fresh.remove own) (hremoved ▸ le_refl _)
      (.givenUp hcertificates rfl hverification rfl (hremoved ▸ hlt) (by rw [hget, if_pos rfl]))
      ?_ ?_
    · intro number hnumber
      rw [hget, if_neg]
      rintro rfl
      exact hnumber hverification
    · intro number hnumber
      rw [hget, if_pos (Verification.temporary.inj (hverification.symm.trans hnumber)).symm]

/-- No event breaks the invariant. -/
theorem after (hs : s.Invariant) (event : Event) : (s.after event).Invariant := by
  -- Only a build and a close change the clients; all other events leave the files alone.
  cases event with
  | build host captured settings => exact hs.build host captured settings
  | fetch i wire name ns =>
    unfold Session.after
    dsimp only
    cases s.held[i]? with
    | none => exact hs
    | some h => exact hs.of_sameFiles (.of_eq (h.client.keepsBundles_fetch wire name ns s.effects))
  | close i =>
    unfold Session.after
    dsimp only
    cases hi : s.held[i]? with
    | none => exact hs
    | some h => exact hs.closed hi
  | describe host captured settings options wire now isTerminal =>
    exact hs.of_sameFiles
      (Describe.sameFiles_run host captured settings options wire now isTerminal hs.fresh)
  | describeWith i host settings options wire now isTerminal =>
    unfold Session.after
    dsimp only
    cases s.held[i]? with
    | none => exact hs
    | some h =>
      exact hs.of_sameFiles
        (.of_eq (Describe.keepsBundles_runWith
          (h.client.keepsBundles_fetch wire) host settings options now isTerminal s.effects))

end Invariant

/-- Every session keeps the invariant. -/
theorem invariant_run (events : List Event) : (run events).Invariant := by
  have hfold (s : Session) (hs : s.Invariant) : (events.foldl Session.after s).Invariant := by
    induction events generalizing s with
    | nil => exact hs
    | cons event rest ih => exact ih (s.after event) (hs.after event)
  exact hfold {} .init

/-- The files are those of the open clients that were built with certificates, and hold these. -/
structure Tidy (s : Session) : Prop where
  held : ∀ h ∈ s.held, ∀ content, h.certificates = some content → ∃ number,
    h.client.verification = .temporary number ∧
      s.effects.bundles.get? number = if h.isOpen then some content else none
  files : ∀ number content, s.effects.bundles.get? number = some content → ∃ h ∈ s.held,
    h.isOpen = true ∧ h.certificates = some content ∧ h.client.verification = .temporary number

theorem Invariant.tidy (hs : s.Invariant) : s.Tidy where
  held h hmem content hcontent := by
    obtain ⟨i, hi⟩ := List.getElem?_of_mem hmem
    cases hs.sound i h hi with
    | plain hcertificates _ _ => exact nomatch hcertificates.symm.trans hcontent
    | inUse hcertificates hopen hverification _ _ hfile =>
      refine ⟨_, hverification, ?_⟩
      rw [hopen, if_pos rfl, hfile, ← hcertificates, hcontent]
    | givenUp hcertificates hopen hverification _ _ hfile =>
      refine ⟨_, hverification, ?_⟩
      rw [hopen, if_neg Bool.false_ne_true, hfile]
  files number content hcontent := by
    obtain ⟨i, h, hi, howner⟩ := hs.owned number content hcontent
    exact ⟨h, List.mem_of_getElem? hi, howner⟩

theorem held_build_of_ok {host : Host} {captured : Environment} {settings : Settings}
    {client : Client}
    (h : (Action.from s.effects (Client.ofSettings host captured settings)).1 = .ok client) :
    (s.after (.build host captured settings)).held =
      s.held ++ [⟨client, Client.certificates host settings, true⟩] := by
  unfold after
  dsimp only
  cases hfrom : Action.from s.effects (Client.ofSettings host captured settings) with
  | mk r e =>
    rw [hfrom] at h
    obtain rfl : r = .ok client := h
    rfl

/-- A client that does not come about leaves no file. -/
theorem build_of_error (hs : s.Invariant) {host : Host} {captured : Environment}
    {settings : Settings} {f : Failure}
    (h : (Action.from s.effects (Client.ofSettings host captured settings)).1 = .error f) :
    (s.after (.build host captured settings)).held = s.held ∧
      (s.after (.build host captured settings)).effects.bundles.files =
        s.effects.bundles.files := by
  have hbuilt := Client.built_ofSettings host captured settings hs.fresh
  unfold after
  dsimp only
  cases hfrom : Action.from s.effects (Client.ofSettings host captured settings) with
  | mk r e =>
    rw [hfrom] at hbuilt h
    obtain rfl : r = .error f := h
    dsimp only at hbuilt ⊢
    cases hbuilt with
    | failed hfiles => exact ⟨rfl, hfiles.files_eq⟩

theorem after_close_of_some {i : Nat} (hi : s.held[i]? = some h) :
    s.after (.close i) = s.closed i h := by
  unfold after
  simp only [hi]

theorem after_close_of_none {i : Nat} (hi : s.held[i]? = none) : s.after (.close i) = s := by
  unfold after
  simp only [hi]

/-- Closing a client again changes nothing. -/
theorem after_close_close (s : Session) (i : Nat) :
    (s.after (.close i)).after (.close i) = s.after (.close i) := by
  cases hi : s.held[i]? with
  | none => rw [after_close_of_none hi, after_close_of_none hi]
  | some h =>
    have hlength : i < s.held.length := (List.getElem?_eq_some_iff.mp hi).1
    have hagain : (s.closed i h).held[i]? = some _ := List.getElem?_set_self hlength
    rw [after_close_of_some hi, after_close_of_some hagain]
    -- The client of the first closing has no file, so the second one leaves it and the files.
    unfold closed
    simp only [h.client.from_close, Client.from_close, List.set_set]
    rfl

/-- **A certificate file lives as long as its client.** After any events, the temporary files are
those of the open clients that were built with certificates, and hold these. Closing a client again
changes nothing, and a client that does not come about leaves no file. A description leaves the
files as they were, whatever it does with a source that it opened itself, and never closes one that
it was handed. -/
theorem tidy_run (events : List Event) :
    (run events).Tidy ∧
    (∀ i, ((run events).after (.close i)).after (.close i) = (run events).after (.close i)) ∧
    (∀ (host : Host) (captured : Environment) (settings : Settings) (f : Failure),
      (Action.from (run events).effects (Client.ofSettings host captured settings)).1 = .error f →
      ((run events).after (.build host captured settings)).held = (run events).held ∧
      ((run events).after (.build host captured settings)).effects.bundles.files =
        (run events).effects.bundles.files) ∧
    (∀ (host : Host) (captured : Environment) (settings : Settings) (options : Describe.Options)
      (wire : Wire) (now : Moment) (isTerminal : Bool),
      ((run events).after
        (.describe host captured settings options wire now isTerminal)).effects.bundles.files =
        (run events).effects.bundles.files) ∧
    (∀ (host : Host) (captured : Environment) (settings : Settings) (options : Describe.Options)
      (wire : Wire) (ambient : String) (use : Source → Action Describe.Outcome),
        (∀ source, (use source).KeepsBundles) →
      (Action.from (run events).effects
          (Describe.useAndClose (Describe.openSource host captured settings options wire ambient)
            use)).2.bundles.files =
        (run events).effects.bundles.files) ∧
    ∀ (host : Host) (settings : Settings) (options : Describe.Options) (source : Source)
      (close : Action Unit) (now : Moment) (isTerminal : Bool),
      Describe.runWith host settings options { source with close := close } now isTerminal =
        Describe.runWith host settings options source now isTerminal := by
  -- All of it follows from the invariant of the session that is reached.
  have hs := invariant_run events
  refine ⟨hs.tidy, after_close_close _, ?_, ?_, ?_, fun _ _ _ _ _ _ _ => rfl⟩
  · intro host captured settings f hfailed
    exact build_of_error hs hfailed
  · intro host captured settings options wire now isTerminal
    exact (Describe.sameFiles_run host captured settings options wire now isTerminal
      hs.fresh).files_eq
  · intro host captured settings options wire ambient use huse
    exact (Describe.sameFiles_useAndClose use (fun source _ => huse source) hs.fresh).files_eq

/-- A kubeconfig file whose current context comes with certificates. -/
def certifiedKubeconfig : String :=
  "current-context: a\ncontexts:\n- name: a\n  context:\n    cluster: a\n" ++
    "clusters:\n- name: a\n  cluster:\n    certificate-authority-data: Q0E=\n"

/-- A machine with this file. -/
def certifiedHost : Host where
  files := { entries := [(["config"], .file (FileTree.encode certifiedKubeconfig))] }

/-- Settings that lead to this file, and name the server. -/
def certifiedSettings : Settings where
  kube := { apiUrl := "https://here", kubeconfig := some "/config" }

/-- The building of a client from it. -/
def certifiedBuild : Event := .build certifiedHost [] certifiedSettings

/-- The client that is built first. -/
def certifiedClient : Client where
  server := "https://here"
  verification := .temporary 0
  temporary := some 0

theorem outcome_certifiedHost : Kubeconfig.outcome certifiedHost certifiedSettings.kube.kubeconfig =
    .ok { name := "a", certificateAuthorityData := some "Q0E=" } := by
  have hpath :
      Kubeconfig.pathOf certifiedHost certifiedSettings.kube.kubeconfig =
        .ok ⟨"/", ["config"]⟩ := by rfl
  have hentry : certifiedHost.files.entryAt ⟨"/", ["config"]⟩ =
      .ok (.file (FileTree.encode certifiedKubeconfig)) := by rfl
  have hread := FileTree.readText_of_entryAt hentry (by decide)
  rw [Kubeconfig.outcome_of_pathOf hpath, Kubeconfig.outcomeAt, hread]
  exact eq_ok_of_toOption (by decide +kernel)

theorem run_certifiedBuild : run [certifiedBuild] = ({} : Session).after certifiedBuild := by
  unfold run
  rw [List.foldl_cons, List.foldl_nil]

theorem held_certifiedBuild :
    (run [certifiedBuild]).held = [⟨certifiedClient, some [0x43, 0x41], true⟩] := by
  have hclient :
      (Action.from ({} : Session).effects
        (Client.ofSettings certifiedHost [] certifiedSettings)).1 =
      .ok certifiedClient := by
    obtain ⟨records, hload⟩ :=
      Client.from_ofSettings outcome_certifiedHost [] ({} : Session).effects
    rw [hload]
    rfl
  have hcertificates : Client.certificates certifiedHost certifiedSettings = some [0x43, 0x41] :=
    (Client.certificates_of_outcome outcome_certifiedHost).trans (by decide +kernel)
  have hheld := held_build_of_ok (s := {}) hclient
  rw [hcertificates] at hheld
  rw [run_certifiedBuild]
  exact hheld

/-- A use of a source that does nothing. -/
def idle (_ : Source) : Action Describe.Outcome := pure { code := 0 }

/-- While the client is open there is a file with its certificates, and once it is closed there is
none. A client that is to be built where there is no server leaves no file, nor does one that is
built for a use. -/
theorem tidy_run_certified :
    (∃ number, certifiedClient.verification = .temporary number ∧
      (run [certifiedBuild]).effects.bundles.get? number = some [0x43, 0x41]) ∧
    (∃ number, certifiedClient.verification = .temporary number ∧
      (run [certifiedBuild, .close 0]).effects.bundles.get? number = none) ∧
    (Action.from (run []).effects (Client.ofSettings {} [] {})).1 = .error (.fetch .noServer) ∧
    ((run []).after (.build {} [] {})).effects.bundles.files = [] ∧
    (∀ source, (idle source).KeepsBundles) ∧
    (Action.from (run []).effects (Describe.useAndClose
      (Describe.openSource certifiedHost [] certifiedSettings { name := "a" }
        (fun _ => .interrupted) "default")
      idle)).2.bundles.files = [] := by
  -- One client that is open and the same one closed, after the first and the second event.
  have hopen :
      (⟨certifiedClient, some [0x43, 0x41], true⟩ : Held) ∈ (run [certifiedBuild]).held := by
    rw [held_certifiedBuild]
    exact List.mem_singleton_self _
  have hclosed : (⟨{ certifiedClient with temporary := none }, some [0x43, 0x41], false⟩ : Held) ∈
      (run [certifiedBuild, .close 0]).held := by
    have hfirst :
        (run [certifiedBuild]).held[0]? = some ⟨certifiedClient, some [0x43, 0x41], true⟩ := by
      rw [held_certifiedBuild]
      rfl
    have hrun : run [certifiedBuild, .close 0] = (run [certifiedBuild]).after (.close 0) := by
      unfold run
      rw [List.foldl_cons, List.foldl_cons, List.foldl_cons, List.foldl_nil, List.foldl_nil]
    rw [hrun, after_close_of_some hfirst, closed, held_certifiedBuild]
    exact List.mem_singleton_self _
  have hnoServer :
      (Action.from (run []).effects (Client.ofSettings {} [] {})).1 =
        .error (.fetch .noServer) := by
    decide +kernel
  have hidle (source : Source) : (idle source).KeepsBundles := .pure _
  obtain ⟨number, hnumber, hfile⟩ := (tidy_run [certifiedBuild]).1.held _ hopen _ rfl
  obtain ⟨number', hnumber', hgone⟩ := (tidy_run [certifiedBuild, .close 0]).1.held _ hclosed _ rfl
  obtain ⟨-, -, hfailed, -, hused, -⟩ := tidy_run []
  exact ⟨⟨number, hnumber, hfile⟩, ⟨number', hnumber', hgone⟩, hnoServer,
    (hfailed {} [] {} _ hnoServer).2, hidle, hused certifiedHost [] certifiedSettings
    { name := "a" } (fun _ => .interrupted) "default" _ hidle⟩

end Session

end PipelineRuns
