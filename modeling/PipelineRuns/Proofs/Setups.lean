import PipelineRuns.Proofs.Channels
import PipelineRuns.Proofs.Formats
import PipelineRuns.Journal.Handling

/-!
# What a setup leaves of those before it

The journal is set up anew by each invocation, and a setup changes what those before it have left:
the threshold of the root, the outlets, and the thresholds of the channels of the network library. A
setup that succeeds replaces all of them (`Setup.IsDone`), and no setup gives another channel a
threshold of its own, which is the invariant of a run of setups (`Handling.OthersUnset`). So after
the last setup nothing is left of the others.

Which threshold a setup asks for on a channel is said by `Setup.HasThreshold`, apart from the ones
that are kept and from the search for the nearest.

Main statement: `Handling.written_afterAll`. A note that reaches its threshold is written once, in
the format of the last setup, if it makes a line of it (`Record.MakesLine`), and otherwise it is
reported. Not each format that passes a setup makes a line, which is seen after it.
-/

namespace PipelineRuns

/-! ### Configured levels -/

namespace Severity

/-- What a configured level means: the severity with its name, in any case and with blanks around
it, and `info` if there is none. -/
inductive Means (level : String) : Severity → Prop
  | listed {s : Severity} (hlisted : (Text.strip (Text.toUpper level), s) ∈ levels) : Means level s
  | unknown (hunknown : ∀ s, (Text.strip (Text.toUpper level), s) ∉ levels) : Means level .info

theorem lookup_levels_eq_some_iff {name : String} {s : Severity} :
    levels.lookup name = some s ↔ (name, s) ∈ levels := by
  constructor
  · intro hlookup
    obtain ⟨front, back, hlevels, -⟩ := List.lookup_eq_some_iff.mp hlookup
    rw [hlevels]
    exact List.mem_append_right _ List.mem_cons_self
  · intro hlisted
    have hall : ∀ e ∈ levels, levels.lookup e.1 = some e.2 := by decide
    exact hall (name, s) hlisted

/-- The rule of levels is the look-up that a setup makes. -/
theorem means_iff {level : String} {s : Severity} : Means level s ↔ s = ofSetting level := by
  unfold ofSetting
  constructor
  · rintro (hlisted | hunknown)
    · rw [lookup_levels_eq_some_iff.mpr hlisted, Option.getD_some]
    · have hnone : levels.lookup (Text.strip (Text.toUpper level)) = none := by
        rw [Option.eq_none_iff_forall_not_mem]
        exact fun s hs => hunknown s (lookup_levels_eq_some_iff.mp hs)
      rw [hnone, Option.getD_none]
  · intro hs
    rw [hs]
    cases hlookup : levels.lookup (Text.strip (Text.toUpper level)) with
    | none =>
      refine .unknown fun s hs => ?_
      rw [lookup_levels_eq_some_iff.mpr hs] at hlookup
      exact nomatch hlookup
    | some s => exact .listed (lookup_levels_eq_some_iff.mp hlookup)

end Severity

/-! ### Setups -/

/-- Only the channels of the network library have thresholds of their own. -/
def Handling.OthersUnset (h : Handling) : Prop :=
  ∀ channel ∉ noisyChannels, h.ownThreshold channel = .unset

/-- A setup: the settings, and whether everything is to be noted. -/
structure Setup where
  logging : LoggingSettings
  verbose : Bool

namespace Setup

/-- A channel of the network library. -/
def IsNoisy (channel : String) : Prop :=
  channel = "urllib3" ∨ Channel.IsBelow channel "urllib3"

/-- The threshold that a setup asks for on a channel. -/
inductive HasThreshold (s : Setup) (channel : String) : Severity → Prop
  | verbose (hverbose : s.verbose = true) : HasThreshold s channel .debug
  | noisy {level : Severity} (hverbose : s.verbose = false)
    (hlevel : Severity.Means s.logging.level level) (hnoisy : IsNoisy channel) :
    HasThreshold s channel ⟨max level.rank Severity.warning.rank⟩
  | other {level : Severity} (hverbose : s.verbose = false)
    (hlevel : Severity.Means s.logging.level level) (hnoisy : ¬ IsNoisy channel) :
    HasThreshold s channel level

/-- The threshold that a setup gives the root. -/
def level (s : Setup) : Severity :=
  if s.verbose then .debug else .ofSetting s.logging.level

/-- The threshold that a setup gives the channels of the network library. -/
def quiet (s : Setup) : Severity :=
  if s.verbose then .unset else ⟨max s.level.rank Severity.warning.rank⟩

/-- What a setup leaves that succeeds. -/
structure IsDone (s : Setup) (h : Handling) : Prop where
  threshold : h.threshold = s.level
  outlets : h.outlets = [Handling.formatOf s.logging]
  noisy : ∀ channel ∈ Handling.noisyChannels, h.ownThreshold channel = s.quiet
  others : h.OthersUnset

end Setup

namespace Handling

variable {h start : Handling} {channel : String}

/-! ### Own thresholds -/

/-- The one law of a change: it is seen on its channel and on no other. -/
theorem ownThreshold_setOwn (h : Handling) (changed channel : String) (s : Severity) :
    (h.setOwn changed s).ownThreshold channel =
      if channel = changed then s else h.ownThreshold channel := by
  show ((((changed, s) :: h.own.filter (fun e => e.1 ≠ changed)).lookup channel).getD .unset) = _
  rw [List.lookup_cons]
  -- The new entry stands first, and no other one was left out.
  by_cases hchannel : channel = changed
  · rw [if_pos hchannel, hchannel, beq_self_eq_true]
    rfl
  · rw [if_neg hchannel, beq_eq_false_iff_ne.mpr hchannel]
    dsimp only
    rw [lookup_filter_ne hchannel]
    rfl

/-- Thresholds given one after another are seen on the channels that get one, and change nothing
else. -/
theorem foldl_setOwn (channels : List String) (s : Severity) (h : Handling) :
    let after := channels.foldl (fun h channel => h.setOwn channel s) h
    (∀ channel, after.ownThreshold channel =
      if channel ∈ channels then s else h.ownThreshold channel) ∧
      after.threshold = h.threshold ∧ after.outlets = h.outlets ∧ after.time = h.time ∧
      after.reports = h.reports := by
  induction channels generalizing h with
  | nil => exact ⟨fun channel => (if_neg List.not_mem_nil).symm, rfl, rfl, rfl, rfl⟩
  | cons first channels ih =>
    obtain ⟨hown, hrest⟩ := ih (h.setOwn first s)
    refine ⟨fun channel => ?_, hrest⟩
    rw [List.foldl_cons, hown, ownThreshold_setOwn]
    by_cases hfirst : channel = first <;> by_cases hlater : channel ∈ channels <;>
      simp [hfirst, hlater]

/-- A setup with a valid format succeeds. -/
theorem setup_of_isValid (h : Handling) {s : Setup}
    (hvalid : Format.isValid (formatOf s.logging) = true) :
    h.setup s.logging s.verbose =
      (.ok (), noisyChannels.foldl (fun h channel => h.setOwn channel s.quiet)
        { h with outlets := [formatOf s.logging], threshold := s.level }) := by
  rw [setup, direct, if_pos hvalid]
  rfl

/-- A setup with an invalid format leaves no outlet. -/
theorem setup_of_not_isValid (h : Handling) {s : Setup}
    (hvalid : ¬ Format.isValid (formatOf s.logging) = true) :
    h.setup s.logging s.verbose = (.error .badValue, { h with outlets := [] }) := by
  rw [setup, direct, if_neg hvalid]

/-- No setup gives another channel a threshold of its own, be it with success or not. -/
theorem othersUnset_setup (hothers : h.OthersUnset) (s : Setup) :
    (h.setup s.logging s.verbose).2.OthersUnset := by
  intro channel hchannel
  by_cases hvalid : Format.isValid (formatOf s.logging) = true
  · rw [setup_of_isValid h hvalid, (foldl_setOwn noisyChannels s.quiet _).1, if_neg hchannel]
    exact hothers channel hchannel
  · rw [setup_of_not_isValid h hvalid]
    exact hothers channel hchannel

/-- Setups neither change the time nor whether there are reports. -/
theorem kept_setup (h : Handling) (s : Setup) :
    (h.setup s.logging s.verbose).2.time = h.time ∧
      (h.setup s.logging s.verbose).2.reports = h.reports := by
  by_cases hvalid : Format.isValid (formatOf s.logging) = true
  · rw [setup_of_isValid h hvalid]
    exact (foldl_setOwn noisyChannels s.quiet _).2.2.2
  · rw [setup_of_not_isValid h hvalid]
    exact ⟨rfl, rfl⟩

/-- A setup that succeeds replaces all that other setups have left. -/
theorem isDone_setup (hothers : h.OthersUnset) {s : Setup}
    (hok : (h.setup s.logging s.verbose).1 = .ok ()) :
    s.IsDone (h.setup s.logging s.verbose).2 := by
  have hvalid : Format.isValid (formatOf s.logging) = true := by
    by_contra hvalid
    rw [setup_of_not_isValid h hvalid] at hok
    exact nomatch hok
  have hkept := othersUnset_setup hothers s
  rw [setup_of_isValid h hvalid] at hkept ⊢
  obtain ⟨hown, hthreshold, houtlets, -⟩ :=
    foldl_setOwn noisyChannels s.quiet
      { h with outlets := [formatOf s.logging], threshold := s.level }
  exact ⟨hthreshold, houtlets,
    fun channel hchannel => (hown channel).trans (if_pos hchannel), hkept⟩

/-! ### Runs of setups -/

/-- The handling after some setups, whether they succeed or not. -/
def afterAll (h : Handling) (setups : List Setup) : Handling :=
  setups.foldl (fun h s => (h.setup s.logging s.verbose).2) h

/-- The invariant of a run of setups, by induction on it. -/
theorem othersUnset_afterAll (hothers : h.OthersUnset) (setups : List Setup) :
    (h.afterAll setups).OthersUnset := by
  induction setups generalizing h with
  | nil => exact hothers
  | cons s setups ih => exact ih (othersUnset_setup hothers s)

/-- The clock and the switch of the reports are those of the start. -/
theorem kept_afterAll (h : Handling) (setups : List Setup) :
    (h.afterAll setups).time = h.time ∧ (h.afterAll setups).reports = h.reports := by
  induction setups generalizing h with
  | nil => exact ⟨rfl, rfl⟩
  | cons s setups ih =>
    obtain ⟨htime, hreports⟩ := kept_setup h s
    obtain ⟨htime', hreports'⟩ := ih (h.setup s.logging s.verbose).2
    exact ⟨htime'.trans htime, hreports'.trans hreports⟩

/-- What there is after a last setup is what the last one makes of the rest. -/
theorem afterAll_append_singleton (h : Handling) (before : List Setup) (last : Setup) :
    h.afterAll (before ++ [last]) = ((h.afterAll before).setup last.logging last.verbose).2 :=
  List.foldl_append

/-! ### Thresholds of channels -/

/-- Where no threshold is found on the way up, that of the root counts. -/
theorem thresholdOf_of_unset (hunset : ∀ c ∈ Channel.lineage channel, h.ownThreshold c = .unset) :
    h.thresholdOf channel = h.threshold := by
  have hnone : (Channel.lineage channel).find? (fun c => h.ownThreshold c ≠ .unset) = none := by
    rw [List.find?_eq_none]
    intro c hc
    simp [hunset c hc]
  rw [thresholdOf, hnone]

/-- Where one threshold alone can be found on the way up, it counts. -/
theorem thresholdOf_of_own {s : Severity} (hs : s ≠ .unset)
    (hown : ∀ c ∈ Channel.lineage channel, h.ownThreshold c ≠ .unset → h.ownThreshold c = s)
    (hfound : ∃ c ∈ Channel.lineage channel, h.ownThreshold c = s) : h.thresholdOf channel = s := by
  obtain ⟨c, hc, hcs⟩ := hfound
  have hsome :
      ((Channel.lineage channel).find? (fun c => h.ownThreshold c ≠ .unset)).isSome = true := by
    rw [List.find?_isSome]
    exact ⟨c, hc, by simp [hcs, hs]⟩
  obtain ⟨nearest, hnearest⟩ := Option.isSome_iff_exists.mp hsome
  have hset : h.ownThreshold nearest ≠ .unset := by simpa using List.find?_some hnearest
  rw [thresholdOf, hnearest]
  exact hown nearest (List.mem_of_find?_eq_some hnearest) hset

end Handling

namespace Setup

variable {s : Setup} {h : Handling} {channel : String}

/-- A channel is noisy where one of those at or above it is a channel of the network library. -/
theorem isNoisy_iff :
    IsNoisy channel ↔ ∃ c ∈ Channel.lineage channel, c ∈ Handling.noisyChannels := by
  have hname : "urllib3" ≠ "" := by decide
  rw [IsNoisy, ← Channel.mem_lineage_iff hname]
  constructor
  · exact fun hmem => ⟨"urllib3", hmem, List.mem_singleton_self _⟩
  · rintro ⟨c, hc, hnoisy⟩
    rwa [List.mem_singleton.mp hnoisy] at hc

/-- Where a threshold of its own is found, it is that of the network library. -/
theorem IsDone.own (hdone : s.IsDone h) {c : String} (hc : h.ownThreshold c ≠ .unset) :
    c ∈ Handling.noisyChannels ∧ h.ownThreshold c = s.quiet := by
  by_cases hnoisy : c ∈ Handling.noisyChannels
  · exact ⟨hnoisy, hdone.noisy c hnoisy⟩
  · exact absurd (hdone.others c hnoisy) hc

/-- Without the switch for all messages the network library gets a threshold of its own. -/
theorem quiet_ne_unset (hverbose : s.verbose = false) : s.quiet ≠ .unset := by
  have hrank : 30 ≤ max s.level.rank Severity.warning.rank := Int.le_max_right _ _
  rw [quiet, hverbose, if_neg Bool.false_ne_true]
  intro hunset
  have hzero : max s.level.rank Severity.warning.rank = 0 := congrArg Severity.rank hunset
  rw [hzero] at hrank
  exact absurd hrank (by decide)

/-- Without the switch the level is the configured one. -/
theorem level_of_not_verbose (hverbose : s.verbose = false) :
    s.level = .ofSetting s.logging.level := by
  rw [level, hverbose, if_neg Bool.false_ne_true]

/-- After a setup a channel has a threshold that the setup asks for. -/
theorem IsDone.hasThreshold (hdone : s.IsDone h) (channel : String) :
    s.HasThreshold channel (h.thresholdOf channel) := by
  cases hverbose : s.verbose with
  | true =>
    -- No channel keeps a threshold, so the search ends at the root.
    have hunset : ∀ c ∈ Channel.lineage channel, h.ownThreshold c = .unset := by
      intro c _
      by_contra hset
      have hquiet : s.quiet = .unset := by rw [quiet, hverbose, if_pos rfl]
      exact hset ((hdone.own hset).2.trans hquiet)
    have hlevel : s.level = .debug := by rw [level, hverbose, if_pos rfl]
    rw [Handling.thresholdOf_of_unset hunset, hdone.threshold, hlevel]
    exact .verbose hverbose
  | false =>
    have hlevel := level_of_not_verbose hverbose
    have hmeans : Severity.Means s.logging.level s.level := Severity.means_iff.mpr hlevel
    -- The search finds a threshold exactly on the channels of the network library.
    by_cases hnoisy : IsNoisy channel
    · obtain ⟨c, hc, hcnoisy⟩ := isNoisy_iff.mp hnoisy
      have hquiet : s.quiet = ⟨max s.level.rank Severity.warning.rank⟩ := by
        rw [quiet, hverbose, if_neg Bool.false_ne_true]
      rw [Handling.thresholdOf_of_own (quiet_ne_unset hverbose) (fun c _ hset => (hdone.own hset).2)
        ⟨c, hc, hdone.noisy c hcnoisy⟩, hquiet]
      exact .noisy hverbose hmeans hnoisy
    · have hunset : ∀ c ∈ Channel.lineage channel, h.ownThreshold c = .unset := by
        intro c hc
        by_contra hset
        exact hnoisy (isNoisy_iff.mpr ⟨c, hc, (hdone.own hset).1⟩)
      rw [Handling.thresholdOf_of_unset hunset, hdone.threshold]
      exact .other hverbose hmeans hnoisy

/-- A setup asks for one threshold: two rules differ in the switch or in the channel, and one rule
asks for one level. -/
theorem HasThreshold.unique {t t' : Severity} (ht : s.HasThreshold channel t)
    (ht' : s.HasThreshold channel t') : t = t' := by
  have hsame :
      ∀ {l l'}, Severity.Means s.logging.level l → Severity.Means s.logging.level l' → l = l' :=
    fun hl hl' => (Severity.means_iff.mp hl).trans (Severity.means_iff.mp hl').symm
  have hswitch : s.verbose = true → s.verbose = false → False := by
    intro hon hoff
    rw [hon] at hoff
    exact Bool.false_ne_true hoff.symm
  -- The rules exclude each other: by the switch, and by whether the channel is noisy.
  cases ht with
  | verbose hon =>
    cases ht' with
    | verbose => rfl
    | noisy hoff => exact (hswitch hon hoff).elim
    | other hoff => exact (hswitch hon hoff).elim
  | noisy hoff hlevel hnoisy =>
    cases ht' with
    | verbose hon => exact (hswitch hon hoff).elim
    | noisy _ hlevel' => rw [hsame hlevel hlevel']
    | other _ _ hother => exact absurd hnoisy hother
  | other hoff hlevel hother =>
    cases ht' with
    | verbose hon => exact (hswitch hon hoff).elim
    | noisy _ _ hnoisy => exact absurd hnoisy hother
    | other _ hlevel' => exact hsame hlevel hlevel'

end Setup

/-- A note that makes a line of a format: it has a text, and the format is one of pieces that fit
the note. -/
structure Record.MakesLine (time : String) (r : Record) (format : String) : Prop where
  clear : r.origin.isGarbled = false
  pieces : ∃ pieces : List Format.Piece, format.toList = pieces.flatMap Format.Piece.text ∧
    Format.Fit time r pieces

namespace Handling

variable {start : Handling}

/-- What makes a line is written as one: as what the pieces of the format show. -/
theorem exists_writtenBy_of_fit {h : Handling} {r : Record} {format : String}
    {pieces : List Format.Piece} (hclear : r.origin.isGarbled = false)
    (hformat : format.toList = pieces.flatMap Format.Piece.text)
    (hfit : Format.Fit h.time r pieces) :
    ∃ shown, pieces.mapM (Format.Piece.shown? h.time r) = some shown ∧
      h.writtenBy r format = withTrace (String.ofList shown.flatten) r ++ "\n" := by
  obtain ⟨shown, hshown⟩ := Format.exists_mapM_shown? hfit
  refine ⟨shown, hshown, ?_⟩
  rw [writtenBy, hclear, if_neg Bool.false_ne_true, Format.line?_eq_mapM hformat hfit.order, hshown]
  rfl

/-- What makes none is reported. -/
theorem writtenBy_of_not_makesLine {h : Handling} {r : Record} {format : String}
    (hnone : ¬ r.MakesLine h.time format) :
    h.writtenBy r format = if h.reports then report r else "" := by
  unfold writtenBy
  cases hclear : r.origin.isGarbled with
  | true => rfl
  | false =>
    rw [if_neg Bool.false_ne_true]
    cases hline : Format.line? format h.time r with
    | none => rfl
    | some line => exact absurd ⟨hclear, Format.exists_pieces_of_line? hline⟩ hnone

/-- After a setup a note that reaches its threshold is written by the one outlet. -/
theorem written_of_isDone {h : Handling} {s : Setup} (hdone : s.IsDone h) (r : Record) :
    h.written r =
      if (h.thresholdOf r.channel).rank ≤ r.severity.rank
        then h.writtenBy r (formatOf s.logging) else "" := by
  have hjoin :
      String.join [h.writtenBy r (formatOf s.logging)] = h.writtenBy r (formatOf s.logging) :=
    String.empty_append
  unfold written
  rw [hdone.outlets]
  simp [admits, hjoin]

/-- **A note after some setups.** Where no other channels than those of the network library have a
threshold, a later note depends on the last setup alone, whatever other setups were made before it
and whether they succeeded. The setup asks for one threshold on the channel of the note. Below it
nothing is written. A note that reaches it is written once: as what the pieces of the format show,
with the trace of the note below, if it makes a line of the format, and otherwise as a report,
unless reports are switched off. -/
theorem written_afterAll (hothers : start.OthersUnset) (before : List Setup) (last : Setup)
    (hok : ((start.afterAll before).setup last.logging last.verbose).1 = .ok ()) (r : Record) :
    ∃ threshold, (∀ t, last.HasThreshold r.channel t ↔ t = threshold) ∧
      (r.severity.rank < threshold.rank → (start.afterAll (before ++ [last])).written r = "") ∧
      (threshold.rank ≤ r.severity.rank →
        (∀ pieces : List Format.Piece, r.origin.isGarbled = false →
          (formatOf last.logging).toList = pieces.flatMap Format.Piece.text →
          Format.Fit start.time r pieces →
          ∃ shown, pieces.mapM (Format.Piece.shown? start.time r) = some shown ∧
            (start.afterAll (before ++ [last])).written r =
              withTrace (String.ofList shown.flatten) r ++ "\n") ∧
        (¬ r.MakesLine start.time (formatOf last.logging) →
          (start.afterAll (before ++ [last])).written r =
            if start.reports then report r else "")) := by
  have hdone := isDone_setup (othersUnset_afterAll hothers before) hok
  obtain ⟨htime, hreports⟩ := kept_afterAll start (before ++ [last])
  rw [← afterAll_append_singleton] at hdone
  -- From here on nothing but what the last setup has left is used.
  generalize start.afterAll (before ++ [last]) = h at hdone htime hreports ⊢
  have hwritten := written_of_isDone hdone r
  have hthreshold := hdone.hasThreshold r.channel
  refine ⟨h.thresholdOf r.channel,
    fun t => ⟨fun ht => ht.unique hthreshold, fun ht => ht ▸ hthreshold⟩, ?below, ?reached⟩
  case below =>
    intro hbelow
    rw [hwritten, if_neg (Int.not_le.mpr hbelow)]
  case reached =>
    intro hreached
    rw [hwritten, if_pos hreached, ← htime, ← hreports]
    exact ⟨fun pieces hclear hformat hfit => exists_writtenBy_of_fit hclear hformat hfit,
      writtenBy_of_not_makesLine⟩

/-- A setup that wants everything, then one that does not. -/
theorem written_afterAll_quietAgain :
    let loud : Setup := ⟨{}, true⟩
    let last : Setup := ⟨{ level := " debug", format := "%(levelname)-8s%(message)s" }, false⟩
    let note : Record := { severity := .warning, channel := "urllib3.util.retry", text := "slow" }
    ({} : Handling).OthersUnset ∧
      ((({} : Handling).afterAll [loud]).setup last.logging last.verbose).1 = .ok () ∧
      (({} : Handling).afterAll [loud, last]).written note = "WARNING slow\n" := by
  intro loud last note
  have hothers : ({} : Handling).OthersUnset := fun _ _ => rfl
  have hok : ((({} : Handling).afterAll [loud]).setup last.logging last.verbose).1 = .ok () := by
    decide +kernel
  refine ⟨hothers, hok, ?_⟩
  obtain ⟨threshold, hthreshold, -, hreached⟩ := written_afterAll hothers [loud] last hok note
  have hnoisy : Setup.IsNoisy note.channel := .inr ⟨0, "util.retry".toList, by decide, by decide⟩
  have hlevel : Severity.Means last.logging.level .debug := .listed (by decide +kernel)
  have hrank : threshold.rank ≤ note.severity.rank := by
    rw [← (hthreshold _).mp (.noisy rfl hlevel hnoisy)]
    decide
  let pieces : List Format.Piece :=
    [.field "levelname" { flags := ['-'], width := ['8'] } 's' (by decide) (by decide),
      .field "message" {} 's' (by decide) (by decide)]
  have hformat : (formatOf last.logging).toList = pieces.flatMap Format.Piece.text := by decide
  have heach : ∀ piece ∈ pieces, piece.Fits ({} : Handling).time note :=
    List.forall_mem_cons.mpr ⟨⟨by decide, _, rfl, .inl (by decide)⟩,
      List.forall_mem_singleton.mpr ⟨by decide, _, rfl, .inl (by decide)⟩⟩
  have hfit : Format.Fit ({} : Handling).time note pieces := ⟨heach, nofun, by decide⟩
  obtain ⟨shown, hshown, hwritten⟩ := (hreached hrank).1 pieces rfl hformat hfit
  rw [← Option.some.inj hshown] at hwritten
  exact hwritten.trans (by decide +kernel)

/-- A text is no number, and is reported where it is to be shown as one. -/
theorem written_not_always_inFormat :
    ¬ ∀ (start : Handling) (before : List Setup) (last : Setup) (r : Record)
      (pieces : List Format.Piece) (t : Severity),
      start.OthersUnset → ((start.afterAll before).setup last.logging last.verbose).1 = .ok () →
        (formatOf last.logging).toList = pieces.flatMap Format.Piece.text →
        last.HasThreshold r.channel t → t.rank ≤ r.severity.rank →
        ∃ shown, pieces.mapM (Format.Piece.shown? start.time r) = some shown ∧
          (start.afterAll (before ++ [last])).written r =
            withTrace (String.ofList shown.flatten) r ++ "\n" := by
  intro hclaim
  obtain ⟨shown, hshown, -⟩ := hclaim {} [] ⟨{ format := "%(message)d" }, true⟩
    { severity := .error, channel := "tknpac", text := "7" }
    [.field "message" {} 'd' (by decide) (by decide)] .debug (fun _ _ => rfl) (by decide +kernel)
    (by decide) (.verbose rfl) (by decide)
  exact nomatch hshown

end Handling

end PipelineRuns
