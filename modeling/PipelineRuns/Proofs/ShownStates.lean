import PipelineRuns.Proofs.Arrangements
import PipelineRuns.Proofs.Columns
import PipelineRuns.Proofs.Entries

/-!
# The state that a row shows

A row of the report begins with the cell of a state. Here the state is traced back to the entry of
the status that the row is for. `Report.ShowsState` reads it off the line, in any style: no line
shows two states (`ShowsState.unique`). `Run.Stated` says which state an entry is in, in terms of
the first of its conditions alone (`Run.FirstReason`), and `Run.stated_iff` that the classification
of the run which is read from the entry gives this state.

A reason of another type than text is put into words before it is classified, and these words could
be among those that are listed. They never are: the listed reasons begin with a capital letter, and
of all other values only null and the truth values do (`Value.beginsLow_shown`).

Main statement: `Report.showsState_iff`.
-/

namespace PipelineRuns

/-! ### How the notation of a value begins -/

/-- The text begins with a character that is no capital letter. -/
def Text.BeginsLow (s : List Char) : Prop :=
  ∃ c ∈ s.head?, c.isUpper = false

namespace Text.BeginsLow

instance (s : List Char) : Decidable (BeginsLow s) :=
  decidable_of_iff (s.head?.any (fun c => !c.isUpper) = true)
    (by simp [BeginsLow, Option.any_eq_true])

theorem cons {c : Char} (h : c.isUpper = false) (rest : List Char) : BeginsLow (c :: rest) :=
  ⟨c, rfl, h⟩

/-- The beginning is a matter of the first part. -/
theorem append {s : List Char} (h : BeginsLow s) (t : List Char) : BeginsLow (s ++ t) := by
  obtain ⟨c, hhead, hc⟩ := h
  obtain ⟨rest, rfl⟩ := List.head?_eq_some_iff.mp hhead
  exact cons hc (rest ++ t)

theorem of_isDigit {c : Char} (h : c.isDigit = true) (rest : List Char) :
    BeginsLow (c :: rest) := by
  refine cons ?_ rest
  delta Char.isDigit Char.isUpper at *
  simp only [Bool.and_eq_true, decide_eq_true_eq, decide_eq_false_iff_not, ge_iff_le,
    UInt32.le_iff_toNat_le] at *
  have hnine : ('9' : Char).val.toNat = 57 := rfl
  have hcapital : ('A' : Char).val.toNat = 65 := rfl
  omega

/-- Where there are digits only, and at least one. -/
theorem of_digits {s : List Char} (hne : s ≠ []) (h : ∀ c ∈ s, c.isDigit = true) : BeginsLow s := by
  obtain ⟨c, rest, rfl⟩ := List.exists_cons_of_ne_nil hne
  exact of_isDigit (h c List.mem_cons_self) rest

theorem toDigits (n : Nat) : BeginsLow (Nat.toDigits 10 n) :=
  of_digits Nat.toDigits_ne_nil (fun _ hc => Nat.isDigit_of_mem_toDigits (by decide) (by decide) hc)

end Text.BeginsLow

open Text (BeginsLow)

theorem beginsLow_padNat (width n : Nat) : BeginsLow (Text.padNat width n).toList := by
  unfold Text.padNat
  rw [String.toList_ofList]
  cases width - (Nat.toDigits 10 n).length with
  | zero => exact BeginsLow.toDigits n
  | succ zeros => exact BeginsLow.of_isDigit rfl _

theorem beginsLow_int (n : Int) : BeginsLow (toString n).toList := by
  cases n with
  | ofNat n =>
    change BeginsLow (toString n).toList
    rw [Nat.toString_eq_repr, Nat.toList_repr]
    exact BeginsLow.toDigits n
  | negSucc n =>
    change BeginsLow ("-" ++ toString (n + 1)).toList
    rw [String.toList_append]
    exact BeginsLow.cons rfl _

theorem Civil.beginsLow_text (d : Civil) : BeginsLow d.text.toList := by
  unfold Civil.text
  simp only [String.toList_append]
  exact (((beginsLow_padNat 4 _).append _).append _).append _ |>.append _

namespace Number

/-- The significant digits of a decimal are digits, and there is one at least. -/
theorem significant_eq_cons (d : Decimal) :
    ∃ c rest, (significant d).1 = c :: rest ∧ c.isDigit = true := by
  unfold significant
  dsimp only
  split
  · exact ⟨'0', [], rfl, rfl⟩
  · next hne =>
    have hne' : (((Nat.toDigits 10 d.digits).reverse.dropWhile (· = '0')).reverse) ≠ [] := by
      intro hnil
      exact hne (by rw [hnil]; rfl)
    obtain ⟨c, rest, hcons⟩ := List.exists_cons_of_ne_nil hne'
    refine ⟨c, rest, hcons, ?_⟩
    have hmem : c ∈ ((Nat.toDigits 10 d.digits).reverse.dropWhile (· = '0')).reverse := by
      rw [hcons]
      exact List.mem_cons_self
    rw [List.mem_reverse] at hmem
    exact Nat.isDigit_of_mem_toDigits (by decide) (by decide)
      (List.mem_reverse.mp (List.dropWhile_subset _ hmem))

theorem beginsLow_decimalText (l : Layout) (d : Decimal) : BeginsLow (decimalText l d).toList := by
  obtain ⟨c, rest, hdigits, hc⟩ := significant_eq_cons d
  unfold decimalText
  cases hparts : significant d with
  | mk digits place =>
    rw [hparts] at hdigits
    obtain rfl : digits = c :: rest := hdigits
    dsimp only
    -- Below one a zero comes first, in the other two notations the first significant digit.
    split
    · split
      · rw [String.toList_ofList]
        exact BeginsLow.of_isDigit rfl _
      · rw [String.toList_ofList]
        exact BeginsLow.of_isDigit hc _
    · rw [String.toList_ofList]
      exact BeginsLow.of_isDigit hc _

/-- A minus sign in front changes nothing. -/
theorem beginsLow_signed (negative : Prop) [Decidable negative] {s : String}
    (h : BeginsLow s.toList) : BeginsLow ((if negative then "-" else "") ++ s).toList := by
  rw [String.toList_append]
  split
  · exact BeginsLow.cons rfl _
  · exact h

theorem beginsLow_text (x : Float) : BeginsLow (text x).toList := by
  unfold text
  split
  · exact BeginsLow.cons rfl _
  · dsimp only
    split
    · exact beginsLow_signed _ (BeginsLow.cons rfl _)
    · split
      · exact beginsLow_signed _ (BeginsLow.cons rfl _)
      · exact beginsLow_signed _ (beginsLow_decimalText _ _)

end Number

namespace Value

/-- What a value of another type than text is shown as, null and truth values apart. -/
theorem beginsLow_shown {v : Value} (hnull : v ≠ .null) (hbool : ∀ b, v ≠ .bool b)
    (htext : ∀ s, v ≠ .text s) : BeginsLow v.shown.toList := by
  -- Whatever is no text is shown by a digit, a sign, a bracket or a small letter in front.
  cases v with
  | null => exact absurd rfl hnull
  | bool b => exact absurd rfl (hbool b)
  | text s => exact absurd rfl (htext s)
  | int n => exact beginsLow_int n
  | float x => exact Number.beginsLow_text x
  | bytes content =>
    change BeginsLow (Text.quotedBytes content).toList
    unfold Text.quotedBytes
    rw [String.toList_ofList]
    exact BeginsLow.cons rfl _
  | date d => exact d.beginsLow_text
  | timestamp wall offset =>
    cases offset with
    | none =>
      change BeginsLow
        ((Moment.utc wall).date.text ++ " " ++ (Moment.utc wall).timeOfDay.text).toList
      simp only [String.toList_append]
      exact ((Civil.beginsLow_text _).append _).append _
    | some offset =>
      change BeginsLow (Moment.textWith " " ⟨wall, offset⟩).toList
      unfold Moment.textWith
      simp only [String.toList_append]
      exact (((Civil.beginsLow_text _).append _).append _).append _
  | pair a b =>
    change BeginsLow ("(" ++ notated a ++ ", " ++ notated b ++ ")").toList
    simp only [String.toList_append]
    exact BeginsLow.cons rfl _
  | list xs =>
    change BeginsLow ("[" ++ commaSeparated (notatedItems xs) ++ "]").toList
    simp only [String.toList_append]
    exact BeginsLow.cons rfl _
  | set xs =>
    change BeginsLow (notated (.set xs)).toList
    rw [notated]
    split
    · exact BeginsLow.cons rfl _
    · simp only [String.toList_append]
      exact BeginsLow.cons rfl _
  | mapping m =>
    change BeginsLow ("\x7b" ++ commaSeparated (notatedEntries m) ++ "\x7d").toList
    simp only [String.toList_append]
    exact BeginsLow.cons rfl _

end Value

namespace DisplayState

/-! ### Reasons -/

/-- The reasons that have a state of their own. -/
def listedReasons : List String :=
  successReasons ++ failureReasons ++ runningReasons

/-- Only a text is one of the listed reasons, or empty, whatever other values are put into words. -/
theorem exists_text_of_listed {v : Value} (h : v.shown ∈ "" :: listedReasons) :
    ∃ s, v = .text s := by
  have hcapital : ∀ r ∈ "" :: listedReasons, ¬ BeginsLow r.toList := by decide
  by_contra htext
  -- Null and the truth values are written with capitals, so they are compared with the list one by
  -- one.
  refine hcapital _ h (Value.beginsLow_shown ?_ ?_ (fun s hs => htext ⟨s, hs⟩))
  · rintro rfl
    exact absurd h (by decide)
  · rintro b rfl
    cases b <;> exact absurd h (by decide)

theorem ofReason_success : ∀ r ∈ successReasons, ofReason r = succeeded := by decide

theorem ofReason_failure : ∀ r ∈ failureReasons, ofReason r = failed := by decide

theorem ofReason_running : ∀ r ∈ runningReasons, ofReason r = running := by decide

theorem ofReason_other {r : String} (h : r ∉ "" :: listedReasons) : ofReason r = unknown := by
  unfold listedReasons at h
  simp only [List.mem_cons, List.mem_append, not_or] at h
  obtain ⟨hne, ⟨hsuccess, hfailure⟩, hrunning⟩ := h
  unfold ofReason
  rw [if_neg hne, if_neg hsuccess, if_neg hfailure, if_neg hrunning]

/-- An empty reason is classified as if it were absent. -/
theorem classify_nonEmpty (reason : Option String) :
    classify (Run.nonEmpty reason) = classify reason := by
  cases reason with
  | none => rfl
  | some r =>
    unfold Run.nonEmpty
    rw [Option.filter_some]
    split
    · rfl
    · next hr =>
      obtain rfl : r = "" := by simpa using hr
      rfl

end DisplayState

open DisplayState (successReasons failureReasons runningReasons listedReasons)

namespace Run

variable {entry : Mapping} {reason : Value} {s : DisplayState}

/-- The conditions of an entry are a list, the first of them is a mapping, and it gives this
reason. -/
def FirstReason (entry : Mapping) (reason : Value) : Prop :=
  ∃ (first : Mapping) (rest : List Value),
    entry.get "conditions" = .list (.mapping first :: rest) ∧ first.get? "reason" = some reason

/-- The state that an entry of a status is in. -/
inductive Stated (entry : Mapping) : DisplayState → Prop
  | succeeded {reason : Value} (h : FirstReason entry reason)
    (hlisted : reason.shown ∈ successReasons) :
    Stated entry .succeeded
  | failed {reason : Value} (h : FirstReason entry reason)
    (hlisted : reason.shown ∈ failureReasons) :
    Stated entry .failed
  /-- The conditions are no list, or an empty one, or the first of them is no mapping, or it has no
  reason. -/
  | unreported (h : ∀ reason, ¬ FirstReason entry reason) : Stated entry .running
  | empty {reason : Value} (h : FirstReason entry reason)
    (hempty : reason = .null ∨ reason = .text "") :
    Stated entry .running
  | running {reason : Value} (h : FirstReason entry reason)
    (hlisted : reason.shown ∈ runningReasons) :
    Stated entry .running
  | unknown {reason : Value} (h : FirstReason entry reason) (hgiven : reason ≠ .null)
    (hother : reason.shown ∉ "" :: listedReasons) : Stated entry .unknown

theorem get_condition (h : FirstReason entry reason) : (condition entry).get "reason" = reason := by
  obtain ⟨first, rest, hconditions, hreason⟩ := h
  unfold condition
  rw [hconditions]
  exact congrArg (Option.getD · .null) hreason

/-- Where there is no first reason, the condition that is read has none either. -/
theorem get?_condition_eq_none (h : ∀ reason, ¬ FirstReason entry reason) :
    (condition entry).get? "reason" = none := by
  unfold condition
  split
  · next first rest hitems =>
    -- A value with items is a list, so a reason of this condition would be a first reason.
    cases hconditions : entry.get "conditions" with
    | list items =>
      rw [hconditions] at hitems
      obtain rfl : items = .mapping first :: rest := hitems
      cases hreason : Mapping.get? first "reason" with
      | none => rfl
      | some reason => exact absurd ⟨first, rest, hconditions, hreason⟩ (h reason)
    | _ => simp [hconditions, Value.items] at hitems
  · rfl

/-- A run is classified by the reason of the first condition. -/
theorem classify_of_first (h : FirstReason entry reason) :
    DisplayState.classify (ofEntry entry).reason = DisplayState.classify reason.shown? := by
  change DisplayState.classify (nonEmpty (textAt (condition entry) "reason")) = _
  rw [DisplayState.classify_nonEmpty, textAt, get_condition h]

theorem classify_of_given (h : FirstReason entry reason) (hgiven : reason ≠ .null) :
    DisplayState.classify (ofEntry entry).reason = DisplayState.ofReason reason.shown := by
  have hshown : reason.shown? = some reason.shown := by
    cases reason with
    | null => exact absurd rfl hgiven
    | _ => rfl
  rw [classify_of_first h, hshown, DisplayState.classify_some]

/-- A listed reason is given: null would be put into words that are not listed. -/
theorem classify_of_listed (h : FirstReason entry reason) (hlisted : reason.shown ∈ listedReasons) :
    DisplayState.classify (ofEntry entry).reason = DisplayState.ofReason reason.shown := by
  refine classify_of_given h ?_
  rintro rfl
  exact absurd hlisted (by decide)

theorem classify_of_unreported (h : ∀ reason, ¬ FirstReason entry reason) :
    DisplayState.classify (ofEntry entry).reason = .running := by
  change DisplayState.classify (nonEmpty (textAt (condition entry) "reason")) = _
  rw [textAt, Mapping.get, get?_condition_eq_none h]
  rfl

theorem classify_of_stated (h : Stated entry s) :
    DisplayState.classify (ofEntry entry).reason = s := by
  -- A state of its own is kept for the reasons on a list; what is left is either no reason at all
  -- or on no list.
  cases h with
  | succeeded h hlisted =>
    rw [classify_of_listed h (List.mem_append_left _ (List.mem_append_left _ hlisted))]
    exact DisplayState.ofReason_success _ hlisted
  | failed h hlisted =>
    rw [classify_of_listed h (List.mem_append_left _ (List.mem_append_right _ hlisted))]
    exact DisplayState.ofReason_failure _ hlisted
  | unreported h => exact classify_of_unreported h
  | empty h hempty =>
    rw [classify_of_first h]
    rcases hempty with rfl | rfl
    · rfl
    · rfl
  | running h hlisted =>
    rw [classify_of_listed h (List.mem_append_right _ hlisted)]
    exact DisplayState.ofReason_running _ hlisted
  | unknown h hgiven hother => rw [classify_of_given h hgiven, DisplayState.ofReason_other hother]

/-- A reason that is given decides the state. -/
theorem stated_ofReason (h : FirstReason entry reason) (hgiven : reason ≠ .null) :
    Stated entry (DisplayState.ofReason reason.shown) := by
  by_cases hsuccess : reason.shown ∈ successReasons
  · rw [DisplayState.ofReason_success _ hsuccess]
    exact .succeeded h hsuccess
  by_cases hfailure : reason.shown ∈ failureReasons
  · rw [DisplayState.ofReason_failure _ hfailure]
    exact .failed h hfailure
  by_cases hrunning : reason.shown ∈ runningReasons
  · rw [DisplayState.ofReason_running _ hrunning]
    exact .running h hrunning
  by_cases hempty : reason.shown = ""
  · -- Nothing but the empty text is shown as one.
    obtain ⟨t, rfl⟩ := DisplayState.exists_text_of_listed (List.mem_cons.mpr (Or.inl hempty))
    obtain rfl : t = "" := hempty
    exact .empty h (Or.inr rfl)
  · have hother : reason.shown ∉ "" :: listedReasons := by
      simp only [listedReasons, List.mem_cons, List.mem_append, not_or]
      exact ⟨hempty, ⟨hsuccess, hfailure⟩, hrunning⟩
    rw [DisplayState.ofReason_other hother]
    exact .unknown h hgiven hother

/-- **An entry is in one state**, that by which its run is classified. -/
theorem stated_iff (entry : Mapping) (s : DisplayState) :
    Stated entry s ↔ DisplayState.classify (ofEntry entry).reason = s := by
  refine ⟨classify_of_stated, ?_⟩
  rintro rfl
  by_cases hfirst : ∃ reason, FirstReason entry reason
  · obtain ⟨reason, h⟩ := hfirst
    by_cases hnull : reason = .null
    · subst hnull
      rw [classify_of_first h]
      exact .empty h (Or.inl rfl)
    · rw [classify_of_given h hnull]
      exact stated_ofReason h hnull
  · have hnone : ∀ reason, ¬ FirstReason entry reason := fun reason h => hfirst ⟨reason, h⟩
    rw [classify_of_unreported hnone]
    exact .unreported hnone

/-- A reason of another type than text, and not null, leaves the state unknown. -/
theorem Stated.of_noText (h : FirstReason entry reason) (hgiven : reason ≠ .null)
    (htext : ∀ t, reason ≠ .text t) : Stated entry .unknown := by
  refine .unknown h hgiven (fun hlisted => ?_)
  obtain ⟨t, ht⟩ := DisplayState.exists_text_of_listed hlisted
  exact htext t ht

end Run

/-- The runs of a Repository are those of the entries of its status. -/
theorem Repository.runs_of_result {data : Mapping} {repo : Repository}
    (h : (ofResource data).result = .ok repo) :
    repo.runs = (statusEntries data).map Run.ofEntry := by
  have houtcome : (outcome (described data) {}).map
      (fun repo => { repo with runs := (statusEntries data).map Run.ofEntry }) = .ok repo :=
    (outcome_eq_described data {} {}).symm.trans h
  cases hdescribed : outcome (described data) {} with
  | error f =>
    rw [hdescribed] at houtcome
    exact nomatch houtcome
  | ok described =>
    rw [hdescribed] at houtcome
    exact congrArg Repository.runs (Except.ok.inj houtcome).symm

namespace Report

variable {style : Style} {now : Moment} {repo : Repository} {s t : DisplayState} {line : String}

/-! ### The first cell of a line -/

/-- The line begins with the sign and the name of a state, in its colours, and a space after
them. -/
def ShowsState (style : Style) (s : DisplayState) (line : String) : Prop :=
  ∃ rest, line = style.state s (s.icon ++ " " ++ s.name) ++ " " ++ rest

/-- What is shown for a state is not the beginning of what is shown for another one. -/
theorem eq_of_initial (style : Style)
    (h : (style.state s (s.icon ++ " " ++ s.name)).toList <+:
      (style.state t (t.icon ++ " " ++ t.name)).toList) : s = t := by
  cases style with
  | plain => cases s <;> cases t <;> first | rfl | exact absurd h (by decide)
  | ansi hyperlinks =>
    change (Style.rendition (Style.color s) (s.icon ++ " " ++ s.name)).toList <+:
      (Style.rendition (Style.color t) (t.icon ++ " " ++ t.name)).toList at h
    cases s <;> cases t <;> first | rfl | exact absurd h (by decide)

/-- A line shows one state at most. -/
theorem ShowsState.unique (hs : ShowsState style s line) (ht : ShowsState style t line) :
    s = t := by
  have hinitial {u : DisplayState} (hu : ShowsState style u line) :
      (style.state u (u.icon ++ " " ++ u.name)).toList <+: line.toList := by
    obtain ⟨rest, rfl⟩ := hu
    simp only [String.append_assoc, String.toList_append]
    exact List.prefix_append _ _
  rcases List.prefix_or_prefix_of_prefix (hinitial hs) (hinitial ht) with h | h
  · exact eq_of_initial style h
  · exact (eq_of_initial style h).symm

theorem spaces_append_separator (n : Nat) : spaces n ++ separator = " " ++ spaces (n + 1) := by
  rw [← String.toList_inj]
  simp only [spaces, separator, String.toList_append, String.toList_ofList]
  change List.replicate n ' ' ++ List.replicate 2 ' ' =
    List.replicate 1 ' ' ++ List.replicate (n + 1) ' '
  rw [List.replicate_append_replicate, List.replicate_append_replicate, Nat.add_comm 1]

/-- The line of a run shows the state by which the run is classified. -/
theorem showsState_body (ws : List Nat) (style : Style) (now : Moment) (run : Run) :
    ShowsState style (DisplayState.classify run.reason) (body ws (Cell.row style now run)) := by
  have hpadded (text rest : String) (n : Nat) :
      text ++ spaces n ++ separator ++ rest = text ++ " " ++ (spaces (n + 1) ++ rest) := by
    calc text ++ spaces n ++ separator ++ rest
      _ = text ++ (spaces n ++ separator) ++ rest := by simp only [String.append_assoc]
      _ = text ++ (" " ++ spaces (n + 1)) ++ rest := by rw [spaces_append_separator]
      _ = text ++ " " ++ (spaces (n + 1) ++ rest) := by simp only [String.append_assoc]
  unfold Cell.row
  rw [body_cons, hpadded]
  exact ⟨_, rfl⟩

/-! ### The lines of the table -/

/-- Five lines stand before the first run: three of the header, an empty one and the headings. -/
theorem getElem?_lines (h : repo.runs ≠ []) (style : Style) (now : Moment) (k : Nat) :
    (lines style now repo)[5 + k]? = ((Run.display repo.runs)[k]?).map
      (fun run => body (widths (rows style now repo.runs)) (Cell.row style now run)) := by
  have hruns : repo.runs.isEmpty = false := by rwa [List.isEmpty_eq_false_iff]
  have hcount : (header style repo ++ [""]).length = 4 := by simp [header, fields]
  have hlines :
      lines style now repo = header style repo ++ [""] ++ table (rows style now repo.runs) := by
    unfold lines
    rw [hruns, if_neg Bool.false_ne_true, List.append_assoc]
    rfl
  rw [hlines, List.getElem?_append_right (by omega), hcount, table_rows, List.getElem?_map]
  have hplace : 5 + k - 4 = k + 1 := by omega
  rw [hplace, rows, List.getElem?_cons_succ, List.getElem?_map, Option.map_map]
  rfl

/-- In an order of display, the run at position `i` has the line of its place in the order. -/
theorem line_of_run {order : List (Fin repo.runs.length)}
    (horder : Run.IsDisplayOrder repo.runs order) (style : Style) (now : Moment)
    (i : Fin repo.runs.length) :
    (lines style now repo)[5 + order.idxOf i]? =
      some (body (widths (rows style now repo.runs)) (Cell.row style now repo.runs[i])) := by
  have hne : repo.runs ≠ [] := List.ne_nil_of_length_pos (Nat.zero_lt_of_lt i.isLt)
  have hmem : i ∈ order := horder.arrangement.perm.mem_iff.mpr (List.mem_finRange i)
  rw [getElem?_lines hne, horder.display_eq, List.getElem?_map, List.getElem?_idxOf hmem]
  rfl

/-- **The state of every row comes from the first condition of its entry.** The runs of a Repository
are those of the entries of its status, one for one, and a report has a line for each of them, at
its place in the order of display. The line shows the one state that the entry is in, and no other:
it is a success or a failure only for a first condition with a reason that is listed as one,
whatever conditions follow, and a reason that is neither a text nor null is always shown as
unknown. -/
theorem showsState_iff (data : Mapping) (h : (Repository.ofResource data).result = .ok repo)
    (style : Style) (now : Moment) :
    repo.runs.length = (Repository.statusEntries data).length ∧
      ∃ order, Run.IsDisplayOrder repo.runs order ∧
        ∀ (i : Fin repo.runs.length) (entry : Mapping),
          (Repository.statusEntries data)[i.val]? = some entry →
          ∃ line, (lines style now repo)[5 + order.idxOf i]? = some line ∧
            (∀ s, ShowsState style s line ↔ Run.Stated entry s) ∧
            ∀ reason, Run.FirstReason entry reason → reason ≠ .null → (∀ t, reason ≠ .text t) →
              ShowsState style .unknown line := by
  have hruns := Repository.runs_of_result h
  refine ⟨by rw [hruns, List.length_map], _, Run.isDisplayOrder_sorted repo.runs, ?_⟩
  intro i entry hentry
  have hrun : repo.runs[i] = Run.ofEntry entry := by
    have hget : ((Repository.statusEntries data).map Run.ofEntry)[i.val]? =
        some (Run.ofEntry entry) := by
      rw [List.getElem?_map, hentry, Option.map_some]
    rw [← hruns] at hget
    exact (List.getElem?_eq_some_iff.mp hget).2
  -- The line is the one of the run at this position, and it shows no state but that of the run.
  have hshows := showsState_body (widths (rows style now repo.runs)) style now repo.runs[i]
  have hstates (s : DisplayState) :
      ShowsState style s
      (body (widths (rows style now repo.runs)) (Cell.row style now repo.runs[i])) ↔
        Run.Stated entry s := by
    rw [Run.stated_iff, ← hrun]
    constructor
    · intro hs
      exact hshows.unique hs
    · rintro rfl
      exact hshows
  refine ⟨_, line_of_run (Run.isDisplayOrder_sorted repo.runs) style now i, hstates, ?_⟩
  intro reason hfirst hgiven htext
  exact (hstates .unknown).mpr (.of_noText hfirst hgiven htext)

/-- A resource whose status has a success with a failure after it, a list as a reason, something
that is no entry, and conditions that are no list. -/
def mixedStatus : Mapping :=
  [(.text "metadata", .object [("name", .text "pac"), ("namespace", .text "ci")]),
    (.text "pipelinerun_status", .list
      [.object [("conditions",
        .list [.object [("reason", .text "Completed")], .object [("reason", .text "Failed")]])],
        .object [("conditions", .list [.object [("reason", .list [.text "Failed"])]])],
        .text "Failed", .object [("conditions", .text "Failed")]])]

/-- The Repository of `mixedStatus`. -/
def mixedRepository : Repository where
  name := "pac"
  ns := "ci"
  runs := [{ reason := some "Completed" }, { reason := some "['Failed']" }, {}]

theorem showsState_iff_mixedStatus :
    (Repository.ofResource mixedStatus).result = .ok mixedRepository ∧
      ∃ (order : List (Fin 3)) (line : String),
        (lines (.ansi true) (Moment.utc 0) mixedRepository)[5 + order.idxOf 1]? = some line ∧
        ShowsState (.ansi true) .unknown line ∧ ¬ ShowsState (.ansi true) .failed line := by
  have hresult : (Repository.ofResource mixedStatus).result = .ok mixedRepository :=
    eq_ok_of_toOption (by decide +kernel)
  obtain ⟨-, order, -, hlines⟩ := showsState_iff mixedStatus hresult (.ansi true) (Moment.utc 0)
  obtain ⟨line, hline, hstates, hunknown⟩ := hlines (1 : Fin 3) _ rfl
  have hfirst :
      Run.FirstReason [(.text "conditions", .list [.object [("reason", .list [.text "Failed"])]])]
      (.list [.text "Failed"]) := ⟨_, _, rfl, rfl⟩
  have hshows := hunknown _ hfirst (by simp) (by simp)
  refine ⟨hresult, order, line, hline, hshows, fun hfailed => ?_⟩
  exact absurd (hshows.unique hfailed) (by decide)

end Report

end PipelineRuns
