import Mathlib.Data.List.DropRight
import Mathlib.Data.List.TakeWhile
import PipelineRuns.Text.Blank
import PipelineRuns.Text.Digit
import PipelineRuns.Text.Line

/-!
# Trimming, cutting and reading

What trimming and cutting at a line boundary leave of a text. Both only ever leave characters out,
so a property of all characters of a text survives them (`mem_trim`, `mem_firstLine`); and a text
that ends in a character which is not blank, an `EndsSolid` text, is left alone at its end
(`trimRight_of_endsSolid`).

`dropRightWhile` goes through a text from the left; `dropRightWhile_eq_rdropWhile` identifies it
with the function of the library that goes through the reversed text, whose lemmas are used from
there on. In the same way `splitAt_eq_splitOn` identifies `splitAt`.

Pieces that were joined are found again by cutting (`split_intercalate`), and a number that was
written in decimal digits is read again (`asciiNat?_toString`).
-/

namespace PipelineRuns.Text

/-! ### Ends of a text -/

/-- The last character of the text is not blank. The empty text has no last character. -/
def EndsSolid (s : List Char) : Prop :=
  ∃ c ∈ s.getLast?, isBlank c = false

instance (s : List Char) : Decidable (EndsSolid s) :=
  decidable_of_iff (s.getLast?.any (fun c => !isBlank c) = true)
    (by simp [EndsSolid, Option.any_eq_true])

/-- Solid ends are a matter of the end alone. -/
theorem EndsSolid.append (s : List Char) {t : List Char} (h : EndsSolid t) :
    EndsSolid (s ++ t) := by
  obtain ⟨c, hc, hb⟩ := h
  refine ⟨c, ?_, hb⟩
  rw [Option.mem_def] at hc ⊢
  rw [List.getLast?_append, hc]
  rfl

/-- Dropping from the right, seen from the left. -/
theorem dropRightWhile_eq_rdropWhile (p : Char → Bool) (s : List Char) :
    dropRightWhile p s = s.rdropWhile p := by
  induction s with
  | nil => rfl
  | cons c rest ih =>
    -- Both functions drop `c` exactly when nothing of `rest` is left and `c` satisfies `p`.
    have hsplit : (c :: rest).rdropWhile p =
        if rest.rdropWhile p = [] then (if p c then [] else [c]) else c :: rest.rdropWhile p := by
      unfold List.rdropWhile
      rw [List.reverse_cons, List.dropWhile_append]
      cases hd : rest.reverse.dropWhile p with
      | nil => by_cases hc : p c <;> simp [hc]
      | cons d ds => simp
    have hstep : dropRightWhile p (c :: rest) =
        if dropRightWhile p rest = [] then (if p c then [] else [c])
        else c :: dropRightWhile p rest := by
      cases hr : dropRightWhile p rest with
      | nil => simp [dropRightWhile, hr]
      | cons d ds => simp [dropRightWhile, hr]
    rw [hstep, hsplit, ih]

/-- Trimming at the right leaves a beginning of the text. -/
theorem trimRight_initial (s : List Char) : trimRight s <+: s := by
  unfold trimRight
  rw [dropRightWhile_eq_rdropWhile]
  exact List.rdropWhile_prefix isBlank s

/-- Nothing is trimmed from a solid end. -/
theorem trimRight_of_endsSolid {s : List Char} (h : EndsSolid s) : trimRight s = s := by
  obtain ⟨c, hc, hb⟩ := h
  unfold trimRight
  rw [dropRightWhile_eq_rdropWhile, List.rdropWhile_eq_self_iff]
  intro hne
  rw [Option.mem_def, List.getLast?_eq_getLast_of_ne_nil hne, Option.some.injEq] at hc
  rw [hc, hb]
  exact Bool.false_ne_true

/-- Without the slashes at its end, a text lacks slashes alone and does not end in one. -/
theorem dropSlashes_spec (s : List Char) :
    (∃ n, s = dropSlashes s ++ List.replicate n '/') ∧ (dropSlashes s).getLast? ≠ some '/' := by
  unfold dropSlashes
  rw [dropRightWhile_eq_rdropWhile]
  constructor
  · have hslashes : s.rtakeWhile (· = '/') = List.replicate (s.rtakeWhile (· = '/')).length '/' :=
      List.eq_replicate_of_mem (fun c hc => by simpa using List.mem_rtakeWhile_imp hc)
    refine ⟨(s.rtakeWhile (· = '/')).length, ?_⟩
    rw [← hslashes, List.rdropWhile_append_rtakeWhile]
  · intro hlast
    have hne : s.rdropWhile (· = '/') ≠ [] := by
      intro hnil
      rw [hnil] at hlast
      exact nomatch hlast
    refine List.rdropWhile_last_not _ _ hne (decide_eq_true ?_)
    rw [List.getLast?_eq_getLast_of_ne_nil hne] at hlast
    exact Option.some.inj hlast

/-! ### Characters that are kept -/

theorem mem_trimRight {s : List Char} {c : Char} (h : c ∈ trimRight s) : c ∈ s :=
  (trimRight_initial s).subset h

theorem mem_trim {s : List Char} {c : Char} (h : c ∈ trim s) : c ∈ s :=
  List.dropWhile_subset isBlank (mem_trimRight h)

/-- **What trimming takes away** are blanks at the ends. -/
theorem exists_append_trim (s : List Char) :
    ∃ before after, s = before ++ trim s ++ after ∧ (∀ c ∈ before, isBlank c = true) ∧
      ∀ c ∈ after, isBlank c = true := by
  refine ⟨s.takeWhile isBlank, (trimLeft s).rtakeWhile isBlank, ?_, ?_, ?_⟩
  · unfold trim trimRight
    rw [dropRightWhile_eq_rdropWhile, List.append_assoc, List.rdropWhile_append_rtakeWhile]
    exact List.takeWhile_append_dropWhile.symm
  · exact fun c hc => List.mem_takeWhile_imp hc
  · exact fun c hc => List.mem_rtakeWhile_imp hc

/-- Trimming keeps every character that is not blank. -/
theorem mem_strip_iff {s : String} {c : Char} (h : isBlank c = false) :
    c ∈ (strip s).toList ↔ c ∈ s.toList := by
  have hsolid : ¬ isBlank c = true := by
    rw [h]
    exact Bool.false_ne_true
  rw [toList_strip]
  refine ⟨mem_trim, fun hc => ?_⟩
  obtain ⟨before, after, hparts, hbefore, hafter⟩ := exists_append_trim s.toList
  rw [hparts, List.mem_append, List.mem_append] at hc
  exact (hc.resolve_right (fun hmem => hsolid (hafter c hmem))).resolve_left
    (fun hmem => hsolid (hbefore c hmem))

/-- What is left of a text after trimming is nothing exactly if there is nothing but blanks. -/
theorem trim_eq_nil_iff {s : List Char} : trim s = [] ↔ ∀ c ∈ s, isBlank c = true := by
  constructor
  · intro hnil c hc
    obtain ⟨before, after, hparts, hbefore, hafter⟩ := exists_append_trim s
    rw [hparts, hnil, List.append_nil, List.mem_append] at hc
    exact hc.elim (hbefore c) (hafter c)
  · intro h
    have hleft : trimLeft s = [] := List.dropWhile_eq_nil_iff.mpr h
    rw [trim, hleft, trimRight_nil]

theorem strip_eq_empty_iff {s : String} : strip s = "" ↔ isBlankText s = true := by
  unfold isBlankText
  rw [← String.toList_inj, toList_strip, List.all_eq_true]
  exact trim_eq_nil_iff

/-- A first line is made of characters of the text that end no line. -/
theorem mem_firstLine {s : List Char} {c : Char} (h : c ∈ firstLine s) :
    c ∈ s ∧ isBoundary c = false := by
  refine ⟨List.takeWhile_subset _ h, ?_⟩
  have hc := List.mem_takeWhile_imp h
  rwa [Bool.not_eq_true'] at hc

/-! ### Pieces -/

theorem splitAt_eq_splitOn (c : Char) (s : List Char) : splitAt c s = s.splitOn c := by
  induction s with
  | nil => rfl
  | cons d rest ih =>
    rw [List.splitOn_eq_splitOnP] at ih ⊢
    rw [splitAt, List.splitOnP_cons_eq_if_modifyHead, ih]
    by_cases hd : d = c
    · rw [if_pos hd, if_pos (beq_iff_eq.mpr hd)]
    · rw [if_neg hd, if_neg (fun h => hd (beq_iff_eq.mp h))]
      cases hpieces : rest.splitOnP (· == c) with
      | nil => exact absurd hpieces (List.splitOnP_ne_nil _ _)
      | cons piece pieces => rfl

/-- The pieces, joined again. -/
theorem intercalate_split (c : Char) (s : String) :
    String.intercalate (String.singleton c) (split c s) = s := by
  have hlists : (split c s).map String.toList = s.toList.splitOn c := by
    unfold split
    rw [splitAt_eq_splitOn, List.map_map]
    conv_rhs => rw [← List.map_id (s.toList.splitOn c)]
    exact List.map_congr_left (fun l _ => String.toList_ofList)
  rw [← String.toList_inj, String.toList_intercalate, String.toList_singleton, hlists,
    List.intercalate_splitOn]

/-- A character that is not used for joining comes from one of the pieces. -/
theorem mem_intercalate_iff {c : Char} {sep : String} (hsep : c ∉ sep.toList)
    (pieces : List String) :
    c ∈ (String.intercalate sep pieces).toList ↔ ∃ p ∈ pieces, c ∈ p.toList := by
  induction pieces with
  | nil => simp [String.intercalate_nil]
  | cons p rest ih =>
    cases rest with
    | nil => simp [String.intercalate_singleton]
    | cons q more =>
      rw [String.intercalate_cons_cons, String.toList_append, String.toList_append, List.mem_append,
        List.mem_append, ih, List.exists_mem_cons_iff]
      simp [hsep]

/-- Pieces without the character that joins them are found again. -/
theorem split_intercalate {c : Char} {pieces : List String} (hne : pieces ≠ [])
    (h : ∀ p ∈ pieces, c ∉ p.toList) :
    split c (String.intercalate (String.singleton c) pieces) = pieces := by
  have hlists : ∀ l ∈ pieces.map String.toList, c ∉ l := by
    intro l hl
    obtain ⟨p, hp, rfl⟩ := List.mem_map.mp hl
    exact h p hp
  unfold split
  rw [splitAt_eq_splitOn, String.toList_intercalate, String.toList_singleton,
    List.splitOn_intercalate c hlists (by simpa using hne), List.map_map]
  conv_rhs => rw [← List.map_id pieces]
  exact List.map_congr_left (fun p _ => String.ofList_toList)

/-! ### Numerals -/

/-- Digits are read from the left to the right, each after the number that those before it write. -/
theorem ofDigits_mapM_asciiDigit? {s : List Char} (h : ∀ c ∈ s, c.isDigit = true) (before : Nat) :
    (s.mapM asciiDigit?).map (ofDigits 10 before) = some (Nat.ofDigitChars 10 s before) := by
  induction s generalizing before with
  | nil => rfl
  | cons c rest ih =>
    have hdigit : asciiDigit? c = some (c.toNat - '0'.toNat) := if_pos (h c List.mem_cons_self)
    have hrest :=
      ih (fun d hd => h d (List.mem_cons_of_mem _ hd)) (before * 10 + (c.toNat - '0'.toNat))
    obtain ⟨values, hvalues, hread⟩ := Option.map_eq_some_iff.mp hrest
    rw [List.mapM_cons, hdigit, hvalues]
    change some (ofDigits 10 (before * 10 + (c.toNat - '0'.toNat)) values) = _
    rw [hread, Nat.mul_comm before 10]
    rfl

/-- A number that was written is read again. -/
theorem asciiNat?_toString (n : Nat) : asciiNat? (toString n).toList = some n := by
  have hdigits : ∀ c ∈ Nat.toDigits 10 n, c.isDigit = true :=
    fun c hc => Nat.isDigit_of_mem_toDigits (by decide) (by decide) hc
  have hne : (Nat.toDigits 10 n).isEmpty = false :=
    List.isEmpty_eq_false_iff.mpr Nat.toDigits_ne_nil
  rw [Nat.toString_eq_repr, Nat.toList_repr, asciiNat?, hne, if_neg Bool.false_ne_true,
    ofDigits_mapM_asciiDigit? hdigits, Nat.ofDigitChars_toDigits (by decide) (by decide)]

end PipelineRuns.Text
