import PipelineRuns.Proofs.QuotedScalars

/-!
# Plain scalars

A word without marks is written as it is. It is read up to the first blank or break, or to a colon
before one of these (`Scalar.plainWord_append`). After a word at the end of a line the reader goes
on to the margin of the next line, and stops there if this margin is no deeper than what holds the
word.

Main statements: `IsPlainWord.plain_feed` and `IsPlainWord.plain_colon`.
-/

namespace PipelineRuns.Yaml

/-! ### Plain words -/

theorem endsWord_of_isTyped {c : Char} (htyped : isTyped c = true) (hgap : isGap c = false) :
    endsWord (some c) = false := by
  obtain ⟨hspace, hfeed⟩ : c ≠ ' ' ∧ c ≠ '\n' := by simpa [isGap] using hgap
  have htab : c ≠ '\t' := ne_of_isTyped htyped (by decide)
  simp [endsWord, hspace, htab, isBreak_of_isTyped htyped, hfeed]

/-- A colon inside a text without marks is not at the end of a word. -/
theorem Written.colon_of_holdsMark {before : Char} {a b : List Char}
    (h : Written.holdsMark before (a ++ ':' :: b) = false) : endsWord b.head? = false := by
  induction a generalizing before with
  | nil =>
    rw [List.nil_append, Written.holdsMark, Bool.or_eq_false_iff, Bool.or_eq_false_iff] at h
    exact h.1.1
  | cons c a ih =>
    rw [List.cons_append, Written.holdsMark, Bool.or_eq_false_iff] at h
    exact ih h.2

namespace Scalar

variable {w u r : List Char} {index line column fuel m : Nat}

/-- What ends a plain word: a blank or a break, or a colon before one of them. -/
def stopsPlain : List Char → Bool
  | [] => true
  | c :: rest => c = ' ' || c = '\n' || (c = ':' && endsWord rest.head?)

theorem plainWord_append (hw : ∀ c ∈ w, isTyped c = true ∧ isGap c = false)
    (hcolon : ∀ a b, w = a ++ ':' :: b → endsWord b.head? = false) (hu : stopsPlain u = true) :
    plainWord false (w ++ u) = w := by
  induction w with
  | nil =>
    cases u with
    | nil => rfl
    | cons c u =>
      have hends : endsPlain false (c :: u) = true := by
        simp only [stopsPlain, Bool.or_eq_true, decide_eq_true_eq] at hu
        rcases hu with (rfl | rfl) | hu
        · rfl
        · rfl
        · simp [endsPlain, hu]
      rw [List.nil_append, plainWord, if_pos hends]
  | cons c w ih =>
    obtain ⟨htyped, hgap⟩ := hw c List.mem_cons_self
    -- A typed character ends a word only as a colon, and what follows a colon goes on with the
    -- word.
    have hgoes : endsPlain false (c :: (w ++ u)) = false := by
      have hmark : (decide (c = ':') && endsWord (w ++ u).head?) = false := by
        by_cases hc : c = ':'
        · have hnext := hcolon [] w (by rw [hc]; rfl)
          cases w with
          | nil => exact absurd hnext (by decide)
          | cons d w =>
            rw [List.cons_append, List.head?_cons]
            rw [List.head?_cons] at hnext
            rw [hnext, Bool.and_false]
        · rw [decide_eq_false hc, Bool.false_and]
      simp only [endsPlain, endsWord_of_isTyped htyped hgap, Bool.false_and, Bool.or_false, hmark]
    rw [List.cons_append, plainWord, hgoes, if_neg Bool.false_ne_true,
      ih (fun d hd => hw d (List.mem_cons_of_mem _ hd))
      (fun a b heq => hcolon (c :: a) b (by rw [heq]; rfl))]

theorem plainBreaks_margin (hr : startsSolid r = true) (hfuel : m < fuel) :
    plainBreaks fuel ⟨Written.margin m ++ r, index, line, column⟩ =
      (some [], ⟨r, index + m, line, column + m⟩) := by
  -- One blank of the margin for each step; behind it stands something solid.
  induction m generalizing fuel index column with
  | zero =>
    obtain ⟨fuel, rfl⟩ : ∃ k, fuel = k + 1 := ⟨fuel - 1, by omega⟩
    change plainBreaks (fuel + 1) ⟨r, index, line, column⟩ = _
    have hspace : Cursor.isAt ⟨r, index, line, column⟩ ' ' = false := by
      cases r with
      | nil => rfl
      | cons c r =>
        simp only [startsSolid, List.head?_cons, Option.all_some, Bool.not_eq_true',
          Bool.or_eq_false_iff, decide_eq_false_iff_not] at hr
        simp [Cursor.isAt, Cursor.peek, hr.1.1]
    rw [plainBreaks, hspace, if_neg Bool.false_ne_true, lineBreak_of_startsSolid hr]
    rfl
  | succ m ih =>
    obtain ⟨fuel, rfl⟩ : ∃ k, fuel = k + 1 := ⟨fuel - 1, by omega⟩
    change plainBreaks (fuel + 1) ⟨' ' :: (Written.margin m ++ r), index, line, column⟩ = _
    have hspace :
        Cursor.isAt ⟨' ' :: (Written.margin m ++ r), index, line, column⟩ ' ' = true := rfl
    rw [plainBreaks, if_pos hspace, Cursor.next_of_isInline (by decide), ih (by omega),
      show index + 1 + m = index + (m + 1) by omega,
      show column + 1 + m = column + (m + 1) by omega]

/-- After a word, a line break and the margin of the next line are passed over. -/
theorem plainSpaces_feed (hr : startsSolid r = true) :
    ∃ spaces, plainSpaces ⟨'\n' :: (Written.margin m ++ r), index, line, column⟩ =
      (spaces, true, ⟨r, index + 1 + m, line + 1, m⟩) := by
  have hspan : Cursor.span (· = ' ') ⟨'\n' :: (Written.margin m ++ r), index, line, column⟩ =
      ([], ⟨'\n' :: (Written.margin m ++ r), index, line, column⟩) := Cursor.span_nil rfl
  have hbreaks :
      plainBreaks ((Written.margin m ++ r).length + 1)
      ⟨Written.margin m ++ r, index + 1, line + 1, 0⟩ =
      (some [], ⟨r, index + 1 + m, line + 1, 0 + m⟩) := by
    refine plainBreaks_margin hr ?_
    rw [List.length_append, Written.margin, List.length_replicate]
    omega
  have hbroken : ['\n'].isEmpty = false := rfl
  unfold plainSpaces
  rw [hspan]
  dsimp only
  rw [Cursor.lineBreak_feed]
  dsimp only
  rw [hbroken, if_neg Bool.false_ne_true, hbreaks, Nat.zero_add]
  split
  · next hseparator =>
    -- A line that separates documents has no margin.
    cases m with
    | zero => exact ⟨[], rfl⟩
    | succ m =>
      have hmargin :
          Cursor.atSeparator ⟨' ' :: (Written.margin m ++ r), index + 1, line + 1, 0⟩ = false :=
        atSeparator_of_isGap rfl
      exact absurd (hmargin.symm.trans hseparator) Bool.false_ne_true
  · exact ⟨_, rfl⟩

theorem plainSpaces_colon :
    plainSpaces ⟨':' :: u, index, line, column⟩ = ([], false, ⟨':' :: u, index, line, column⟩) := by
  have hspan :
      Cursor.span (· = ' ') ⟨':' :: u, index, line, column⟩ =
        ([], ⟨':' :: u, index, line, column⟩) :=
    Cursor.span_nil rfl
  unfold plainSpaces
  rw [hspan]
  rfl

end Scalar

/-- A text of one word, which is written as it is. -/
structure IsPlainWord (s : String) : Prop where
  style : Written.style s = .plain
  typed : ∀ c ∈ s.toList, isTyped c = true
  unspaced : ' ' ∉ s.toList

instance (s : String) : Decidable (IsPlainWord s) :=
  decidable_of_iff (Written.style s = .plain ∧ s.toList.all isTyped = true ∧ ' ' ∉ s.toList)
    ⟨fun ⟨hstyle, htyped, hunspaced⟩ => ⟨hstyle, List.all_eq_true.mp htyped, hunspaced⟩,
      fun h => ⟨h.style, List.all_eq_true.mpr h.typed, h.unspaced⟩⟩

namespace IsPlainWord

variable {s : String} {u v : List Char} {index line column indent : Nat}

theorem traits (h : IsPlainWord s) :
    (Written.traits s.toList).allowPlain = true ∧ Tag.ofPlain s = .text := by
  have hstyle := h.style
  unfold Written.style at hstyle
  dsimp only at hstyle
  split at hstyle
  · next hplain => simpa using hplain
  · split at hstyle <;> exact nomatch hstyle

theorem notEmpty (h : IsPlainWord s) : s.toList ≠ [] := by
  have hempty : (Written.traits s.toList).isEmpty = false := by
    have := h.traits.1
    simp only [Written.Traits.allowPlain, Bool.not_eq_true', Bool.or_eq_false_iff] at this
    exact this.1.1.1.1.1.1
  simpa [Written.traits] using hempty

/-- No mark stands in the word where it would be read as one. -/
theorem noMarks (h : IsPlainWord s) {c : Char} {w : List Char} (hs : s.toList = c :: w) :
    Written.startsWithMark (c :: w) = false ∧ Written.holdsMark c w = false ∧
      (c :: w).take 3 ≠ ['-', '-', '-'] ∧ (c :: w).take 3 ≠ ['.', '.', '.'] := by
  have hmarks : (Written.traits s.toList).marks = false := by
    have := h.traits.1
    simp only [Written.Traits.allowPlain, Bool.not_eq_true', Bool.or_eq_false_iff] at this
    exact this.1.1.1.1.1.2
  rw [hs] at hmarks
  simp only [Written.traits, Bool.or_eq_false_iff, decide_eq_false_iff_not] at hmarks
  exact ⟨hmarks.1.1.1, hmarks.2, hmarks.1.1.2, hmarks.1.2⟩

theorem word (h : IsPlainWord s) : ∀ c ∈ s.toList, isTyped c = true ∧ isGap c = false := by
  intro c hc
  refine ⟨h.typed c hc, ?_⟩
  have hspace : c ≠ ' ' := by
    rintro rfl
    exact h.unspaced hc
  have hfeed : c ≠ '\n' := by
    rintro rfl
    have hbreaks : (Written.traits s.toList).breaks = false := by
      have := h.traits.1
      simp only [Written.Traits.allowPlain, Bool.not_eq_true', Bool.or_eq_false_iff] at this
      exact this.1.1.1.2
    exact absurd (List.any_eq_false.mp hbreaks '\n' hc) (by decide)
  simp [isGap, hspace, hfeed]

/-- A word is written as it is. -/
theorem scalar_eq (h : IsPlainWord s) (indent column : Nat) :
    Written.scalar indent column s = s.toList := by
  have hbody :
      ∀ w : List Char, ' ' ∉ w → ∀ before column, Written.plainBody indent before column w = w := by
    intro w
    induction w with
    | nil => intros; rfl
    | cons c w ih =>
      intro hw before column
      rw [List.mem_cons, not_or] at hw
      have hspace : c ≠ ' ' := fun heq => hw.1 heq.symm
      rw [Written.plainBody, decide_eq_false hspace]
      exact congrArg (c :: ·) (ih hw.2 _ _)
  unfold Written.scalar
  rw [h.style]
  exact hbody _ h.unspaced _ _

theorem plainWord_append (h : IsPlainWord s) (hu : Scalar.stopsPlain u = true) :
    Scalar.plainWord false (s.toList ++ u) = s.toList := by
  refine Scalar.plainWord_append h.word ?_ hu
  intro a b hs
  cases a with
  | nil =>
    have hstart := (h.noMarks hs).1
    rw [Written.startsWithMark, Bool.or_eq_false_iff] at hstart
    simpa using hstart.2
  | cons c a => exact Written.colon_of_holdsMark (h.noMarks hs).2.1

/-- Reading a word takes one step: up to the blanks and breaks after it. -/
theorem plain_eq (h : IsPlainWord s) (hu : Scalar.stopsPlain u = true) {outer : Int}
    {spaces : List Char} {broke : Bool} {place : Cursor}
    (hspaces : Scalar.plainSpaces ⟨u, index + s.toList.length, line, column + s.toList.length⟩ =
      (spaces, broke, place))
    (hends : spaces = [] ∨ (place.column : Int) ≤ outer) :
    Scalar.plain false outer ⟨s.toList ++ u, index, line, column⟩ = ⟨s.toList, broke, place⟩ := by
  obtain ⟨c, w, hs⟩ := List.exists_cons_of_ne_nil h.notEmpty
  have hcomment : Cursor.isAt ⟨s.toList ++ u, index, line, column⟩ '#' = false := by
    have hstart := (h.noMarks hs).1
    rw [Written.startsWithMark, Bool.or_eq_false_iff] at hstart
    have hc : c ≠ '#' := by
      rintro rfl
      exact absurd hstart.1 (by decide)
    rw [hs]
    simp [Cursor.isAt, Cursor.peek, hc]
  have hword := h.plainWord_append hu
  have hnonempty : s.toList.isEmpty = false := by
    rw [hs]
    rfl
  have hinline : ∀ c ∈ s.toList, isInline c = true := by
    intro c hc
    refine isInline_of_isTyped (h.word c hc).1 ?_
    rintro rfl
    exact nomatch (h.word _ hc).2
  unfold Scalar.plain
  rw [Scalar.plainRest, hcomment, if_neg Bool.false_ne_true]
  dsimp only
  rw [hword, hnonempty, if_neg Bool.false_ne_true, Cursor.advance_of_isInline hinline, hspaces]
  dsimp only
  -- After the word the scalar is over: there is nothing but the blanks, or the next word stands too
  -- far to the left.
  have hdone :
      (spaces.isEmpty || place.isAt '#' || (!false && decide ((place.column : Int) < outer + 1))) =
        true := by
    rcases hends with rfl | hends
    · rfl
    · have : (place.column : Int) < outer + 1 := by omega
      simp [this]
  rw [if_pos hdone, List.nil_append]

/-- **A word at the end of a line** is read together with the margin of the next line, where this is
no deeper than the collection around the word. -/
theorem plain_feed (h : IsPlainWord s) {r : List Char} {m : Nat} (hr : Scalar.startsSolid r = true)
    {outer : Int} (hm : (m : Int) ≤ outer) :
    Scalar.plain false outer ⟨s.toList ++ '\n' :: (Written.margin m ++ r), index, line, column⟩ =
      ⟨s.toList, true, ⟨r, index + s.toList.length + 1 + m, line + 1, m⟩⟩ := by
  obtain ⟨spaces, hspaces⟩ : ∃ spaces, Scalar.plainSpaces
      ⟨'\n' :: (Written.margin m ++ r), index + s.toList.length, line, column + s.toList.length⟩ =
        (spaces, true, ⟨r, index + s.toList.length + 1 + m, line + 1, m⟩) :=
          Scalar.plainSpaces_feed hr
  exact h.plain_eq rfl hspaces (.inr hm)

/-- **A word before a colon** is read up to the colon. -/
theorem plain_colon (h : IsPlainWord s) {outer : Int} (hu : endsWord u.head? = true) :
    Scalar.plain false outer ⟨s.toList ++ ':' :: u, index, line, column⟩ =
      ⟨s.toList, false, ⟨':' :: u, index + s.toList.length, line, column + s.toList.length⟩⟩ :=
  h.plain_eq (by simp [Scalar.stopsPlain, hu]) Scalar.plainSpaces_colon (.inl rfl)

end IsPlainWord

end PipelineRuns.Yaml
