import PipelineRuns.Yaml.Read
import PipelineRuns.Yaml.Write

/-!
# Quoted scalars

A text without spaces at the ends of its lines is written between single quotes in three ways at
once: its quotes are doubled, a single space beyond the width of a line becomes a line break, and a
run of line feeds is written with one more. The reader turns all of this back. It goes by words and
the gaps between them, and so does the proof: the text is cut into its first word, the run of spaces
or line feeds after it, and what is left, which starts with a word again
(`Scalar.gives_quotedRest`). That no gap of the other kind follows is the condition on the ends of
lines.

A word is read character by character (`Scalar.quotedWord_doubled`). Of a gap it counts what is
between the line breaks (`Scalar.gives_quotedSpaces`, `Scalar.gives_quotedSpaces_feed`). The column
in which the writer stands decides where it breaks a line, and is of no concern to the reader, so
all statements hold of any column.

Main statement: `IsQuoted.gives_quoted`.
-/

namespace PipelineRuns.Yaml

/-! ### Typed characters -/

/-- The characters of typed text: the printable ones of ASCII, and line feeds. -/
def isTyped (c : Char) : Bool := c = '\n' || (0x20 ≤ c.toNat && c.toNat ≤ 0x7e)

/-- A character that takes one column and ends no line. -/
def isInline (c : Char) : Bool := !isBreak c && c ≠ '\ufeff'

/-- A space or a line feed. -/
def isGap (c : Char) : Bool := c = ' ' || c = '\n'

theorem ne_of_isTyped {c d : Char} (h : isTyped c = true) (hd : isTyped d = false) : c ≠ d := by
  rintro rfl
  rw [h] at hd
  exact nomatch hd

theorem isBreak_of_isTyped {c : Char} (h : isTyped c = true) : isBreak c = decide (c = '\n') := by
  have hr : c ≠ '\r' := ne_of_isTyped h (by decide)
  have hn : c ≠ '\u0085' := ne_of_isTyped h (by decide)
  have hl : c ≠ '\u2028' := ne_of_isTyped h (by decide)
  have hp : c ≠ '\u2029' := ne_of_isTyped h (by decide)
  simp [isBreak, hr, hn, hl, hp]

theorem isWrittenBreak_of_isTyped {c : Char} (h : isTyped c = true) :
    Written.isWrittenBreak c = decide (c = '\n') := by
  have hn : c ≠ '\u0085' := ne_of_isTyped h (by decide)
  have hl : c ≠ '\u2028' := ne_of_isTyped h (by decide)
  have hp : c ≠ '\u2029' := ne_of_isTyped h (by decide)
  simp [Written.isWrittenBreak, hn, hl, hp]

theorem isInline_of_isTyped {c : Char} (h : isTyped c = true) (hc : c ≠ '\n') :
    isInline c = true := by
  have hm : c ≠ '\ufeff' := ne_of_isTyped h (by decide)
  simp [isInline, isBreak_of_isTyped h, hc, hm]

theorem isReadable_of_isTyped {c : Char} (h : isTyped c = true) : isReadable c = true := by
  unfold isTyped at h
  rw [Bool.or_eq_true] at h
  rcases h with h | h
  · rw [of_decide_eq_true h]
    decide
  · simp only [Bool.and_eq_true, decide_eq_true_eq] at h
    simp [isReadable, h.1, h.2]

/-! ### Moving over characters of a line -/

namespace Cursor

variable {u v : List Char} {ch : Char} {index line column n : Nat} {p : Char → Bool}

theorem next_of_isInline (h : isInline ch = true) :
    next ⟨ch :: v, index, line, column⟩ = ⟨v, index + 1, line, column + 1⟩ := by
  unfold isInline at h
  simp only [Bool.and_eq_true, Bool.not_eq_true', decide_eq_true_eq] at h
  unfold next
  simp [h.1, h.2]

/-- Moving over a part of a line. -/
theorem advance_of_isInline (h : ∀ c ∈ u, isInline c = true) :
    advance u.length ⟨u ++ v, index, line, column⟩ =
      ⟨v, index + u.length, line, column + u.length⟩ := by
  induction u generalizing index column with
  | nil => rfl
  | cons ch u ih =>
    rw [List.length_cons, List.cons_append, advance, next_of_isInline (h ch List.mem_cons_self),
      ih (fun c hc => h c (List.mem_cons_of_mem _ hc))]
    congr 1 <;> omega

/-- A span is the part of a line that is of the class. -/
theorem span_of_isInline (hp : ∀ c ∈ u, p c = true) (h : ∀ c ∈ u, isInline c = true)
    (hv : v.head?.all (fun c => !p c) = true) :
    span p ⟨u ++ v, index, line, column⟩ = (u, ⟨v, index + u.length, line, column + u.length⟩) := by
  have htaken : (u ++ v).takeWhile p = u := by
    rw [List.takeWhile_append_of_pos hp]
    cases v with
    | nil => simp
    | cons c v => simp_all
  unfold span
  simp only [htaken, advance_of_isInline h]

theorem span_nil (hv : v.head?.all (fun c => !p c) = true) :
    span p ⟨v, index, line, column⟩ = ([], ⟨v, index, line, column⟩) :=
  span_of_isInline (u := []) (fun _ h => nomatch h) (fun _ h => nomatch h) hv

theorem lineBreak_feed :
    lineBreak ⟨'\n' :: v, index, line, column⟩ = (['\n'], ⟨v, index + 1, line + 1, 0⟩) := rfl

theorem lineBreak_of_not_isBreak (hv : v.head?.all (fun c => !isBreak c) = true) :
    lineBreak ⟨v, index, line, column⟩ = ([], ⟨v, index, line, column⟩) := by
  cases v with
  | nil => rfl
  | cons c v =>
    have hc : isBreak c = false := by simpa using hv
    have hl : c ≠ '\u2028' := by
      rintro rfl
      exact nomatch hc
    have hp : c ≠ '\u2029' := by
      rintro rfl
      exact nomatch hc
    have hr : c ≠ '\r' := by
      rintro rfl
      exact nomatch hc
    unfold lineBreak
    split
    · next heq => exact absurd (List.cons.inj heq).1 hr
    · next heq =>
      obtain ⟨rfl, rfl⟩ := List.cons.inj heq
      simp [hl, hp, hc]
    · rfl

@[simp] theorem rest_next (c : Cursor) : c.next.rest = c.rest.tail := by
  unfold next
  split
  · next h => rw [h, List.tail_nil]
  · next h =>
    rw [h, List.tail_cons]
    split
    · rfl
    · split <;> rfl

theorem span_cons (hch : p ch = true) :
    span p ⟨ch :: v, index, line, column⟩ =
      (ch :: (span p (next ⟨ch :: v, index, line, column⟩)).1,
        (span p (next ⟨ch :: v, index, line, column⟩)).2) := by
  unfold span
  rw [rest_next]
  simp only [List.takeWhile_cons_of_pos hch, List.tail_cons, List.length_cons, advance]

end Cursor

/-! ### Texts between single quotes -/

/-- A word with its quotes doubled. -/
def doubled (w : List Char) : List Char :=
  w.flatMap (fun c => if c = '\'' then ['\'', '\''] else [c])

theorem length_le_doubled (w : List Char) : w.length ≤ (doubled w).length := by
  induction w with
  | nil => exact Nat.le_refl _
  | cons c w ih =>
    have hcons : doubled (c :: w) = (if c = '\'' then ['\'', '\''] else [c]) ++ doubled w := rfl
    have hhead : 1 ≤ (if c = '\'' then ['\'', '\''] else [c]).length := by split <;> simp
    rw [hcons, List.length_append, List.length_cons]
    omega

/-- What stands after a word of a text between single quotes: a gap, or the closing quote. -/
inductive StopsWord : List Char → Prop where
  | gap {c : Char} {v : List Char} (h : isGap c = true) : StopsWord (c :: v)
  | quote {v : List Char} (h : v.head? ≠ some '\'') : StopsWord ('\'' :: v)

namespace Written

variable {indent column n : Nat} {before : Option Char} {w t : List Char}

/-- A word is written as it is, its quotes doubled. -/
theorem singleBody_word (hw : ∀ c ∈ w, isTyped c = true ∧ isGap c = false) :
    singleBody indent before column (w ++ t) =
      doubled w ++ singleBody indent (w.getLast?.or before) (column + (doubled w).length) t := by
  induction w generalizing before column with
  | nil => rfl
  | cons c w ih =>
    obtain ⟨htyped, hgap⟩ := hw c List.mem_cons_self
    have hrest : ∀ d ∈ w, isTyped d = true ∧ isGap d = false :=
      fun d hd => hw d (List.mem_cons_of_mem _ hd)
    have hlast : (c :: w).getLast?.or before = w.getLast?.or (some c) := by
      rw [List.getLast?_cons]
      cases w.getLast? <;> rfl
    obtain ⟨hspace, hfeed⟩ : c ≠ ' ' ∧ c ≠ '\n' := by simpa [isGap] using hgap
    rw [List.cons_append, singleBody, if_neg hspace, isWrittenBreak_of_isTyped htyped,
      decide_eq_false hfeed, hlast]
    -- A quote is written twice, so it takes two columns.
    by_cases hquote : c = '\''
    · have hdoubled : doubled (c :: w) = '\'' :: '\'' :: doubled w := by rw [hquote]; rfl
      rw [if_neg Bool.false_ne_true, if_pos hquote, ih hrest, hdoubled, List.length_cons,
        List.length_cons, show column + 2 + (doubled w).length =
          column + ((doubled w).length + 1 + 1) by omega]
      rfl
    · have hdoubled : doubled (c :: w) = c :: doubled w := by
        unfold doubled
        rw [List.flatMap_cons, if_neg hquote]
        rfl
      rw [if_neg Bool.false_ne_true, if_neg hquote, ih hrest, hdoubled, List.length_cons,
        show column + 1 + (doubled w).length = column + ((doubled w).length + 1) by omega]
      rfl

/-- Further spaces are written as they are. -/
theorem singleBody_space_spaces :
    singleBody indent (some ' ') column (List.replicate n ' ' ++ t) =
      List.replicate n ' ' ++ singleBody indent (some ' ') (column + n) t := by
  induction n generalizing column with
  | zero => rfl
  | succ n ih =>
    rw [List.replicate_succ, List.cons_append, singleBody, if_pos rfl, if_neg (by simp), ih,
      List.cons_append, Nat.add_right_comm, Nat.add_assoc]

/-- Spaces are written as they are, or a single one as the start of a line. -/
theorem exists_singleBody_spaces (indent : Nat) (before : Option Char) (column n : Nat)
    (t : List Char) :
    ∃ column' blanks, singleBody indent before column (List.replicate (n + 1) ' ' ++ t) =
        blanks ++ singleBody indent (some ' ') column' t ∧
      (blanks = List.replicate (n + 1) ' ' ∨ n = 0 ∧ blanks = '\n' :: margin indent) := by
  rw [List.replicate_succ, List.cons_append, singleBody, if_pos rfl]
  split
  · next hfold =>
    cases n with
    | zero => exact ⟨indent, '\n' :: margin indent, rfl, .inr ⟨rfl, rfl⟩⟩
    | succ n => simp [List.replicate_succ] at hfold
  · exact ⟨column + 1 + n, _, by
      rw [singleBody_space_spaces, ← List.cons_append, ← List.replicate_succ], .inl rfl⟩

theorem singleBody_feed_feeds (ht : t.head? ≠ some '\n') (htyped : ∀ c ∈ t, isTyped c = true) :
    singleBody indent (some '\n') column (List.replicate (n + 1) '\n' ++ t) =
      List.replicate (n + 1) '\n' ++ (margin indent ++ singleBody indent (some '\n') indent t) := by
  induction n generalizing column with
  | zero =>
    have hlast : (t.head?.map isWrittenBreak).getD false = false := by
      cases t with
      | nil => rfl
      | cons c t =>
        have hc : c ≠ '\n' := fun h => ht (congrArg some h)
        simpa [isWrittenBreak_of_isTyped (htyped c List.mem_cons_self)] using hc
    change singleBody indent (some '\n') column ('\n' :: t) = _
    rw [singleBody, if_neg (by decide), if_pos (by decide), hlast]
    rfl
  | succ n ih =>
    rw [List.replicate_succ, List.cons_append, singleBody, if_neg (by decide),
      if_pos (by decide), ih]
    rfl

/-- Line feeds are written with one more in front, and the next line is indented. -/
theorem singleBody_feeds (hbefore : before.all (fun c => isTyped c && !isGap c) = true)
    (ht : t.head? ≠ some '\n')
    (htyped : ∀ c ∈ t, isTyped c = true) :
    singleBody indent before column (List.replicate (n + 1) '\n' ++ t) =
      '\n' :: (List.replicate (n + 1) '\n' ++
        (margin indent ++ singleBody indent (some '\n') indent t)) := by
  -- The first feed is written twice, since a single one would be read as a blank.
  have hfirst : (before.map isWrittenBreak).getD false = false := by
    cases before with
    | none => rfl
    | some c =>
      obtain ⟨hc, hgap⟩ : isTyped c = true ∧ isGap c = false := by simpa using hbefore
      have hfeed : c ≠ '\n' := by
        rintro rfl
        exact nomatch hgap
      simp [isWrittenBreak_of_isTyped hc, hfeed]
  have hrest : singleBody indent (some '\n') column (List.replicate (n + 1) '\n' ++ t) =
      List.replicate (n + 1) '\n' ++ (margin indent ++ singleBody indent (some '\n') indent t) :=
    singleBody_feed_feeds ht htyped
  rw [List.replicate_succ, List.cons_append, singleBody, if_neg (by decide), if_pos (by decide)]
    at hrest ⊢
  rw [hfirst]
  exact congrArg ('\n' :: ·) hrest

end Written

namespace Scalar

variable {w u v : List Char} {ch quote : Char} {index line column fuel n : Nat}

/-- What stands between two parts of a word of ordinary characters, if the word goes on. -/
def piece? (c : Cursor) : Option (List Char × Cursor) :=
  match c.peek with
  | some '\'' => if c.peekAt 1 = some '\'' then some (['\''], Cursor.advance 2 c) else none
  | some '"' => some (['"'], c.next)
  | some '\\' => some (['\\'], c.next)
  | _ => none

/-- The word after a part of it and what follows this part. -/
def wordAfter (fuel : Nat) (taken : List Char × Cursor) : Option (List Char × Cursor) → Read
  | none => .ok taken
  | some (piece, c) => (fun more => (taken.1 ++ piece ++ more.1, more.2)) <$> quotedWord '\'' fuel c

theorem quotedWord_succ (c : Cursor) : quotedWord '\'' (fuel + 1) c =
    wordAfter fuel (c.span isOrdinary) (piece? (c.span isOrdinary).2) := by
  rw [quotedWord]
  unfold piece?
  dsimp only
  -- The cases are those of what can stand behind the word.
  split
  · next hfirst =>
    rw [hfirst, if_pos rfl]
    split <;> rfl
  · next hfirst =>
    rw [hfirst]
    rfl
  · next hfirst =>
    rw [hfirst]
    rfl
  · next hquote hdouble hback =>
    split
    · next hfirst => exact (hquote hfirst).elim
    · next hfirst => exact (hdouble hfirst).elim
    · next hfirst => exact (hback hfirst).elim
    · rfl

/-- A character in front of a text that was read. -/
def prepend (ch : Char) (r : List Char × Cursor) : List Char × Cursor := (ch :: r.1, r.2)

theorem quotedWord_ordinary (h : isOrdinary ch = true) (hin : isInline ch = true) :
    quotedWord '\'' (fuel + 1) ⟨ch :: v, index, line, column⟩ =
      prepend ch <$> quotedWord '\'' (fuel + 1) ⟨v, index + 1, line, column + 1⟩ := by
  rw [quotedWord_succ, quotedWord_succ, Cursor.span_cons h, Cursor.next_of_isInline hin]
  dsimp only
  cases piece? (Cursor.span isOrdinary ⟨v, index + 1, line, column + 1⟩).2 with
  | none => rfl
  | some p =>
    unfold wordAfter
    rw [← comp_map]
    rfl

/-- Where no ordinary character stands, a word consists of what follows. -/
theorem quotedWord_of_not_ordinary (hv : v.head?.all (fun c => !isOrdinary c) = true) :
    quotedWord '\'' (fuel + 1) ⟨v, index, line, column⟩ =
      wordAfter fuel ([], ⟨v, index, line, column⟩) (piece? ⟨v, index, line, column⟩) := by
  rw [quotedWord_succ, Cursor.span_nil hv]

/-- A doubled quote is read as one. -/
theorem quotedWord_quotes : quotedWord '\'' (fuel + 1) ⟨'\'' :: '\'' :: v, index, line, column⟩ =
    prepend '\'' <$> quotedWord '\'' fuel ⟨v, index + 2, line, column + 2⟩ := by
  rw [quotedWord_of_not_ordinary rfl]
  rfl

/-- A quote or a backslash that means nothing between single quotes is read as it is. -/
theorem quotedWord_mark (h : ch = '"' ∨ ch = '\\') :
    quotedWord '\'' (fuel + 1) ⟨ch :: v, index, line, column⟩ =
    prepend ch <$> quotedWord '\'' fuel ⟨v, index + 1, line, column + 1⟩ := by
  rcases h with rfl | rfl
  · rw [quotedWord_of_not_ordinary rfl]
    rfl
  · rw [quotedWord_of_not_ordinary rfl]
    rfl

theorem quotedWord_stop (hu : StopsWord u) :
    quotedWord '\'' (fuel + 1) ⟨u, index, line, column⟩ = .ok ([], ⟨u, index, line, column⟩) := by
  cases hu with
  | gap h =>
    unfold isGap at h
    rw [Bool.or_eq_true, decide_eq_true_eq, decide_eq_true_eq] at h
    rcases h with rfl | rfl <;> rw [quotedWord_of_not_ordinary rfl] <;> rfl
  | @quote v h =>
    have hpiece : piece? ⟨'\'' :: v, index, line, column⟩ = none := by
      rw [List.head?_eq_getElem?] at h
      exact if_neg h
    rw [quotedWord_of_not_ordinary rfl, hpiece]
    rfl

/-- **A word between single quotes** is read as it was before its quotes were doubled. -/
theorem quotedWord_doubled (hw : ∀ c ∈ w, isTyped c = true ∧ isGap c = false) (hu : StopsWord u)
    (hfuel : w.length < fuel) :
    quotedWord '\'' fuel ⟨doubled w ++ u, index, line, column⟩ =
      .ok (w, ⟨u, index + (doubled w).length, line, column + (doubled w).length⟩) := by
  -- The reader takes runs of ordinary characters at once. By `quotedWord_ordinary` it may as well
  -- take one at a time.
  induction w generalizing index column fuel with
  | nil =>
    obtain ⟨fuel, rfl⟩ : ∃ n, fuel = n + 1 := ⟨fuel - 1, by simp at hfuel; omega⟩
    exact quotedWord_stop hu
  | cons c w ih =>
    obtain ⟨fuel, rfl⟩ : ∃ n, fuel = n + 1 := ⟨fuel - 1, by simp at hfuel; omega⟩
    rw [List.length_cons] at hfuel
    obtain ⟨htyped, hgap⟩ := hw c List.mem_cons_self
    have hrest : ∀ d ∈ w, isTyped d = true ∧ isGap d = false :=
      fun d hd => hw d (List.mem_cons_of_mem _ hd)
    obtain ⟨hspace, hfeed⟩ : c ≠ ' ' ∧ c ≠ '\n' := by simpa [isGap] using hgap
    have hin : isInline c = true := isInline_of_isTyped htyped hfeed
    by_cases hquote : c = '\''
    · subst hquote
      change quotedWord '\'' (fuel + 1) ⟨'\'' :: '\'' :: (doubled w ++ u), index, line, column⟩ =
        .ok ('\'' :: w,
          ⟨u, index + ((doubled w).length + 1 + 1), line, column + ((doubled w).length + 1 + 1)⟩)
      rw [quotedWord_quotes, ih hrest (by omega),
        show index + 2 + (doubled w).length = index + ((doubled w).length + 1 + 1) by omega,
        show column + 2 + (doubled w).length = column + ((doubled w).length + 1 + 1) by omega]
      rfl
    · have hdoubled : doubled (c :: w) = c :: doubled w := by
        unfold doubled
        rw [List.flatMap_cons, if_neg hquote]
        rfl
      rw [hdoubled, List.cons_append, List.length_cons,
        show index + ((doubled w).length + 1) = index + 1 + (doubled w).length by omega,
        show column + ((doubled w).length + 1) = column + 1 + (doubled w).length by omega]
      by_cases hmark : c = '"' ∨ c = '\\'
      · rw [quotedWord_mark hmark, ih hrest (by omega)]
        rfl
      · rw [not_or] at hmark
        have htab : c ≠ '\t' := ne_of_isTyped htyped (by decide)
        have hordinary : isOrdinary c = true := by
          simp [isOrdinary, hquote, hmark.1, hmark.2, hspace, htab,
            isBreak_of_isTyped htyped, hfeed]
        rw [quotedWord_ordinary hordinary hin, ih hrest (by omega)]
        rfl

/-- A word has no more characters than the text that holds it, so these are fuel enough. -/
theorem quotedWord_doubled_length (hw : ∀ c ∈ w, isTyped c = true ∧ isGap c = false)
    (hu : StopsWord u) :
    quotedWord '\'' ((doubled w ++ u).length + 1) ⟨doubled w ++ u, index, line, column⟩ =
      .ok (w, ⟨u, index + (doubled w).length, line, column + (doubled w).length⟩) := by
  refine quotedWord_doubled hw hu ?_
  have := length_le_doubled w
  rw [List.length_append]
  omega

/-- A text was read up to some place, on this line or a later one. -/
def Gives (r : Read) (text rest : List Char) (line : Nat) : Prop :=
  ∃ c : Cursor, r = .ok (text, c) ∧ c.rest = rest ∧ line ≤ c.line

/-- A text that starts with neither a blank nor a break. -/
def startsSolid (u : List Char) : Bool :=
  u.head?.all (fun c => !(c = ' ' || c = '\t' || isBreak c))

theorem atSeparator_of_isGap (h : isGap ch = true) :
    Cursor.atSeparator ⟨ch :: v, index, line, column⟩ = false := by
  have hdash : ch ≠ '-' := by
    rintro rfl
    exact nomatch h
  have hdot : ch ≠ '.' := by
    rintro rfl
    exact nomatch h
  simp [Cursor.atSeparator, Cursor.atMark, hdash, hdot]

theorem isInline_of_mem_spaces {c : Char} (h : c ∈ List.replicate n ' ') : isInline c = true := by
  rw [List.eq_of_mem_replicate h]
  rfl

theorem span_blanks (hu : startsSolid u = true) :
    Cursor.span (fun c => c = ' ' || c = '\t') ⟨List.replicate n ' ' ++ u, index, line, column⟩ =
      (List.replicate n ' ', ⟨u, index + n, line, column + n⟩) := by
  have hstop : u.head?.all (fun c => !(c = ' ' || c = '\t')) = true := by
    unfold startsSolid at hu
    cases u with
    | nil => rfl
    | cons c u =>
      simp only [List.head?_cons, Option.all_some, Bool.not_eq_true', Bool.or_eq_false_iff] at hu ⊢
      exact hu.1
  have hblank : ∀ c ∈ List.replicate n ' ', (decide (c = ' ') || decide (c = '\t')) = true := by
    intro c hc
    rw [List.eq_of_mem_replicate hc]
    rfl
  rw [Cursor.span_of_isInline hblank (fun _ => isInline_of_mem_spaces) hstop, List.length_replicate]

theorem lineBreak_of_startsSolid (hu : startsSolid u = true) :
    Cursor.lineBreak ⟨u, index, line, column⟩ = ([], ⟨u, index, line, column⟩) := by
  refine Cursor.lineBreak_of_not_isBreak ?_
  unfold startsSolid at hu
  cases u with
  | nil => rfl
  | cons c u =>
    simp only [List.head?_cons, Option.all_some, Bool.not_eq_true', Bool.or_eq_false_iff] at hu ⊢
    exact hu.2

/-- Blank lines are read up to the margin of the line with text. -/
theorem gives_quotedBreaks {indent : Nat} (hu : startsSolid u = true) (hfuel : n < fuel) :
    Gives (quotedBreaks fuel ⟨List.replicate n '\n' ++ (Written.margin (indent + 1) ++ u), index,
      line, column⟩)
      (List.replicate n '\n') u line := by
  -- Fuel counts the lines, of which the last one is not blank.
  induction n generalizing fuel index line column with
  | zero =>
    obtain ⟨fuel, rfl⟩ : ∃ m, fuel = m + 1 := ⟨fuel - 1, by omega⟩
    have hstart :
        Cursor.atSeparator ⟨Written.margin (indent + 1) ++ u, index, line, column⟩ = false :=
      atSeparator_of_isGap rfl
    refine ⟨⟨u, index + (indent + 1), line, column + (indent + 1)⟩, ?_, rfl, Nat.le_refl _⟩
    rw [List.replicate_zero, List.nil_append, quotedBreaks, hstart, if_neg Bool.false_ne_true]
    unfold Cursor.skip Written.margin
    rw [span_blanks hu]
    dsimp only
    rw [lineBreak_of_startsSolid hu]
    rfl
  | succ n ih =>
    obtain ⟨fuel, rfl⟩ : ∃ m, fuel = m + 1 := ⟨fuel - 1, by omega⟩
    obtain ⟨c, hread, hrest, hline⟩ : Gives
        (quotedBreaks fuel ⟨List.replicate n '\n' ++ (Written.margin (indent + 1) ++ u), index + 1,
          line + 1, 0⟩)
        (List.replicate n '\n') u (line + 1) := ih (by omega)
    refine ⟨c, ?_, hrest, by omega⟩
    rw [List.replicate_succ, List.cons_append, quotedBreaks, atSeparator_of_isGap rfl,
      if_neg Bool.false_ne_true]
    unfold Cursor.skip
    rw [Cursor.span_nil rfl]
    dsimp only
    rw [Cursor.lineBreak_feed]
    dsimp only
    rw [hread]
    rfl

/-- Spaces inside a line are read as they are. -/
theorem gives_quotedSpaces (hu : startsSolid u = true) (hne : u ≠ []) :
    Gives (quotedSpaces ⟨List.replicate n ' ' ++ u, index, line, column⟩)
      (List.replicate n ' ') u line := by
  refine ⟨⟨u, index + n, line, column + n⟩, ?_, rfl, Nat.le_refl _⟩
  obtain ⟨c, u, rfl⟩ := List.exists_cons_of_ne_nil hne
  unfold quotedSpaces
  rw [span_blanks hu]
  change (if (Cursor.lineBreak ⟨c :: u, index + n, line, column + n⟩).1.isEmpty = true
    then _ else _) = _
  rw [lineBreak_of_startsSolid hu]
  rfl

/-- The start of a line is read as a space, and after blank lines as one line feed for each of
these. -/
theorem gives_quotedSpaces_feed (indent n : Nat) (hu : startsSolid u = true) :
    Gives (quotedSpaces ⟨'\n' :: (List.replicate n '\n' ++ (Written.margin (indent + 1) ++ u)),
      index, line, column⟩)
      (folded ['\n'] (List.replicate n '\n')) u line := by
  let rest := List.replicate n '\n' ++ (Written.margin (indent + 1) ++ u)
  have hfuel : n < rest.length + 1 := by
    have hlength : rest.length = n + (Written.margin (indent + 1) ++ u).length := by
      rw [List.length_append, List.length_replicate]
    omega
  obtain ⟨c, hread, hrest, hline⟩ : Gives
    (quotedBreaks (rest.length + 1) ⟨rest, index + 1, line + 1, 0⟩)
      (List.replicate n '\n') u (line + 1) := gives_quotedBreaks hu hfuel
  refine ⟨c, ?_, hrest, by omega⟩
  unfold quotedSpaces
  rw [Cursor.span_nil rfl]
  exact congrArg (· >>= fun more => Except.ok (folded ['\n'] more.1, more.2)) hread

end Scalar

/-! ### Gaps of a text -/

namespace Written

variable {p q : Char → Bool} {s t : List Char} {c d : Char}

theorem holdsPair_of_append (h : holdsPair p q (s ++ t) = false) : holdsPair p q t = false := by
  induction s with
  | nil => exact h
  | cons c s ih =>
    refine ih ?_
    cases hrest : s ++ t with
    | nil => rfl
    | cons d rest =>
      rw [List.cons_append, hrest, holdsPair, Bool.or_eq_false_iff] at h
      exact h.2

theorem not_of_holdsPair_eq_false (h : holdsPair p q (s ++ c :: d :: t) = false) (hc : p c = true) :
    q d = false := by
  have hpair := holdsPair_of_append h
  rw [holdsPair, Bool.or_eq_false_iff, hc, Bool.true_and] at hpair
  exact hpair.1

end Written

/-- The first word of a text and what follows it. -/
theorem exists_word (s : List Char) :
    ∃ w t, s = w ++ t ∧ (∀ c ∈ w, isGap c = false) ∧ t.head?.all isGap = true := by
  induction s with
  | nil => exact ⟨[], [], rfl, (fun _ h => nomatch h), rfl⟩
  | cons c s ih =>
    cases hc : isGap c with
    | true => exact ⟨[], c :: s, rfl, (fun _ h => nomatch h), hc⟩
    | false =>
      obtain ⟨w, t, rfl, hw, ht⟩ := ih
      refine ⟨c :: w, t, rfl, ?_, ht⟩
      intro d hd
      rcases List.mem_cons.mp hd with rfl | hd
      · exact hc
      · exact hw d hd

/-- A character and those after it that are the same. -/
theorem exists_run (c : Char) (s : List Char) :
    ∃ n t, c :: s = List.replicate (n + 1) c ++ t ∧ t.head? ≠ some c := by
  induction s with
  | nil => exact ⟨0, [], rfl, by simp⟩
  | cons d s ih =>
    by_cases h : d = c
    · obtain ⟨n, t, heq, hne⟩ := ih
      refine ⟨n + 1, t, ?_, hne⟩
      rw [h, heq]
      rfl
    · exact ⟨0, d :: s, rfl, by simpa using h⟩

/-- A run of gaps of one kind is not followed by a gap of the other kind, where a line has no space
at an end. -/
theorem not_isGap_after_run {w t : List Char} {g : Char} {n : Nat}
    (htyped : ∀ c ∈ t, isTyped c = true) (hg : isGap g = true) (hne : t.head? ≠ some g)
    (hspace : Written.holdsPair Written.isWrittenBreak (· = ' ')
      (w ++ (List.replicate (n + 1) g ++ t)) = false)
    (hbreak : Written.holdsPair (· = ' ') Written.isWrittenBreak
      (w ++ (List.replicate (n + 1) g ++ t)) = false) : t.head?.all (fun c => !isGap c) = true := by
  cases t with
  | nil => rfl
  | cons d t =>
    have hd : isTyped d = true := htyped d List.mem_cons_self
    have hdg : d ≠ g := fun h => hne (congrArg some h)
    have hpair :
        w ++ (List.replicate (n + 1) g ++ d :: t) = (w ++ List.replicate n g) ++ g :: d :: t := by
      simp [List.replicate_succ']
    rw [hpair] at hspace hbreak
    change (!isGap d) = true
    unfold isGap at hg ⊢
    rw [Bool.or_eq_true, decide_eq_true_eq, decide_eq_true_eq] at hg
    -- A run of blanks is followed by no feed, and a run of feeds by no blank, as the style was
    -- chosen.
    rcases hg with rfl | rfl
    · have hfeed := Written.not_of_holdsPair_eq_false hbreak (by decide)
      rw [isWrittenBreak_of_isTyped hd] at hfeed
      rw [hfeed, decide_eq_false hdg]
      rfl
    · have hblank := Written.not_of_holdsPair_eq_false hspace (by decide)
      rw [hblank, decide_eq_false hdg]
      rfl

/-- What stands before a gap is a character of a word, or what stood before the text. -/
theorem isWord_before_gap {w : List Char} {before : Option Char}
    (hw : ∀ c ∈ w, isTyped c = true ∧ isGap c = false)
    (h : w = [] → before.all (fun c => isTyped c && !isGap c) = true) :
    (w.getLast?.or before).all (fun c => isTyped c && !isGap c) = true := by
  cases hlast : w.getLast? with
  | some c =>
    have hc := hw c (List.mem_of_getLast? hlast)
    simp [hc.1, hc.2]
  | none => exact h (List.getLast?_eq_none_iff.mp hlast)

namespace Scalar

variable {s v : List Char} {index line column indent fuel : Nat} {before : Option Char}

/-- A text whose first character is no gap is written with no gap at its start. -/
theorem startsSolid_singleBody (htyped : ∀ c ∈ s, isTyped c = true)
    (hhead : s.head?.all (fun c => !isGap c) = true) :
    startsSolid (Written.singleBody indent before column s ++ '\'' :: v) = true := by
  cases s with
  | nil => rfl
  | cons c s =>
    have hc : isTyped c = true := htyped c List.mem_cons_self
    obtain ⟨hspace, hfeed⟩ : c ≠ ' ' ∧ c ≠ '\n' := by simpa [isGap] using hhead
    have htab : c ≠ '\t' := ne_of_isTyped hc (by decide)
    rw [Written.singleBody, if_neg hspace, isWrittenBreak_of_isTyped hc, decide_eq_false hfeed,
      if_neg Bool.false_ne_true]
    split
    · rfl
    · simp [startsSolid, hspace, htab, isBreak_of_isTyped hc, hfeed]

/-- A word and the gap after it, in front of what is read from there on. -/
theorem gives_quotedRest_of_gap {w u u' blanks t : List Char} {g : Char} {start : Cursor}
    (hw : ∀ c ∈ w, isTyped c = true ∧ isGap c = false) (hg : isGap g = true)
    (hstart : start.rest = doubled w ++ g :: u)
    (hgap : ∀ index column,
      Gives (quotedSpaces ⟨g :: u, index, start.line, column⟩) blanks u' start.line)
    (hrest : ∀ c : Cursor, c.rest = u' → Gives (quotedRest '\'' fuel c) t v c.line) :
    Gives (quotedRest '\'' (fuel + 1) start) (w ++ (blanks ++ t)) v start.line := by
  obtain ⟨rest, index, line, column⟩ := start
  dsimp only at hstart hgap ⊢
  subst hstart
  obtain ⟨c, hspaces, hplace, hline⟩ :=
    hgap (index + (doubled w).length) (column + (doubled w).length)
  obtain ⟨c', hread, hplace', hline'⟩ := hrest c hplace
  refine ⟨c', ?_, hplace', Nat.le_trans hline hline'⟩
  -- The gap is no quote, so the text goes on behind it.
  have hquote : ¬ some g = some '\'' := by
    rintro h
    rw [Option.some.inj h] at hg
    exact nomatch hg
  rw [quotedRest]
  refine (congrArg (· >>= _) (quotedWord_doubled_length hw (.gap hg))).trans ?_
  change (if some g = some '\'' then _ else quotedSpaces _ >>= _) = _
  rw [if_neg hquote, hspaces]
  change quotedRest '\'' fuel c >>= _ = _
  rw [hread]
  change Except.ok (w ++ blanks ++ t, c') = _
  rw [List.append_assoc]

/-- A word and the closing quote. -/
theorem gives_quotedRest_of_quote {w : List Char} {start : Cursor}
    (hw : ∀ c ∈ w, isTyped c = true ∧ isGap c = false) (hv : v.head? ≠ some '\'')
    (hstart : start.rest = doubled w ++ '\'' :: v) :
    Gives (quotedRest '\'' (fuel + 1) start) w v start.line := by
  obtain ⟨rest, index, line, column⟩ := start
  dsimp only at hstart
  subst hstart
  refine ⟨⟨v, index + (doubled w).length + 1, line, column + (doubled w).length + 1⟩, ?_, rfl,
    Nat.le_refl _⟩
  rw [quotedRest]
  exact congrArg (· >>= _) (quotedWord_doubled_length hw (.quote hv))

/-- A word and the spaces after it, which are written as they are or as the start of a line. -/
theorem gives_quotedRest_of_spaces {w t : List Char} {n : Nat} {start : Cursor}
    (hw : ∀ c ∈ w, isTyped c = true ∧ isGap c = false) (htyped : ∀ c ∈ t, isTyped c = true)
    (hsolid : t.head?.all (fun c => !isGap c) = true)
    (hstart : start.rest =
      doubled w ++ (Written.singleBody (indent + 1) before column
        (List.replicate (n + 1) ' ' ++ t) ++ '\'' :: v))
    (hrest : ∀ (column : Nat) (c : Cursor),
      c.rest = Written.singleBody (indent + 1) (some ' ') column t ++ '\'' :: v →
      Gives (quotedRest '\'' fuel c) t v c.line) :
    Gives (quotedRest '\'' (fuel + 1) start)
      (w ++ (List.replicate (n + 1) ' ' ++ t)) v start.line := by
  obtain ⟨column', blanks, hwritten, hblanks⟩ :=
    Written.exists_singleBody_spaces (indent + 1) before column n t
  have hstop :
      startsSolid (Written.singleBody (indent + 1) (some ' ') column' t ++ '\'' :: v) = true :=
    startsSolid_singleBody htyped hsolid
  rw [hwritten] at hstart
  -- The blanks are written as they are, or a single one is folded into a line break.
  rcases hblanks with rfl | ⟨rfl, rfl⟩
  · refine gives_quotedRest_of_gap hw rfl ?_
      (fun _ _ => gives_quotedSpaces (n := n + 1) hstop (by simp)) (hrest column')
    rw [hstart]
    simp [List.replicate_succ]
  · refine gives_quotedRest_of_gap hw rfl ?_ (fun _ _ => gives_quotedSpaces_feed indent 0 hstop)
      (hrest column')
    rw [hstart]
    simp

/-- A word and the line feeds after it. -/
theorem gives_quotedRest_of_feeds {w t : List Char} {n : Nat} {start : Cursor}
    (hw : ∀ c ∈ w, isTyped c = true ∧ isGap c = false) (htyped : ∀ c ∈ t, isTyped c = true)
    (hsolid : t.head?.all (fun c => !isGap c) = true)
    (hbefore : before.all (fun c => isTyped c && !isGap c) = true)
    (hstart : start.rest =
      doubled w ++ (Written.singleBody (indent + 1) before column
        (List.replicate (n + 1) '\n' ++ t) ++ '\'' :: v))
    (hrest : ∀ (column : Nat) (c : Cursor),
      c.rest = Written.singleBody (indent + 1) (some '\n') column t ++ '\'' :: v →
      Gives (quotedRest '\'' fuel c) t v c.line) :
    Gives (quotedRest '\'' (fuel + 1) start)
      (w ++ (List.replicate (n + 1) '\n' ++ t)) v start.line := by
  have hne : t.head? ≠ some '\n' := by
    intro h
    rw [h] at hsolid
    exact absurd hsolid (by decide)
  have hstop :
      startsSolid (Written.singleBody (indent + 1) (some '\n') (indent + 1) t ++ '\'' :: v) =
        true :=
    startsSolid_singleBody htyped hsolid
  rw [Written.singleBody_feeds hbefore hne htyped] at hstart
  refine gives_quotedRest_of_gap hw rfl ?_ (fun _ _ => gives_quotedSpaces_feed indent (n + 1) hstop)
    (hrest (indent + 1))
  rw [hstart]
  simp

/-- **A text between single quotes** is read as it is, up to the quote after it. -/
theorem gives_quotedRest (htyped : ∀ c ∈ s, isTyped c = true)
    (hspace : Written.holdsPair Written.isWrittenBreak (· = ' ') s = false)
    (hbreak : Written.holdsPair (· = ' ') Written.isWrittenBreak s = false)
    (hv : v.head? ≠ some '\'') (hstart : before.all (fun c => isTyped c && !isGap c) = true ∨
      s.head?.all (fun c => !isGap c) = true)
    (hfuel : s.length < fuel) (start : Cursor) {column : Nat}
    (hrest : start.rest = Written.singleBody (indent + 1) before column s ++ '\'' :: v) :
    Gives (quotedRest '\'' fuel start) s v start.line := by
  -- Each round of the reader takes one word and the gap after it, so the text is cut like this as
  -- well.
  induction fuel generalizing s before column start with
  | zero => exact absurd hfuel (Nat.not_lt_zero _)
  | succ fuel ih =>
    obtain ⟨w, t, rfl, hw, ht⟩ := exists_word s
    have hword : ∀ c ∈ w, isTyped c = true ∧ isGap c = false :=
      fun c hc => ⟨htyped c (List.mem_append_left _ hc), hw c hc⟩
    rw [Written.singleBody_word hword, List.append_assoc] at hrest
    cases t with
    | nil =>
      rw [List.append_nil]
      exact gives_quotedRest_of_quote hword hv hrest
    | cons g t =>
      have hg : isGap g = true := by simpa using ht
      obtain ⟨n, t', hrun, hne⟩ := exists_run g t
      rw [hrun] at htyped hspace hbreak hstart hfuel hrest ⊢
      have hparts : w ++ (List.replicate (n + 1) g ++ t') = (w ++ List.replicate (n + 1) g) ++ t' :=
        (List.append_assoc _ _ _).symm
      have htyped' : ∀ c ∈ t', isTyped c = true := fun c hc => htyped c (by simp [hc])
      have hsolid := not_isGap_after_run htyped' hg hne hspace hbreak
      have hbefore : (w.getLast?.or before).all (fun c => isTyped c && !isGap c) = true := by
        refine isWord_before_gap hword ?_
        rintro rfl
        refine hstart.resolve_right ?_
        change ¬ (!isGap g) = true
        rw [hg]
        exact Bool.false_ne_true
      have hagain (column : Nat) (start : Cursor)
          (h : start.rest = Written.singleBody (indent + 1) (some g) column t' ++ '\'' :: v) :
          Gives (quotedRest '\'' fuel start) t' v start.line :=
        ih htyped' (Written.holdsPair_of_append (by rwa [← hparts]))
          (Written.holdsPair_of_append (by rwa [← hparts])) (.inr hsolid)
          (by simp at hfuel; omega) start h
      unfold isGap at hg
      rw [Bool.or_eq_true, decide_eq_true_eq, decide_eq_true_eq] at hg
      rcases hg with rfl | rfl
      · exact gives_quotedRest_of_spaces hword htyped' hsolid hrest hagain
      · exact gives_quotedRest_of_feeds hword htyped' hsolid hbefore hrest hagain

end Scalar

theorem Written.length_le_singleBody (indent : Nat) (before : Option Char) (column : Nat)
    (s : List Char) : s.length ≤ (Written.singleBody indent before column s).length := by
  induction s generalizing before column with
  | nil => exact Nat.zero_le _
  | cons c s ih =>
    have hbreak := ih (some c) indent
    have hquote := ih (some c) (column + 2)
    have hother := ih (some c) (column + 1)
    rw [Written.singleBody]
    split
    · split
      · simp; omega
      · simp; omega
    · split
      · simp; omega
      · split
        · simp; omega
        · simp; omega

/-! ### Quoted texts -/

/-- A text that is written between single quotes. -/
structure IsQuoted (s : String) : Prop where
  style : Written.style s = .single
  typed : ∀ c ∈ s.toList, isTyped c = true

instance (s : String) : Decidable (IsQuoted s) :=
  decidable_of_iff (Written.style s = .single ∧ s.toList.all isTyped = true)
    ⟨fun ⟨hstyle, htyped⟩ => ⟨hstyle, List.all_eq_true.mp htyped⟩,
      fun h => ⟨h.style, List.all_eq_true.mpr h.typed⟩⟩

namespace IsQuoted

variable {s : String} {v : List Char} {index line column indent : Nat}

theorem traits (h : IsQuoted s) : (Written.traits s.toList).spaceAfterBreak = false ∧
    (Written.traits s.toList).breakAfterSpace = false := by
  have hstyle := h.style
  unfold Written.style at hstyle
  dsimp only at hstyle
  split at hstyle
  · exact nomatch hstyle
  · split at hstyle
    · next hsingle =>
      obtain ⟨hspace, hbreak, -⟩ := by simpa [Written.Traits.allowSingle, and_assoc] using hsingle
      exact ⟨hspace, hbreak⟩
    · exact nomatch hstyle

/-- **A text between single quotes is read as it was written.** -/
theorem gives_quoted (h : IsQuoted s) (hv : v.head? ≠ some '\'') {column' : Nat} :
    Scalar.Gives
      (Scalar.quoted '\'' ⟨Written.scalar (indent + 1) column' s ++ v, index, line, column⟩)
      s.toList v line := by
  have hwritten : Written.scalar (indent + 1) column' s ++ v =
      '\'' :: (Written.singleBody (indent + 1) none (column' + 1) s.toList ++ '\'' :: v) := by
    unfold Written.scalar
    rw [h.style]
    simp [Written.singleQuoted]
  rw [hwritten]
  unfold Scalar.quoted
  refine Scalar.gives_quotedRest h.typed h.traits.1 h.traits.2 hv (.inl rfl) ?_ _ rfl
  have := Written.length_le_singleBody (indent + 1) none (column' + 1) s.toList
  simp only [List.length_cons, List.length_append]
  omega

end IsQuoted

end PipelineRuns.Yaml
