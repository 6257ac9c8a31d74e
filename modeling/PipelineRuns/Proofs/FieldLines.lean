import PipelineRuns.Proofs.Cells

/-!
# The line that a field is shown as

A field of a run is any text or none, and it is shown as one line: a dash where there is nothing to
show, and else the first line of the trimmed field with tabs as spaces, or the beginning of that
line and three dots where it is longer than the limit. What may be shown for a field is said by
`Cell.IsLineOf`, apart from the functions that make the line: what trimming leaves
(`Text.IsTrimmed`) and what a first line is (`Text.IsFirstLine`) are told by where they stand in the
field.

Three classes of characters meet here, and the line is never empty because they are nested: a
character that ends a line is blank (`Text.isBlank_of_isBoundary`), so the first character of the
trimmed field, which is not blank, belongs to its first line; it is no tab either, so it stays; and
within the limit there is room for it besides the dots.

Main statement: `Cell.isLineOf_oneLine`.
-/

namespace PipelineRuns

namespace Text

variable {s : List Char} {c : Char}

/-! ### Three classes of characters -/

/-- What ends a line is blank. -/
theorem isBlank_of_isBoundary (h : isBoundary c = true) : isBlank c = true := by
  unfold isBoundary at h
  unfold isBlank
  simp only [Bool.or_eq_true, Bool.and_eq_true, decide_eq_true_eq, beq_iff_eq] at h ⊢
  omega

theorem isBoundary_of_not_isBlank (h : isBlank c = false) : isBoundary c = false := by
  by_contra hends
  rw [Bool.not_eq_false] at hends
  rw [isBlank_of_isBoundary hends] at h
  exact nomatch h

/-! ### The first line of a trimmed text -/

/-- What a text is without the blanks at its ends. -/
structure IsTrimmed (s kept : List Char) : Prop where
  parts : ∃ before after, s = before ++ kept ++ after ∧ (∀ c ∈ before, isBlank c = true) ∧
    ∀ c ∈ after, isBlank c = true
  first : ∀ c ∈ kept.head?, isBlank c = false
  last : ∀ c ∈ kept.getLast?, isBlank c = false

/-- What a text is up to the first character that ends a line. -/
structure IsFirstLine (s line : List Char) : Prop where
  inner : ∀ c ∈ line, isBoundary c = false
  ends : ∃ rest, s = line ++ rest ∧ ∀ c ∈ rest.head?, isBoundary c = true

theorem first_trim (s : List Char) : ∀ c ∈ (trim s).head?, isBlank c = false := by
  intro c hc
  obtain ⟨rest, hrest⟩ : trim s <+: s.dropWhile isBlank := trimRight_initial _
  have hleft : (s.dropWhile isBlank).head? = some c := by
    rw [← hrest, List.head?_append, Option.mem_def.mp hc]
    rfl
  have hnot := List.head?_dropWhile_not isBlank s
  rwa [hleft] at hnot

theorem last_trimRight (s : List Char) : ∀ c ∈ (trimRight s).getLast?, isBlank c = false := by
  intro c hc
  unfold trimRight at hc
  rw [dropRightWhile_eq_rdropWhile] at hc
  have hne : s.rdropWhile isBlank ≠ [] := by
    intro hnil
    rw [hnil] at hc
    exact nomatch hc
  have hnot := List.rdropWhile_last_not isBlank s hne
  rw [Option.mem_def, List.getLast?_eq_getLast_of_ne_nil hne, Option.some.injEq] at hc
  rwa [hc, Bool.not_eq_true] at hnot

theorem isTrimmed_trim (s : List Char) : IsTrimmed s (trim s) where
  parts := exists_append_trim s
  first := first_trim s
  last := last_trimRight _

theorem isFirstLine_firstLine (s : List Char) : IsFirstLine s (firstLine s) where
  inner := fun _ hc => (mem_firstLine hc).2
  ends := by
    refine ⟨s.dropWhile (fun c => !isBoundary c), List.takeWhile_append_dropWhile.symm, ?_⟩
    intro c hc
    have hnot := List.head?_dropWhile_not (fun c => !isBoundary c) s
    rw [Option.mem_def.mp hc] at hnot
    simpa using hnot

end Text

namespace Cell

open Text

variable {s : List Char} {limit : Option Nat} {field : Option String}

/-! ### What may be shown -/

/-- There is nothing to show. -/
def IsAbsent (field : Option String) : Prop :=
  ∀ text, field = some text → ∀ c ∈ text.toList, isBlank c = true

/-- A line is shown whole where it fits, and else its beginning, without blanks at its end, with
three dots. -/
inductive ShowsLine (limit : Option Nat) (line : List Char) : List Char → Prop
  | whole (hfits : ∀ n ∈ limit, line.length ≤ n) : ShowsLine limit line line
  | cut {n : Nat} {kept blanks : List Char} (hlimit : limit = some n) (hlong : n < line.length)
    (hkept : line.take (n - 3) = kept ++ blanks) (hblanks : ∀ c ∈ blanks, isBlank c = true)
    (hlast : ∀ c ∈ kept.getLast?, isBlank c = false) :
    ShowsLine limit line (kept ++ ['.', '.', '.'])

/-- What may be shown for a field within a limit. -/
structure IsLineOf (limit : Option Nat) (field : Option String) (shown : String) : Prop where
  inner : ∀ c ∈ shown.toList, isBoundary c = false ∧ c ≠ '\t'
  first : ∃ c ∈ shown.toList.head?, isBlank c = false
  fits : ∀ n ∈ limit, shown.length ≤ n
  absent : IsAbsent field → shown = "-"
  given : ∀ text, field = some text → ¬ IsAbsent field →
    ∃ trimmed line, IsTrimmed text.toList trimmed ∧ IsFirstLine trimmed line ∧
      ShowsLine limit (line.map untab) shown.toList

/-! ### Lines -/

theorem untab_of_not_isBlank {c : Char} (h : isBlank c = false) : untab c = c := by
  apply if_neg
  rintro rfl
  exact absurd h (by decide)

theorem showsLine_shorten (limit : Option Nat) (line : List Char) :
    ShowsLine limit line (shorten limit line) := by
  unfold shorten
  cases limit with
  | none => exact .whole nofun
  | some n =>
    dsimp only
    split
    case isTrue hlong =>
      have hparts : line.take (n - 3) =
          trimRight (line.take (n - 3)) ++ (line.take (n - 3)).rtakeWhile isBlank := by
        unfold trimRight
        rw [dropRightWhile_eq_rdropWhile, List.rdropWhile_append_rtakeWhile]
      exact .cut rfl hlong hparts (fun c hc => List.mem_rtakeWhile_imp hc) (last_trimRight _)
    case isFalse hshort =>
      refine .whole (fun m hm => ?_)
      obtain rfl : n = m := Option.some.inj hm
      exact not_lt.mp hshort

namespace ShowsLine

variable {line shown : List Char}

/-- The dots are within the limit. -/
theorem length_le (h : ShowsLine limit line shown) (hlimit : ∀ n ∈ limit, 4 ≤ n) :
    ∀ n ∈ limit, shown.length ≤ n := by
  intro n hn
  cases h with
  | whole hfits => exact hfits n hn
  | @cut m kept blanks hm hlong hkept hblanks hlast =>
    obtain rfl : m = n := Option.some.inj (hm.symm.trans hn)
    have hroom : 4 ≤ m := hlimit m hn
    have hparts : kept.length + blanks.length = min (m - 3) line.length := by
      rw [← List.length_append, ← hkept, List.length_take]
    rw [List.length_append]
    show kept.length + 3 ≤ m
    omega

/-- A first character that is not blank stays the first one. -/
theorem head? (h : ShowsLine limit line shown) (hlimit : ∀ n ∈ limit, 4 ≤ n) {c : Char}
    (hc : line.head? = some c) (hsolid : isBlank c = false) : shown.head? = some c := by
  cases h with
  | whole hfits => exact hc
  | @cut n kept blanks hn hlong hkept hblanks hlast =>
    have hroom : 4 ≤ n := hlimit n hn
    -- It is among the characters that are left within the limit, and it is not one of the blanks at
    -- their end.
    have htaken : (line.take (n - 3)).head? = some c := by
      rw [List.head?_take, if_neg (by omega), hc]
    rw [hkept, List.head?_append] at htaken
    cases kept with
    | nil =>
      have hblank : isBlank c = true := hblanks c (List.mem_of_mem_head? htaken)
      rw [hsolid] at hblank
      exact nomatch hblank
    | cons d rest => exact htaken

end ShowsLine

/-- The line of a field that is not blank starts with the first character of the trimmed field. -/
theorem exists_head?_lineOf (hlimit : ∀ n ∈ limit, 4 ≤ n) (hgiven : ¬ ∀ c ∈ s, isBlank c = true) :
    ∃ c, (lineOf limit s).head? = some c ∧ isBlank c = false := by
  have hne : trim s ≠ [] := mt trim_eq_nil_iff.mp hgiven
  obtain ⟨c, rest, htrim⟩ := List.exists_cons_of_ne_nil hne
  have hsolid : isBlank c = false := first_trim s c (by rw [htrim]; rfl)
  have hline : ((firstLine (trim s)).map untab).head? = some c := by
    have hinner : (!isBoundary c) = true := by
      rw [isBoundary_of_not_isBlank hsolid]
      rfl
    have hfirst : firstLine (c :: rest) = c :: firstLine rest := List.takeWhile_cons_of_pos hinner
    rw [htrim, hfirst, List.map_cons, untab_of_not_isBlank hsolid]
    rfl
  exact ⟨c, (showsLine_shorten limit _).head? hlimit hline hsolid, hsolid⟩

/-- Neither what is kept of a field nor the dots and dashes that are added end a line. -/
theorem inner_oneLine (limit : Option Nat) (field : Option String) :
    ∀ c ∈ (oneLine limit field).toList, isBoundary c = false ∧ c ≠ '\t' := by
  intro c hc
  rcases mem_oneLine hc with hown | ⟨-, hkept⟩
  · refine ⟨isBoundary_of_isOwn hown, ?_⟩
    rintro rfl
    exact absurd hown (by decide)
  · exact hkept

theorem oneLine_of_isAbsent (h : IsAbsent field) : oneLine limit field = "-" := by
  unfold oneLine
  cases field with
  | none => rfl
  | some text =>
    have hblank : isBlankText text = true := List.all_eq_true.mpr (h text rfl)
    dsimp only
    rw [if_pos hblank]
    rfl

theorem oneLine_of_given {text : String} (h : ¬ ∀ c ∈ text.toList, isBlank c = true) :
    (oneLine limit (some text)).toList = lineOf limit text.toList := by
  have hgiven : ¬ isBlankText text = true := mt List.all_eq_true.mp h
  unfold oneLine
  dsimp only
  rw [if_neg hgiven, String.toList_ofList]

theorem isAbsent_some_iff {text : String} :
    IsAbsent (some text) ↔ ∀ c ∈ text.toList, isBlank c = true := by
  constructor
  · exact fun h => h text rfl
  · rintro h _ ⟨⟩
    exact h

/-- **The line that a field is shown as.** Whatever the field holds, and within every limit that
leaves room for a character and three dots, one line is shown that is not blank: a dash for an
absent or blank field, and the first line of any other one, cut where it does not fit. -/
theorem isLineOf_oneLine (limit : Option Nat) (field : Option String)
    (hlimit : ∀ n ∈ limit, 4 ≤ n) : IsLineOf limit field (oneLine limit field) := by
  have hdash : IsAbsent field → oneLine limit field = "-" := oneLine_of_isAbsent
  refine ⟨inner_oneLine limit field, ?first, ?fits, hdash, ?given⟩
  -- An absent field is a dash, so it fits in any limit and begins the line by itself.
  case first =>
    by_cases habsent : IsAbsent field
    · rw [hdash habsent]
      exact ⟨'-', rfl, by decide⟩
    · cases field with
      | none => exact absurd (fun _ h => nomatch h) habsent
      | some text =>
        have hgiven := mt isAbsent_some_iff.mpr habsent
        rw [oneLine_of_given hgiven]
        exact exists_head?_lineOf hlimit hgiven
  case fits =>
    by_cases habsent : IsAbsent field
    · intro n hn
      rw [hdash habsent]
      show 1 ≤ n
      exact le_trans (by decide) (hlimit n hn)
    · cases field with
      | none => exact absurd (fun _ h => nomatch h) habsent
      | some text =>
        rw [← String.length_toList, oneLine_of_given (mt isAbsent_some_iff.mpr habsent)]
        exact (showsLine_shorten limit _).length_le hlimit
  case given =>
    rintro text rfl hgiven
    refine ⟨trim text.toList, firstLine (trim text.toList), isTrimmed_trim _,
      isFirstLine_firstLine _, ?_⟩
    rw [oneLine_of_given (mt isAbsent_some_iff.mpr hgiven)]
    exact showsLine_shorten limit _

/-- A field with two kinds of blanks in front, a tab and two lines. -/
theorem isLineOf_oneLine_twoLines :
    IsLineOf (some 6) (some " \u2003ab\tcdef\u001cnext") "ab..." := by
  have hline : oneLine (some 6) (some " \u2003ab\tcdef\u001cnext") = "ab..." := by decide +kernel
  have hlimit : ∀ n ∈ some 6, 4 ≤ n := by
    rintro _ ⟨⟩
    decide
  rw [← hline]
  exact isLineOf_oneLine (some 6) _ hlimit

end Cell

end PipelineRuns
