import PipelineRuns.Proofs.Text
import PipelineRuns.Report.Render

/-!
# What the cells of a report can hold

The fields of a run are arbitrary text, its cells are not. A character of a cell either belongs to
the small alphabet that the report writes itself (`Cell.isOwn`) or comes from a field of the run,
and then it ends no line and is no tab (`mem_row`). What is to be shown of all characters of a table
is shown by these two cases: `isBoundary_of_mem_row` is the first instance, that no cell contains a
line boundary.

The last cell of a row, the duration, is always written by the report and never ends in a blank
(`duration_spec`). This is why trimming a line of the table on the right cannot take anything away.

The texts of a row do not depend on the style (`map_text_row`), so the columns of all styles have
the same widths.
-/

namespace PipelineRuns

/-! ### The texts of runs and Repositories -/

/-- The texts that a run holds. -/
def Run.texts (run : Run) : List String :=
  run.name :: [run.reason, run.message, run.sha, run.shaUrl, run.title, run.branch,
    run.event].filterMap id

/-- The texts that a Repository holds, those of its runs included. -/
def Repository.texts (repo : Repository) : List String :=
  [repo.name, repo.ns, repo.url] ++ repo.runs.flatMap Run.texts

namespace Cell

/-! ### The alphabet of the report -/

/-- The characters that the report writes itself. -/
def isOwn (c : Char) : Bool :=
  c.isAlphanum || [' ', '-', '.', '✓', '✗', '•', '?'].contains c

theorem toNat_of_isAlphanum {c : Char} (h : c.isAlphanum = true) :
    48 ≤ c.toNat ∧ c.toNat ≤ 122 := by
  have hval : c.toNat = c.val.toNat := rfl
  delta Char.isAlphanum Char.isAlpha Char.isUpper Char.isLower Char.isDigit at h
  simp [UInt32.le_iff_toNat_le] at h
  omega

/-- None of the report's own characters ends a line. -/
theorem isBoundary_of_isOwn {c : Char} (h : isOwn c = true) : Text.isBoundary c = false := by
  unfold isOwn at h
  rw [Bool.or_eq_true, List.contains_iff_mem] at h
  rcases h with h | h
  -- Letters and digits lie between 48 and 122, and all boundaries elsewhere.
  · have hc := toNat_of_isAlphanum h
    simp [Text.isBoundary]
    omega
  · have hmarks :
        [' ', '-', '.', '✓', '✗', '•', '?'].all (fun d => !Text.isBoundary d) = true := by decide
    have hc := List.all_eq_true.mp hmarks c h
    rwa [Bool.not_eq_true'] at hc

/-- None of the report's own characters starts an escape sequence. -/
theorem ne_escape_of_isOwn {c : Char} (h : isOwn c = true) : c ≠ '\x1b' := by
  rintro rfl
  exact absurd h (by decide)

/-- A text that the report writes by itself. -/
def OwnText (s : String) : Prop :=
  ∀ c ∈ s.toList, isOwn c = true

instance (s : String) : Decidable (OwnText s) :=
  decidable_of_iff (s.toList.all isOwn = true) List.all_eq_true

theorem OwnText.append {s t : String} (hs : OwnText s) (ht : OwnText t) : OwnText (s ++ t) := by
  intro c hc
  rw [String.toList_append, List.mem_append] at hc
  rcases hc with hc | hc
  · exact hs c hc
  · exact ht c hc

theorem ownText_toString (n : Nat) : OwnText (toString n) := by
  intro c hc
  rw [Nat.toString_eq_repr, Nat.repr, String.toList_ofList] at hc
  have hd : c.isDigit = true := Nat.isDigit_of_mem_toDigits (by decide) (by decide) hc
  unfold isOwn Char.isAlphanum
  rw [hd, Bool.or_true, Bool.true_or]

/-! ### Ages and durations -/

theorem ownText_unit : ∀ u ∈ Span.units, OwnText u.1 ∧ Text.EndsSolid u.1.toList := by
  decide

/-- A count of a unit ends in the unit or in the `s` of its plural. -/
theorem counted_spec (count : Nat) {unit : String}
    (hu : OwnText unit ∧ Text.EndsSolid unit.toList) :
    OwnText (Span.counted count unit) ∧ Text.EndsSolid (Span.counted count unit).toList := by
  have hfront : OwnText (toString count ++ " " ++ unit) :=
    ((ownText_toString count).append (by decide)).append hu.1
  unfold Span.counted
  split
  -- One of a unit ends in the unit, several end in the `s` of the plural.
  · refine ⟨hfront.append (by decide), ?_⟩
    rw [String.append_empty, String.toList_append]
    exact hu.2.append _
  · refine ⟨hfront.append (by decide), ?_⟩
    rw [String.toList_append]
    exact Text.EndsSolid.append _ (by decide)

/-- A span in words is the report's own text and does not end in a blank. -/
theorem inUnits_spec (total : Nat) :
    OwnText (Span.inUnits total) ∧ Text.EndsSolid (Span.inUnits total).toList := by
  unfold Span.inUnits
  split
  · next u hu => exact counted_spec _ (ownText_unit u (List.mem_of_find?_eq_some hu))
  · exact ⟨by decide, by decide⟩

theorem ownText_age (start : Option Moment) (now : Moment) : OwnText (Elapsed.age start now) := by
  unfold Elapsed.age
  split
  · decide
  · split
    · decide
    · exact (inUnits_spec _).1.append (by decide)

/-- A duration is the report's own text and does not end in a blank. -/
theorem duration_spec (start completion : Option Moment) :
    OwnText (Elapsed.duration start completion) ∧
      Text.EndsSolid (Elapsed.duration start completion).toList := by
  unfold Elapsed.duration
  split
  · exact ⟨by decide, by decide⟩
  · exact ⟨by decide, by decide⟩
  · split
    · exact ⟨by decide, by decide⟩
    · exact inUnits_spec _

/-! ### Fields as cells -/

/-- A character that is kept of a field: it is no line boundary and no tab. -/
def IsKept (field : Option String) (c : Char) : Prop :=
  (∃ t, field = some t ∧ c ∈ t.toList) ∧ Text.isBoundary c = false ∧ c ≠ '\t'

theorem mem_shorten {limit : Option Nat} {line : List Char} {c : Char}
    (h : c ∈ shorten limit line) : c = '.' ∨ c ∈ line := by
  unfold shorten at h
  split at h
  · exact Or.inr h
  · split at h
    · rcases List.mem_append.mp h with h | h
      · exact Or.inr (List.mem_of_mem_take (Text.mem_trimRight h))
      · exact Or.inl (by simpa using h)
    · exact Or.inr h

/-- Of a field a cell keeps characters of its first line, tabs as spaces, and adds at most dots. -/
theorem mem_lineOf {limit : Option Nat} {s : List Char} {c : Char} (h : c ∈ lineOf limit s) :
    isOwn c = true ∨ (c ∈ s ∧ Text.isBoundary c = false ∧ c ≠ '\t') := by
  rcases mem_shorten h with rfl | h
  · exact Or.inl (by decide)
  · obtain ⟨d, hd, rfl⟩ := List.mem_map.mp h
    obtain ⟨hmem, hbound⟩ := Text.mem_firstLine hd
    unfold untab
    split
    · exact Or.inl (by decide)
    · next htab => exact Or.inr ⟨Text.mem_trim hmem, hbound, htab⟩

theorem mem_oneLine {limit : Option Nat} {field : Option String} {c : Char}
    (h : c ∈ (oneLine limit field).toList) : isOwn c = true ∨ IsKept field c := by
  have hdash : OwnText dash := by decide
  unfold oneLine at h
  split at h
  · exact Or.inl (hdash c h)
  · next t =>
    split at h
    · exact Or.inl (hdash c h)
    · rw [String.toList_ofList] at h
      rcases mem_lineOf h with h | ⟨hmem, hkept⟩
      · exact Or.inl h
      · exact Or.inr ⟨⟨t, rfl, hmem⟩, hkept⟩

theorem mem_shortSha {sha : Option String} {c : Char} (h : c ∈ (shortSha sha).toList) :
    isOwn c = true ∨ IsKept sha c := by
  have hdash : OwnText dash := by decide
  simp only [shortSha] at h
  split at h
  · exact Or.inl (hdash c h)
  · rw [String.toList_ofList] at h
    exact mem_oneLine (List.mem_of_mem_take h)

/-! ### Rows -/

theorem ownText_status (style : Style) (s : DisplayState) : OwnText (status style s).text := by
  have h : ∀ d : DisplayState, OwnText (d.icon ++ " " ++ d.name) := by
    intro d
    cases d <;> decide
  exact h s

theorem ownText_headings : ∀ s ∈ headings, OwnText s := by
  decide

/-- What is kept of a field of a run is kept of one of its texts. -/
theorem IsKept.of_run {run : Run} {field : Option String} {c : Char} (h : IsKept field c)
    (hfield : ∀ t, field = some t → t ∈ run.texts) :
    ∃ t ∈ run.texts, c ∈ t.toList ∧ Text.isBoundary c = false ∧ c ≠ '\t' := by
  obtain ⟨⟨t, ht, hmem⟩, hkept⟩ := h
  exact ⟨t, hfield t ht, hmem, hkept⟩

/-- **The characters of a row.** Each is the report's own or kept of a text of the run. -/
theorem mem_row {style : Style} {now : Moment} {run : Run} {cell : Cell}
    (hcell : cell ∈ row style now run) {c : Char} (hc : c ∈ cell.text.toList) :
    isOwn c = true ∨ ∃ t ∈ run.texts, c ∈ t.toList ∧ Text.isBoundary c = false ∧ c ≠ '\t' := by
  have hfield {field : Option String} (hmem : ∀ t, field = some t → t ∈ run.texts)
      (h : isOwn c = true ∨ IsKept field c) :
      isOwn c = true ∨ ∃ t ∈ run.texts, c ∈ t.toList ∧ Text.isBoundary c = false ∧ c ≠ '\t' :=
    h.imp id (fun hk => hk.of_run hmem)
  -- The eight cells in their order: the state, five that show fields, the age and the duration.
  simp only [row, List.mem_cons, List.not_mem_nil, or_false] at hcell
  rcases hcell with rfl | rfl | rfl | rfl | rfl | rfl | rfl | rfl
  · exact Or.inl (ownText_status style _ c hc)
  · exact hfield (by simp [Run.texts]) (mem_oneLine hc)
  · exact hfield (by simp +contextual [Run.texts]) (mem_shortSha hc)
  · exact hfield (by simp +contextual [Run.texts]) (mem_oneLine hc)
  · exact hfield (by simp +contextual [Run.texts]) (mem_oneLine hc)
  · exact hfield (by simp +contextual [Run.texts]) (mem_oneLine hc)
  · exact Or.inl (ownText_age _ _ c hc)
  · exact Or.inl ((duration_spec _ _).1 c hc)

/-- No cell of a run contains a line boundary, whatever its fields hold. -/
theorem isBoundary_of_mem_row {style : Style} {now : Moment} {run : Run} {cell : Cell}
    (hcell : cell ∈ row style now run) {c : Char} (hc : c ∈ cell.text.toList) :
    Text.isBoundary c = false := by
  rcases mem_row hcell hc with h | ⟨t, -, -, hbound, -⟩
  · exact isBoundary_of_isOwn h
  · exact hbound

/-- The style decides what is written for a cell, not its text. -/
theorem map_text_row (style : Style) (now : Moment) (run : Run) :
    (row style now run).map Cell.text = (row .plain now run).map Cell.text := rfl

/-- Without decoration the text of a cell is written. -/
theorem written_row_plain {now : Moment} {run : Run} {cell : Cell} (h : cell ∈ row .plain now run) :
    cell.written = cell.text := by
  simp only [row, List.mem_cons, List.not_mem_nil, or_false] at h
  rcases h with rfl | rfl | rfl | rfl | rfl | rfl | rfl | rfl
  -- The commit is the only cell whose decoration depends on a field, its address.
  case inr.inr.inl => simp [commit]
  all_goals rfl

end Cell

end PipelineRuns
