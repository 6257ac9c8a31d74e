import Mathlib.Data.List.Forall2
import Mathlib.Order.Bounds.Defs
import Mathlib.Order.MinMax
import PipelineRuns.Proofs.Cells
import PipelineRuns.Proofs.Order

/-!
# Tables that can be read back

A line of a table is made by padding, joining and trimming; here it is taken apart again by counting
characters. `Report.StandsIn` says that a line holds given cells in columns of given widths:
the cell of column `i` starts at `columnStart w i`, whatever stands in the cells before it.

* `body_cons` unfolds a line before trimming by one column, and `drop_body` follows it to any
  column: the characters before a column's start are exactly the columns before it.
* `line_eq_body`: trimming takes nothing away, because the last cell ends in a character that is not
  blank.
* `le_greatest` and `greatest_mem` say that a width is the greatest length in its column and not
  just large enough.

Main statement: `plain_report_columns`, for every report in plain style.
-/

namespace PipelineRuns.Report

/-! ### Widths -/

theorem le_greatest {lengths : List Nat} {n : Nat} (h : n ∈ lengths) : n ≤ greatest lengths := by
  induction lengths with
  | nil => exact absurd h (by simp)
  | cons m rest ih =>
    unfold greatest at ih ⊢
    rw [List.foldr_cons]
    rcases List.mem_cons.mp h with rfl | h
    · exact le_max_left _ _
    · exact le_trans (ih h) (le_max_right _ _)

theorem greatest_mem {lengths : List Nat} (h : lengths ≠ []) : greatest lengths ∈ lengths := by
  induction lengths with
  | nil => exact absurd rfl h
  | cons m rest ih =>
    unfold greatest at ih ⊢
    rw [List.foldr_cons]
    -- The greatest of the rest is in the rest, unless there is no rest and `m` is compared with
    -- zero.
    rcases max_choice m (rest.foldr max 0) with hmax | hmax
    · rw [hmax]
      exact List.mem_cons_self
    · by_cases hrest : rest = []
      · subst hrest
        simp
      · rw [hmax]
        exact List.mem_cons_of_mem _ (ih hrest)

/-- The width of column `i`: the length of its longest text. -/
def columnWidth (rows : List (List Cell)) (i : Nat) : Nat :=
  greatest (rows.map (fun row => ((row[i]?).map (·.text.length)).getD 0))

theorem widths_eq (rows : List (List Cell)) :
    widths rows = (List.range Cell.headings.length).map (columnWidth rows) := rfl

theorem length_widths (rows : List (List Cell)) : (widths rows).length = 8 := by
  rw [widths_eq, List.length_map, List.length_range]
  rfl

theorem drop_widths (rows : List (List Cell)) {i : Nat} (hi : i < 8) :
    (widths rows).drop i = columnWidth rows i :: (widths rows).drop (i + 1) := by
  have hlt : i < (widths rows).length := by rwa [length_widths]
  rw [List.drop_eq_getElem_cons hlt]
  simp [widths_eq]

/-- Every cell fits into its column. -/
theorem length_le_columnWidth {rows : List (List Cell)} {row : List Cell} (hrow : row ∈ rows)
    {i : Nat} {cell : Cell} (hcell : row[i]? = some cell) :
    cell.text.length ≤ columnWidth rows i := by
  refine le_greatest (List.mem_map.mpr ⟨row, hrow, ?_⟩)
  rw [hcell]
  rfl

/-! ### A line before trimming -/

/-- The padded cells with the separators between them. -/
def body (ws : List Nat) (row : List Cell) : String :=
  String.intercalate separator (padded ws row)

theorem body_singleton (ws : List Nat) (cell : Cell) : body ws [cell] = cell.written := by
  cases ws <;> simp [body, padded]

/-- The first column of several: its cell, the padding, the separator. -/
theorem body_cons (ws : List Nat) (cell next : Cell) (rest : List Cell) :
    body ws (cell :: next :: rest) =
      cell.written ++ spaces (ws.headD 0 - cell.text.length) ++ separator ++ body ws.tail
        (next :: rest) := by
  have hne : padded ws.tail (next :: rest) ≠ [] := by
    cases ws.tail <;> cases rest <;> simp [padded]
  have hstep : padded ws (cell :: next :: rest) =
      (cell.written ++ spaces (ws.headD 0 - cell.text.length)) :: padded ws.tail
      (next :: rest) := by
    cases ws with
    | nil => simp [padded, spaces]
    | cons w ws => rfl
  unfold body
  rw [hstep, String.intercalate_cons_of_ne_nil hne]

/-- A line is made of the cells' characters and of spaces. -/
theorem mem_body {ws : List Nat} {row : List Cell} {c : Char} (h : c ∈ (body ws row).toList) :
    c = ' ' ∨ ∃ cell ∈ row, c ∈ cell.written.toList := by
  induction row generalizing ws with
  | nil => exact absurd h (by simp [body, padded])
  | cons cell rest ih =>
    cases rest with
    | nil =>
      rw [body_singleton] at h
      exact Or.inr ⟨cell, List.mem_cons_self, h⟩
    | cons next rest =>
      rw [body_cons] at h
      simp only [String.toList_append, List.mem_append, spaces, String.toList_ofList] at h
      rcases h with ((h | h) | h) | h
      · exact Or.inr ⟨cell, List.mem_cons_self, h⟩
      · exact Or.inl (List.eq_of_mem_replicate h)
      · exact Or.inl (by simpa [separator] using h)
      · exact (ih h).imp id (fun ⟨d, hd, hc⟩ => ⟨d, List.mem_cons_of_mem _ hd, hc⟩)

/-- The last cell of a row is written with a solid end. -/
def SolidRow (row : List Cell) : Prop :=
  ∃ last ∈ row.getLast?, Text.EndsSolid last.written.toList

theorem SolidRow.body {row : List Cell} (h : SolidRow row) (ws : List Nat) :
    Text.EndsSolid (body ws row).toList := by
  induction row generalizing ws with
  | nil =>
    obtain ⟨last, hlast, -⟩ := h
    exact absurd hlast (by simp)
  | cons cell rest ih =>
    cases rest with
    | nil =>
      obtain ⟨last, hlast, hsolid⟩ := h
      obtain rfl : cell = last := by simpa using hlast
      rwa [body_singleton]
    | cons next rest =>
      rw [body_cons, String.toList_append]
      refine (ih ?_ ws.tail).append _
      obtain ⟨last, hlast, hsolid⟩ := h
      exact ⟨last, by rwa [List.getLast?_cons_cons] at hlast, hsolid⟩

/-- Trimming takes nothing from a line whose last cell has a solid end. -/
theorem line_eq_body {row : List Cell} (h : SolidRow row) (ws : List Nat) :
    line ws row = body ws row := by
  change String.ofList (Text.trimRight (Report.body ws row).toList) = Report.body ws row
  rw [Text.trimRight_of_endsSolid (h.body ws), String.ofList_toList]

theorem solidRow_headings (style : Style) : SolidRow (Cell.headings.map (Cell.heading style)) := by
  refine ⟨Cell.heading style "DURATION", rfl, ?_⟩
  cases style with
  | plain => decide
  | ansi hyperlinks =>
    change Text.EndsSolid (Style.rendition "1" "DURATION").toList
    decide

theorem solidRow_row (style : Style) (now : Moment) (run : Run) :
    SolidRow (Cell.row style now run) :=
  ⟨Cell.plain (Elapsed.duration run.start run.completion), rfl, (Cell.duration_spec _ _).2⟩

theorem solidRow_of_mem_rows {style : Style} {now : Moment} {runs : List Run} {row : List Cell}
    (h : row ∈ rows style now runs) : SolidRow row := by
  rcases List.mem_cons.mp h with rfl | h
  · exact solidRow_headings style
  · obtain ⟨run, -, rfl⟩ := List.mem_map.mp h
    exact solidRow_row style now run

/-! ### Following a line to a column -/

/-- The position at which a column starts: each column before it takes its width and two more. -/
def columnStart (w : Nat → Nat) : Nat → Nat
  | 0 => 0
  | i + 1 => columnStart w i + w i + 2

/-- A cell as it stands in a column that is not the last. -/
def column (w : Nat) (text : String) : List Char :=
  text.toList ++ List.replicate (w - text.length) ' ' ++ [' ', ' ']

/-- The cells are written as they are and fit into columns of these widths. -/
def Fits (ws : List Nat) (row : List Cell) : Prop :=
  List.Forall₂ (fun w cell => cell.written = cell.text ∧ cell.text.length ≤ w) ws row

theorem length_column {w : Nat} {text : String} (h : text.length ≤ w) :
    (column w text).length = w + 2 := by
  simp only [column, List.length_append, List.length_replicate, List.length_cons, List.length_nil,
    String.length_toList]
  omega

theorem toList_body_cons {w : Nat} {ws : List Nat} {cell next : Cell} {rest : List Cell}
    (h : cell.written = cell.text) :
    (body (w :: ws) (cell :: next :: rest)).toList =
      column w cell.text ++ (body ws (next :: rest)).toList := by
  rw [body_cons, h]
  simp only [String.toList_append, spaces, String.toList_ofList, column]
  rfl

/-- The start of a column, counted from the second column on. -/
theorem columnStart_succ (w : Nat → Nat) (i : Nat) :
    columnStart w (i + 1) = w 0 + 2 + columnStart (fun j => w (j + 1)) i := by
  induction i with
  | zero =>
    change 0 + w 0 + 2 = w 0 + 2 + 0
    omega
  | succ i ih =>
    rw [columnStart, ih, columnStart]
    omega

/-- Only the columns before it matter for the start of a column. -/
theorem columnStart_congr {w w' : Nat → Nat} {i : Nat} (h : ∀ j < i, w j = w' j) :
    columnStart w i = columnStart w' i := by
  induction i with
  | zero => rfl
  | succ i ih =>
    rw [columnStart, columnStart, ih (fun j hj => h j (Nat.lt_succ_of_lt hj)),
      h i (Nat.lt_succ_self i)]

/-- What precedes the start of a column in a line are the columns before it. -/
theorem drop_body {ws : List Nat} {row : List Cell} (h : Fits ws row) {i : Nat}
    (hi : i < row.length) :
    (body ws row).toList.drop (columnStart (ws.getD · 0) i) =
      (body (ws.drop i) (row.drop i)).toList := by
  -- Induction on the columns; the step cuts off the first of several.
  induction h generalizing i with
  | nil => exact absurd hi (Nat.not_lt_zero i)
  | @cons w cell ws row hcell htail ih =>
    cases i with
    | zero => rfl
    | succ i =>
      cases htail with
      | nil => exact absurd hi (by simp)
      | @cons w' next ws rest hnext hrest =>
        have hlen := length_column hcell.2
        rw [toList_body_cons hcell.1, columnStart_succ, ← List.drop_drop, List.getD_cons_zero,
          List.drop_left' hlen]
        exact ih (Nat.lt_of_succ_lt_succ hi)

/-! ### Reading a line back -/

/-- A line of eight columns of the widths `w` that holds the texts of `cells`: what starts at
`columnStart w i` is the text of column `i`, filled up to its width and followed by two spaces, and
the last text ends the line, which does not end in a blank. -/
structure StandsIn (w : Nat → Nat) (cells : List String) (line : List Char) : Prop where
  count : cells.length = 8
  inner : ∀ i < 7, ∀ text ∈ cells[i]?,
    (line.drop (columnStart w i)).take (w i + 2) = column (w i) text
  last : ∀ text ∈ cells[7]?, line.drop (columnStart w 7) = text.toList
  solid : Text.EndsSolid line

theorem fits_widths {rows : List (List Cell)} {row : List Cell} (hrow : row ∈ rows)
    (hlen : row.length = 8) (hplain : ∀ cell ∈ row, cell.written = cell.text) :
    Fits (widths rows) row := by
  refine List.forall₂_iff_get.mpr ⟨?_, ?_⟩
  · rw [length_widths, hlen]
  · intro i hi hj
    have hcell : row[i]? = some (row.get ⟨i, hj⟩) := List.getElem?_eq_getElem hj
    refine ⟨hplain _ (List.get_mem _ _), ?_⟩
    have hle := length_le_columnWidth hrow hcell
    simpa [widths_eq] using hle

/-- A plain row of eight cells can be read back from its line of the table. -/
theorem standsIn_body {rows : List (List Cell)} {row : List Cell} (hrow : row ∈ rows)
    (hlen : row.length = 8) (hplain : ∀ cell ∈ row, cell.written = cell.text)
    (hsolid : SolidRow row) :
    StandsIn (columnWidth rows) (row.map Cell.text) (body (widths rows) row).toList := by
  have hfits := fits_widths hrow hlen hplain
  -- The rest of the line from column `i` on, for any of the eight columns.
  have hdrop : ∀ i < 8, (body (widths rows) row).toList.drop (columnStart (columnWidth rows) i) =
      (body ((widths rows).drop i) (row.drop i)).toList := by
    intro i hi
    have hstart : columnStart (columnWidth rows) i = columnStart ((widths rows).getD · 0) i := by
      refine columnStart_congr (fun j hj => ?_)
      have hj8 : j < Cell.headings.length := Nat.lt_trans hj hi
      rw [widths_eq, List.getD_eq_getElem?_getD, List.getElem?_map, List.getElem?_range hj8]
      rfl
    rw [hstart]
    exact drop_body hfits (by omega)
  have hcell :
      ∀ i < 8, ∃ cell ∈ row, row[i]? = some cell ∧ row.drop i = cell :: row.drop (i + 1) := by
    intro i hi
    have hi' : i < row.length := by omega
    exact ⟨row[i], List.getElem_mem hi', List.getElem?_eq_getElem hi',
      (List.drop_eq_getElem_cons hi')⟩
  -- Each inner column is cut off the front of such a rest; the last one is all of it.
  refine ⟨by rw [List.length_map, hlen], ?_, ?_, hsolid.body _⟩
  · intro i hi text htext
    obtain ⟨cell, hmem, hget, hcons⟩ := hcell i (by omega)
    obtain ⟨next, -, -, hnext⟩ := hcell (i + 1) (by omega)
    obtain rfl : cell.text = text := by simpa [hget] using htext
    rw [hdrop i (by omega), hcons, hnext, drop_widths rows (by omega),
      toList_body_cons (hplain cell hmem)]
    exact List.take_left' (length_column (length_le_columnWidth hrow hget))
  · intro text htext
    obtain ⟨cell, hmem, hget, hcons⟩ := hcell 7 (by omega)
    obtain rfl : cell.text = text := by simpa [hget] using htext
    have hnil : row.drop 8 = [] := List.drop_eq_nil_of_le (by omega)
    rw [hdrop 7 (by omega), hcons, hnil, body_singleton, hplain cell hmem]

/-! ### The table of a report -/

/-- The rows of a report without their decoration: the headings, and the cells of the runs in the
order of display. -/
def rowTexts (now : Moment) (runs : List Run) : List (List String) :=
  Cell.headings :: (Run.display runs).map (fun run => (Cell.row .plain now run).map Cell.text)

theorem map_text_rows (style : Style) (now : Moment) (runs : List Run) :
    (rows style now runs).map (·.map Cell.text) = rowTexts now runs := by
  have hhead : (Cell.headings.map (Cell.heading style)).map Cell.text = Cell.headings := rfl
  unfold rows rowTexts
  rw [List.map_cons, hhead, List.map_map]
  refine congrArg (Cell.headings :: ·) (List.map_congr_left (fun run _ => ?_))
  exact Cell.map_text_row style now run

theorem length_of_mem_rows {style : Style} {now : Moment} {runs : List Run} {row : List Cell}
    (h : row ∈ rows style now runs) : row.length = 8 := by
  rcases List.mem_cons.mp h with rfl | h
  · rfl
  · obtain ⟨run, -, rfl⟩ := List.mem_map.mp h
    rfl

theorem written_of_mem_rows_plain {now : Moment} {runs : List Run} {row : List Cell}
    (h : row ∈ rows .plain now runs) : ∀ cell ∈ row, cell.written = cell.text := by
  intro cell hcell
  rcases List.mem_cons.mp h with rfl | h
  · obtain ⟨s, -, rfl⟩ := List.mem_map.mp hcell
    rfl
  · obtain ⟨run, -, rfl⟩ := List.mem_map.mp h
    exact Cell.written_row_plain hcell

theorem isBoundary_of_mem_rows {style : Style} {now : Moment} {runs : List Run} {row : List Cell}
    (h : row ∈ rows style now runs) {cell : Cell} (hcell : cell ∈ row) {c : Char}
    (hc : c ∈ cell.text.toList) : Text.isBoundary c = false := by
  rcases List.mem_cons.mp h with rfl | h
  · obtain ⟨s, hs, rfl⟩ := List.mem_map.mp hcell
    exact Cell.isBoundary_of_isOwn (Cell.ownText_headings s hs c hc)
  · obtain ⟨run, -, rfl⟩ := List.mem_map.mp h
    exact Cell.isBoundary_of_mem_row hcell hc

theorem table_rows (style : Style) (now : Moment) (runs : List Run) :
    table (rows style now runs) =
      (rows style now runs).map (body (widths (rows style now runs))) := by
  unfold table
  exact List.map_congr_left (fun row hrow => line_eq_body (solidRow_of_mem_rows hrow) _)

/-- The report on a Repository with runs: the header, an empty line, the table. -/
theorem render_of_runs {repo : Repository} (h : repo.runs ≠ []) (now : Moment) (style : Style) :
    render repo now style = String.intercalate "\n" (header style repo ++
      ["", String.intercalate "\n" (table (rows style now repo.runs))]) ++ "\n" := by
  have hruns : repo.runs.isEmpty = false := by rwa [List.isEmpty_eq_false_iff]
  have hheader : header style repo ≠ [] := by simp [header, fields]
  have htable : table (rows style now repo.runs) ≠ [] := by simp [table, rows]
  unfold render lines
  rw [hruns, if_neg Bool.false_ne_true,
    String.intercalate_append_of_ne_nil hheader (List.cons_ne_nil _ _),
    String.intercalate_cons_of_ne_nil htable, String.intercalate_append_of_ne_nil hheader
    (List.cons_ne_nil _ _), String.intercalate_cons_cons,
    String.intercalate_singleton]

/-- The header of a plain report, written out. -/
theorem header_plain (repo : Repository) :
    header .plain repo = ["Name:      " ++ repo.name, "Namespace: " ++ repo.ns,
      "URL:       " ++ (if repo.url = "" then "-" else repo.url)] := by
  have hname : "Name:" ++ spaces (fieldColumn - "Name:".length) = "Name:      " := by decide
  have hns : "Namespace:" ++ spaces (fieldColumn - "Namespace:".length) = "Namespace: " := by decide
  have hurl : "URL:" ++ spaces (fieldColumn - "URL:".length) = "URL:       " := by decide
  simp only [header, fields, Cell.dash, Style.bold_plain, List.map_cons, List.map_nil, hname,
    hns, hurl]

/-- The width of a column is the greatest length of a text in it. -/
theorem isGreatest_columnWidth (now : Moment) (runs : List Run) {i : Nat} (hi : i < 8) :
    IsGreatest {n | ∃ texts ∈ rowTexts now runs, ∃ text ∈ texts[i]?, text.length = n}
      (columnWidth (rows .plain now runs) i) := by
  have hget {row : List Cell} (hrow : row ∈ rows .plain now runs) :
      ∃ cell, row[i]? = some cell ∧ row.map Cell.text ∈ rowTexts now runs := by
    have hlt : i < row.length := by rwa [length_of_mem_rows hrow]
    refine ⟨row[i], List.getElem?_eq_getElem hlt, ?_⟩
    rw [← map_text_rows .plain]
    exact List.mem_map_of_mem hrow
  refine ⟨?_, ?_⟩
  -- The width is the length of one of the texts, and no text is longer.
  · have hmem : columnWidth (rows .plain now runs) i ∈ _ := greatest_mem (by simp [rows])
    obtain ⟨row, hrow, hwidth⟩ := List.mem_map.mp hmem
    obtain ⟨cell, hcell, htexts⟩ := hget hrow
    refine ⟨row.map Cell.text, htexts, cell.text, by simp [hcell], ?_⟩
    rw [← hwidth, hcell]
    rfl
  · rintro n ⟨texts, htexts, text, htext, rfl⟩
    rw [← map_text_rows .plain] at htexts
    obtain ⟨row, hrow, rfl⟩ := List.mem_map.mp htexts
    obtain ⟨cell, hcell, -⟩ := hget hrow
    obtain rfl : cell.text = text := by simpa [hcell] using htext
    exact length_le_columnWidth hrow hcell

/-- Splitting the text of a plain table at its line feeds gives its lines. -/
theorem splitOn_table (now : Moment) (runs : List Run) :
    (String.intercalate "\n" (table (rows .plain now runs))).toList.splitOn '\n' =
      (rows .plain now runs).map
        (fun row => (body (widths (rows .plain now runs)) row).toList) := by
  rw [String.toList_intercalate, table_rows, List.map_map]
  refine List.splitOn_intercalate '\n' ?_ (by simp [rows])
  -- A line feed inside a line would come from a cell, since only spaces stand around the cells.
  intro l hl hnewline
  obtain ⟨row, hrow, rfl⟩ := List.mem_map.mp hl
  rcases mem_body hnewline with h | ⟨cell, hcell, hc⟩
  · exact absurd h (by decide)
  · rw [written_of_mem_rows_plain hrow cell hcell] at hc
    exact absurd (isBoundary_of_mem_rows hrow hcell hc) (by decide)

/-- **A plain report reads back by columns.** Whatever the runs hold, the report is the header, an
empty line and a table that has one line more than there are runs, and there are widths of columns,
each the greatest length of a text in its column, by which every line of the table holds the texts
of its row: the headings in the first line, and in line `k + 1` the cells of the run that is
displayed at place `k`. -/
theorem plain_report_columns (repo : Repository) (now : Moment) (h : repo.runs ≠ []) :
    ∃ (text : String) (w : Nat → Nat),
      render repo now .plain = String.intercalate "\n"
        ["Name:      " ++ repo.name, "Namespace: " ++ repo.ns,
          "URL:       " ++ (if repo.url = "" then "-" else repo.url), "", text] ++ "\n" ∧
        (∀ i < 8, IsGreatest {n | ∃ texts ∈ rowTexts now repo.runs, ∃ t ∈ texts[i]?, t.length = n}
          (w i)) ∧
        (text.toList.splitOn '\n').length = 1 + repo.runs.length ∧
        List.Forall₂ (StandsIn w) (rowTexts now repo.runs) (text.toList.splitOn '\n') := by
  refine ⟨String.intercalate "\n" (table (rows .plain now repo.runs)),
    columnWidth (rows .plain now repo.runs), ?_, ?_, ?_, ?_⟩
  · rw [render_of_runs h, header_plain]
    rfl
  · exact fun i hi => isGreatest_columnWidth now repo.runs hi
  · rw [splitOn_table, List.length_map, rows, List.length_cons, List.length_map,
      (Run.display_perm repo.runs).length_eq, Nat.add_comm]
  -- Each row stands for itself: its cells are solid, and each is as wide as its column at most.
  · rw [splitOn_table, ← map_text_rows .plain, List.forall₂_map_left_iff,
      List.forall₂_map_right_iff, List.forall₂_same]
    intro row hrow
    exact standsIn_body hrow (length_of_mem_rows hrow) (written_of_mem_rows_plain hrow)
      (solidRow_of_mem_rows hrow)

/-- A Repository whose runs hold line breaks, tabs and blanks, and one of whose runs is blank
throughout. -/
def raggedRepository : Repository where
  name := "pac"
  ns := "ci"
  url := "https://git"
  runs := [{ name := " " },
    { name := "release\r\nnightly"
      reason := some "Failed"
      start := some (Moment.utc 0)
      completion := some (Moment.utc 90000000)
      sha := some "0123456789"
      shaUrl := some "https://git/0123456789"
      title := some "\tfix\tlayout \r\n"
      branch := some "main\n" }]

theorem plain_report_columns_ragged :
    raggedRepository.runs ≠ [] ∧ ∃ (text : String) (w : Nat → Nat),
      render raggedRepository (Moment.utc 0) .plain = String.intercalate "\n"
          ["Name:      pac", "Namespace: ci", "URL:       https://git", "", text] ++ "\n" ∧
        (text.toList.splitOn '\n').length = 3 ∧
        List.Forall₂ (StandsIn w) (rowTexts (Moment.utc 0) raggedRepository.runs)
          (text.toList.splitOn '\n') := by
  have hruns : raggedRepository.runs ≠ [] := by decide
  obtain ⟨text, w, hrender, -, hcount, hlines⟩ :=
    plain_report_columns raggedRepository (Moment.utc 0) hruns
  exact ⟨hruns, text, w, hrender, hcount, hlines⟩

end PipelineRuns.Report
