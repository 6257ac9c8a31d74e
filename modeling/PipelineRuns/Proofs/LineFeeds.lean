import Mathlib.Algebra.BigOperators.Group.List.Basic
import Mathlib.Algebra.GroupWithZero.Nat
import PipelineRuns.Proofs.Columns

/-!
# Line feeds in styled reports

A row of a report is one line of the table as long as no cell of it brings in a line feed. The texts
of the cells never do, whatever the fields of the run hold. What is written for a cell is its text
with a decoration around it, and two of the three decorations are made of fixed sequences. The
third, the link of a commit, holds the address of the commit as it is stored, which is not cut to
one line.

So the line feeds of a report are counted part by part: a decoration adds none
(`Style.lineFeeds_bold`, `Style.lineFeeds_state`) except for those of an address
(`Style.lineFeeds_link`), a row has those of its cells (`Report.lineFeeds_body`), and a text that is
joined from lines has theirs and one between any two (`Text.lineFeeds_intercalate`). What a style
adds to a run is `Run.addressFeeds`.

Main statement: `Report.lineFeeds_render`. A run with a line feed in its address breaks its row
(`Report.lineFeeds_not_always_same`).
-/

namespace PipelineRuns

/-! ### Counting -/

namespace Text

/-- The number of line feeds in a text. -/
def lineFeeds (s : String) : Nat := s.toList.count '\n'

theorem lineFeeds_append (s t : String) : lineFeeds (s ++ t) = lineFeeds s + lineFeeds t := by
  unfold lineFeeds
  rw [String.toList_append, List.count_append]

theorem lineFeeds_eq_zero_iff {s : String} : lineFeeds s = 0 ↔ '\n' ∉ s.toList :=
  List.count_eq_zero

theorem lineFeeds_spaces (n : Nat) : lineFeeds (Report.spaces n) = 0 := by
  rw [lineFeeds_eq_zero_iff, Report.spaces, String.toList_ofList]
  exact fun h => absurd (List.eq_of_mem_replicate h) (by decide)

/-- Joined lines have their own line feeds and one between any two. -/
theorem lineFeeds_intercalate (lines : List String) :
    lineFeeds (String.intercalate "\n" lines) = (lines.map lineFeeds).sum + (lines.length - 1) := by
  induction lines with
  | nil => rfl
  | cons l rest ih =>
    cases rest with
    | nil => simp [String.intercalate_singleton]
    | cons m rest =>
      have hone : lineFeeds "\n" = 1 := rfl
      rw [String.intercalate_cons_cons, lineFeeds_append, lineFeeds_append, ih, hone]
      simp only [List.map_cons, List.sum_cons, List.length_cons]
      omega

end Text

open Text

/-! ### Decorations -/

namespace Style

theorem lineFeeds_rendition {code : String} (hcode : lineFeeds code = 0) (text : String) :
    lineFeeds (rendition code text) = lineFeeds text := by
  have hopen : lineFeeds (escape ++ "[") = 0 := rfl
  have hclose : lineFeeds reset = 0 := rfl
  have hend : lineFeeds "m" = 0 := rfl
  unfold rendition
  rw [lineFeeds_append, lineFeeds_append, lineFeeds_append, lineFeeds_append, hopen, hcode,
    hend, hclose]
  omega

theorem lineFeeds_bold (style : Style) (text : String) :
    lineFeeds (style.bold text) = lineFeeds text := by
  cases style with
  | plain => rfl
  | ansi hyperlinks => exact lineFeeds_rendition rfl text

theorem lineFeeds_state (style : Style) (s : DisplayState) (text : String) :
    lineFeeds (style.state s text) = lineFeeds text := by
  have hcode : lineFeeds (color s) = 0 := by cases s <;> rfl
  cases style with
  | plain => rfl
  | ansi hyperlinks => exact lineFeeds_rendition hcode text

theorem lineFeeds_linkMark (url : String) : lineFeeds (linkMark url) = lineFeeds url := by
  have hopen : lineFeeds (escape ++ "]8;;") = 0 := rfl
  have hend : lineFeeds escape = 0 := rfl
  have hclose : lineFeeds "\\" = 0 := rfl
  unfold linkMark
  rw [lineFeeds_append, lineFeeds_append, lineFeeds_append, hopen, hend, hclose]
  omega

/-- A link brings in the line feeds of its address. -/
theorem lineFeeds_link (style : Style) (text url : String) :
    lineFeeds (style.link text url) =
      lineFeeds text + if style = .ansi true then lineFeeds url else 0 := by
  match style with
  | .plain => rfl
  | .ansi false => rfl
  | .ansi true =>
    have hclose : lineFeeds (linkMark "") = 0 := rfl
    change lineFeeds (linkMark url ++ text ++ linkMark "") = _
    rw [lineFeeds_append, lineFeeds_append, lineFeeds_linkMark, hclose, if_pos rfl]
    omega

end Style

/-! ### Rows -/

/-- The line feeds that the cells of a run are written with in a style: those of the address of a
commit that is shown as a link. -/
def Run.addressFeeds (style : Style) (run : Run) : Nat :=
  if style = .ansi true ∧ Cell.shortSha run.sha ≠ Cell.dash then lineFeeds (run.shaUrl.getD "")
  else 0

theorem Run.addressFeeds_eq_zero_iff (style : Style) (run : Run) :
    run.addressFeeds style = 0 ↔
      (style = .ansi true → Cell.shortSha run.sha ≠ Cell.dash →
        '\n' ∉ (run.shaUrl.getD "").toList) := by
  unfold addressFeeds
  split
  · next h =>
    rw [lineFeeds_eq_zero_iff]
    exact ⟨fun hfree _ _ => hfree, fun hfree => hfree h.1 h.2⟩
  · next h => exact ⟨fun _ hlinks hsha => absurd ⟨hlinks, hsha⟩ h, fun _ => rfl⟩

namespace Cell

/-- The text of a cell has no line feed, whatever the run holds. -/
theorem lineFeeds_text {style : Style} {now : Moment} {run : Run} {cell : Cell}
    (h : cell ∈ row style now run) : lineFeeds cell.text = 0 :=
  lineFeeds_eq_zero_iff.mpr (fun hc => absurd (isBoundary_of_mem_row h hc) (by decide))

theorem lineFeeds_commit (style : Style) (run : Run) :
    lineFeeds (commit style run.sha run.shaUrl).written =
      lineFeeds (commit style run.sha run.shaUrl).text + run.addressFeeds style := by
  unfold commit Run.addressFeeds
  dsimp only
  by_cases hdash : shortSha run.sha = dash
  · simp [hdash]
  · by_cases hurl : run.shaUrl.getD "" = ""
    · simp [hurl, lineFeeds]
    · simp [hdash, hurl, Style.lineFeeds_link]

/-- The line feeds that are written for a run. -/
theorem lineFeeds_row (style : Style) (now : Moment) (run : Run) :
    ((row style now run).map (fun cell => lineFeeds cell.written)).sum =
      run.addressFeeds style := by
  have htext : ∀ cell ∈ row style now run, lineFeeds cell.text = 0 := fun cell h => lineFeeds_text h
  simp only [row, List.forall_mem_cons] at htext
  obtain ⟨hstate, hname, hcommit, htitle, hbranch, hevent, hage, hduration, -⟩ := htext
  have hwritten : lineFeeds (status style (DisplayState.classify run.reason)).written = 0 :=
    (Style.lineFeeds_state style _ _).trans hstate
  simp only [row, List.map_cons, List.map_nil, List.sum_cons, List.sum_nil, lineFeeds_commit,
    hwritten, hcommit]
  -- The other cells are written as their texts.
  change 0 + (lineFeeds (plain _).text + (0 + run.addressFeeds style + (lineFeeds (plain _).text +
    (lineFeeds (plain _).text + (lineFeeds (plain _).text + (lineFeeds (plain _).text +
      (lineFeeds (plain _).text + 0))))))) = _
  rw [hname, htitle, hbranch, hevent, hage, hduration]
  omega

end Cell

/-! ### The table and the report -/

namespace Report

/-- Between the cells of a row stand only spaces. -/
theorem lineFeeds_body (ws : List Nat) (row : List Cell) :
    lineFeeds (body ws row) = (row.map (fun cell => lineFeeds cell.written)).sum := by
  have hsep : lineFeeds separator = 0 := rfl
  -- Induction on the columns; the step takes the first of several off.
  induction row generalizing ws with
  | nil => rfl
  | cons cell rest ih =>
    cases rest with
    | nil => simp [body_singleton]
    | cons next rest =>
      rw [body_cons, lineFeeds_append, lineFeeds_append, lineFeeds_append, lineFeeds_spaces,
        hsep, ih]
      simp only [List.map_cons, List.sum_cons]
      omega

theorem lineFeeds_headings (style : Style) (ws : List Nat) :
    lineFeeds (body ws (Cell.headings.map (Cell.heading style))) = 0 := by
  have hbold : ∀ s ∈ Cell.headings, lineFeeds (style.bold s) = 0 := by
    intro s hs
    rw [Style.lineFeeds_bold, lineFeeds_eq_zero_iff]
    exact fun hc => absurd (Cell.isBoundary_of_isOwn (Cell.ownText_headings s hs _ hc)) (by decide)
  rw [lineFeeds_body, List.map_map, List.sum_eq_zero]
  intro n hn
  obtain ⟨s, hs, rfl⟩ := List.mem_map.mp hn
  exact hbold s hs

/-- The line feeds inside the lines of a table are those of the addresses, in whatever order the
runs are shown. -/
theorem lineFeeds_table (style : Style) (now : Moment) (runs : List Run) :
    ((table (rows style now runs)).map lineFeeds).sum =
      (runs.map (Run.addressFeeds style)).sum := by
  have hrun : ∀ (ws : List Nat) (run : Run),
      lineFeeds (body ws (Cell.row style now run)) = run.addressFeeds style := by
    intro ws run
    rw [lineFeeds_body, Cell.lineFeeds_row]
  rw [table_rows]
  generalize widths (rows style now runs) = ws
  unfold rows
  rw [List.map_cons, List.map_cons, List.sum_cons, lineFeeds_headings, List.map_map, List.map_map,
    Nat.zero_add]
  calc ((Run.display runs).map ((lineFeeds ∘ body ws) ∘ Cell.row style now)).sum
      = ((Run.display runs).map (Run.addressFeeds style)).sum :=
        congrArg List.sum (List.map_congr_left (fun run _ => hrun ws run))
    _ = (runs.map (Run.addressFeeds style)).sum := ((Run.display_perm runs).map _).sum_eq

theorem map_lineFeeds_header (style : Style) (repo : Repository) :
    (header style repo).map lineFeeds = (header .plain repo).map lineFeeds := by
  unfold header
  rw [List.map_map, List.map_map]
  refine List.map_congr_left (fun f _ => ?_)
  simp only [Function.comp_apply, lineFeeds_append, Style.lineFeeds_bold]

theorem length_lines (style : Style) (now : Moment) (repo : Repository) :
    (lines style now repo).length = (lines .plain now repo).length := by
  unfold lines table rows header
  split
  · simp
  · simp

/-- The line feeds inside the lines of a report: those of the header and those of the addresses. -/
theorem lineFeeds_lines (style : Style) (now : Moment) (repo : Repository) :
    ((lines style now repo).map lineFeeds).sum =
      ((header .plain repo).map lineFeeds).sum + (repo.runs.map (Run.addressFeeds style)).sum := by
  have hempty : lineFeeds "" = 0 := rfl
  unfold lines
  rw [List.map_append, List.sum_append, map_lineFeeds_header, List.map_cons, List.sum_cons, hempty,
    Nat.zero_add]
  split
  · next hruns =>
    rw [List.isEmpty_iff.mp hruns]
    rfl
  · rw [lineFeeds_table]

theorem lineFeeds_render_eq (repo : Repository) (now : Moment) (style : Style) :
    lineFeeds (render repo now style) = ((header .plain repo).map lineFeeds).sum +
      (repo.runs.map (Run.addressFeeds style)).sum + (lines .plain now repo).length := by
  have hend : lineFeeds "\n" = 1 := rfl
  have hpos : 0 < (lines .plain now repo).length := by
    unfold lines
    rw [List.length_append, List.length_cons]
    omega
  unfold render
  rw [lineFeeds_append, lineFeeds_intercalate, lineFeeds_lines, length_lines, hend]
  omega

theorem sum_addressFeeds_eq_zero_iff (style : Style) (runs : List Run) :
    (runs.map (Run.addressFeeds style)).sum = 0 ↔ ∀ run ∈ runs, run.addressFeeds style = 0 := by
  rw [List.sum_eq_zero_iff_forall_eq_nat, List.forall_mem_map]

/-- **What a style adds to the line feeds of a report.** The plain report has no line feed from a
run. In every other style the report has those of the plain one, and in addition those of the
address of each commit that is shown as a link. So it has as many as the plain one, and a line of
the table for each run, exactly when there are no links or no address in one holds a line feed; no
other field of a run plays a part. -/
theorem lineFeeds_render (repo : Repository) (now : Moment) (style : Style) :
    lineFeeds (render repo now style) =
        lineFeeds (render repo now .plain) + (repo.runs.map (Run.addressFeeds style)).sum ∧
      (lineFeeds (render repo now style) = lineFeeds (render repo now .plain) ↔
        (style = .ansi true → ∀ run ∈ repo.runs, Cell.shortSha run.sha ≠ Cell.dash →
          '\n' ∉ (run.shaUrl.getD "").toList)) := by
  have hplain : (repo.runs.map (Run.addressFeeds .plain)).sum = 0 :=
    (sum_addressFeeds_eq_zero_iff .plain repo.runs).mpr (fun run _ => rfl)
  have hadd : lineFeeds (render repo now style) =
      lineFeeds (render repo now .plain) + (repo.runs.map (Run.addressFeeds style)).sum := by
    rw [lineFeeds_render_eq repo now style, lineFeeds_render_eq repo now .plain, hplain]
    omega
  refine ⟨hadd, ?_⟩
  rw [hadd, Nat.add_eq_left, sum_addressFeeds_eq_zero_iff]
  constructor
  · exact fun h hlinks run hrun => (run.addressFeeds_eq_zero_iff style).mp (h run hrun) hlinks
  · exact fun h run hrun =>
      (run.addressFeeds_eq_zero_iff style).mpr (fun hlinks => h hlinks run hrun)

/-- A Repository with a run whose commit has an address of two lines. -/
def brokenRepository : Repository where
  name := "pac"
  ns := "ci"
  runs :=
    [{ name := "release", sha := some "0123456789", shaUrl := some "https://git/\n0123456789" }]

/-- The row of such a run is broken where links are shown. -/
theorem lineFeeds_not_always_same :
    ¬ ∀ (repo : Repository) (now : Moment) (style : Style),
        lineFeeds (render repo now style) = lineFeeds (render repo now .plain) := by
  intro h
  have hsame := h brokenRepository (Moment.utc 0) (.ansi true)
  rw [lineFeeds_render_eq, lineFeeds_render_eq] at hsame
  exact absurd hsame (by decide)

end Report

end PipelineRuns
