import PipelineRuns.Proofs.Columns

/-!
# Styled reports without their escape sequences

A terminal shows a styled report without the escape sequences in it. `EscapeSequence` describes a
kind of sequence by how it begins, what it can hold and how it ends, and `EscapeSequence.erase`
deletes all sequences of one kind from a text, from left to right, as they are found: `erase_match`
and `erase_cons` say what it does at a place where a sequence begins and at any other place.

`Escape.visible` deletes hyperlinks first and renditions after them. Since a deletion looks at what
follows, the statements about parts of a report are made in front of any rest of the text:
`Shows written text` says that `written`, with whatever comes after it, is seen as `text`. This
relation passes through everything that a report is put together with (`Shows.append`,
`shows_intercalate`, `shows_body`), so that only the three decorations of `Style` need an argument
of their own.

Main statement: `visible_render`, a styled report is seen as the plain one.
-/

namespace PipelineRuns

/-- A kind of escape sequence: the escape character, what follows it, any number of inner
characters, and the end, which no inner character begins. -/
structure EscapeSequence where
  start : List Char
  inner : Char → Bool
  finish : Char
  after : List Char
  inner_finish : inner finish = false

namespace EscapeSequence

variable (e : EscapeSequence)

/-- What the sequence begins with. -/
def opening : List Char := '\x1b' :: e.start

/-- What the sequence ends with. -/
def closing : List Char := e.finish :: e.after

/-- A text that is, as a whole, one sequence of this kind. -/
def Matches (m : List Char) : Prop :=
  ∃ held, (∀ c ∈ held, e.inner c = true) ∧ m = e.opening ++ held ++ e.closing

/-- The length of the sequence that a text begins with; zero where there is none. -/
def matchLength (s : List Char) : Nat :=
  let rest := s.drop e.opening.length
  let held := rest.takeWhile e.inner
  if e.opening.isPrefixOf s && e.closing.isPrefixOf (rest.drop held.length) then
    e.opening.length + held.length + e.closing.length
  else 0

/-- A text without the sequences in it, of which the first characters are left out in any case. -/
def eraseAfter : Nat → List Char → List Char
  | _, [] => []
  | skipped + 1, _ :: rest => eraseAfter skipped rest
  | 0, c :: rest =>
    match e.matchLength (c :: rest) with
    | 0 => c :: eraseAfter 0 rest
    | n + 1 => eraseAfter n rest

/-- A text without the sequences in it. -/
def erase (s : List Char) : List Char := e.eraseAfter 0 s

variable {e}

/-- A sequence is matched as far as it goes, whatever stands behind it. -/
theorem matchLength_match {m : List Char} (h : e.Matches m) (rest : List Char) :
    e.matchLength (m ++ rest) = m.length := by
  obtain ⟨held, hinner, rfl⟩ := h
  have hopen : e.opening.isPrefixOf (e.opening ++ held ++ e.closing ++ rest) = true := by
    rw [List.isPrefixOf_iff_prefix, List.append_assoc, List.append_assoc]
    exact List.prefix_append _ _
  have hdrop : (e.opening ++ held ++ e.closing ++ rest).drop e.opening.length =
      held ++ (e.closing ++ rest) := by
    rw [List.append_assoc, List.append_assoc, List.drop_left]
  -- The inner characters are all taken, and the end stops them.
  have htake : (held ++ (e.closing ++ rest)).takeWhile e.inner = held := by
    rw [List.takeWhile_append_of_pos hinner]
    simp [closing, e.inner_finish]
  have hclose : e.closing.isPrefixOf (e.closing ++ rest) = true := by
    rw [List.isPrefixOf_iff_prefix]
    exact List.prefix_append _ _
  unfold matchLength
  simp only [hopen, hdrop, htake, List.drop_left, hclose]
  simp [Nat.add_assoc]

/-- What is matched is a sequence at the start. -/
theorem exists_match_of_matchLength {s : List Char} (h : e.matchLength s ≠ 0) :
    ∃ m rest, e.Matches m ∧ s = m ++ rest := by
  unfold matchLength at h
  simp only at h
  split at h
  · next hc =>
    rw [Bool.and_eq_true, List.isPrefixOf_iff_prefix, List.isPrefixOf_iff_prefix] at hc
    obtain ⟨⟨t, rfl⟩, u, hu⟩ := hc
    rw [List.drop_left] at hu
    refine ⟨e.opening ++ t.takeWhile e.inner ++ e.closing, u,
      ⟨_, fun c hc => List.mem_takeWhile_imp hc, rfl⟩, ?_⟩
    have ht : t = t.takeWhile e.inner ++ (e.closing ++ u) := by
      rw [hu]
      exact (List.prefix_iff_eq_append.mp (List.takeWhile_prefix e.inner)).symm
    rw [List.append_assoc, List.append_assoc, ← ht]
  · exact absurd rfl h

theorem eraseAfter_append (s rest : List Char) :
    e.eraseAfter s.length (s ++ rest) = e.erase rest := by
  induction s with
  | nil => rfl
  | cons c s ih =>
    rw [List.length_cons, List.cons_append, eraseAfter]
    exact ih

/-- Where a sequence begins, it is deleted. -/
theorem erase_match {m : List Char} (h : e.Matches m) (rest : List Char) :
    e.erase (m ++ rest) = e.erase rest := by
  have hlen := matchLength_match h rest
  cases m with
  | nil =>
    obtain ⟨held, -, hm⟩ := h
    exact absurd hm.symm (by simp [opening])
  | cons c m =>
    rw [List.cons_append] at hlen ⊢
    unfold erase
    rw [eraseAfter, hlen]
    exact eraseAfter_append m rest

/-- Where no sequence begins, the character is kept. -/
theorem erase_cons {c : Char} {s : List Char} (h : ∀ m rest, e.Matches m → c :: s ≠ m ++ rest) :
    e.erase (c :: s) = c :: e.erase s := by
  have hlen : e.matchLength (c :: s) = 0 := by
    by_contra hne
    obtain ⟨m, rest, hm, heq⟩ := exists_match_of_matchLength hne
    exact h m rest hm heq
  unfold erase
  rw [eraseAfter, hlen]

/-- A text without the escape character is kept. -/
theorem erase_append_of_free {s : List Char} (h : '\x1b' ∉ s) (rest : List Char) :
    e.erase (s ++ rest) = s ++ e.erase rest := by
  induction s with
  | nil => rfl
  | cons c s ih =>
    rw [List.mem_cons, not_or] at h
    rw [List.cons_append, erase_cons, ih h.2, List.cons_append]
    rintro m after ⟨held, -, rfl⟩ heq
    refine h.1 ?_
    simp only [opening, List.cons_append, List.cons.injEq] at heq
    exact heq.1.symm

end EscapeSequence

namespace Escape

/-- The marks at the two ends of a hyperlink. -/
def hyperlink : EscapeSequence where
  start := [']', '8', ';', ';']
  inner := fun c => c ≠ '\x1b'
  finish := '\x1b'
  after := ['\\']
  inner_finish := by decide

/-- The switches of the graphic rendition: colours and bold, on and off. -/
def rendition : EscapeSequence where
  start := ['[']
  inner := fun c => c.isDigit || c = ';'
  finish := 'm'
  after := []
  inner_finish := by decide

/-- A text without hyperlinks and, after these, without renditions. -/
def erase (s : List Char) : List Char :=
  rendition.erase (hyperlink.erase s)

/-- What is seen of a text on a terminal. -/
def visible (s : String) : String :=
  String.ofList (erase s.toList)

/-! ### What stands for what -/

/-- In front of any rest of a text, `written` is seen as `text`. -/
def Shows (written text : List Char) : Prop :=
  ∀ rest, erase (written ++ rest) = text ++ erase rest

/-- Texts that are put together show what their parts show. -/
theorem Shows.append {a s b t : List Char} (h : Shows a s) (h' : Shows b t) :
    Shows (a ++ b) (s ++ t) := by
  intro rest
  rw [List.append_assoc, h, h', List.append_assoc]

/-- A text without escape characters shows itself. -/
theorem shows_of_free {s : List Char} (h : '\x1b' ∉ s) : Shows s s := by
  intro rest
  unfold erase
  rw [EscapeSequence.erase_append_of_free h, EscapeSequence.erase_append_of_free h]

theorem shows_spaces (n : Nat) : Shows (Report.spaces n).toList (Report.spaces n).toList := by
  refine shows_of_free (fun hc => ?_)
  rw [Report.spaces, String.toList_ofList] at hc
  exact absurd (List.eq_of_mem_replicate hc) (by decide)

/-- The mark of a hyperlink is not seen, whatever the address. -/
theorem shows_linkMark {url : String} (h : '\x1b' ∉ url.toList) :
    Shows (Style.linkMark url).toList [] := by
  have hm : hyperlink.Matches (Style.linkMark url).toList := by
    refine ⟨url.toList, ?_, ?_⟩
    · intro c hc
      have hne : c ≠ '\x1b' := fun heq => h (heq ▸ hc)
      simp [hyperlink, hne]
    · simp [Style.linkMark, Style.escape, hyperlink, EscapeSequence.opening, EscapeSequence.closing]
  intro rest
  unfold erase
  rw [EscapeSequence.erase_match hm, List.nil_append]

/-- A switch of the rendition is no mark of a hyperlink, and is not seen. -/
theorem shows_switch {code : List Char} (hcode : code.all rendition.inner = true) :
    Shows ('\x1b' :: '[' :: code ++ ['m']) [] := by
  have h : ∀ c ∈ code, rendition.inner c = true := List.all_eq_true.mp hcode
  have hm : rendition.Matches ('\x1b' :: '[' :: code ++ ['m']) := ⟨code, h, rfl⟩
  -- The first deletion passes over a switch: it does not begin like a hyperlink, and holds no other
  -- escape.
  have hfree : '\x1b' ∉ '[' :: code ++ ['m'] := by
    intro hc
    simp only [List.cons_append, List.mem_cons, List.mem_append, List.not_mem_nil, or_false] at hc
    rcases hc with hc | hc | hc
    · exact absurd hc (by decide)
    · exact absurd (h _ hc) (by decide)
    · exact absurd hc (by decide)
  intro rest
  have hkeep : hyperlink.erase ('\x1b' :: '[' :: code ++ ['m'] ++ rest) =
      '\x1b' :: '[' :: code ++ ['m'] ++ hyperlink.erase rest := by
    rw [List.cons_append, List.cons_append, EscapeSequence.erase_cons,
      EscapeSequence.erase_append_of_free hfree]
    · rfl
    · rintro m after ⟨held, -, rfl⟩ heq
      simp [EscapeSequence.opening, hyperlink] at heq
  -- So the second deletion finds it as it was written.
  unfold erase
  rw [hkeep, EscapeSequence.erase_match hm, List.nil_append]

/-- A rendition shows what it renders. -/
theorem shows_rendition {code text : String} (hcode : code.toList.all rendition.inner = true)
    {t : List Char} (ht : Shows text.toList t) : Shows (Style.rendition code text).toList t := by
  have hon := shows_switch hcode
  have hoff : Shows Style.reset.toList [] := @shows_switch ['0'] (by decide)
  have hall := (hon.append ht).append hoff
  rw [List.nil_append, List.append_nil] at hall
  unfold Style.rendition
  simpa [Style.escape] using hall

/-! ### The three decorations -/

theorem shows_bold (style : Style) {text : String} {t : List Char} (h : Shows text.toList t) :
    Shows (style.bold text).toList t := by
  cases style with
  | plain => exact h
  | ansi hyperlinks => exact shows_rendition (by decide) h

theorem shows_state (style : Style) (s : DisplayState) {text : String} {t : List Char}
    (h : Shows text.toList t) : Shows (style.state s text).toList t := by
  have hcode : ∀ d, (Style.color d).toList.all rendition.inner = true := by
    intro d
    cases d <;> decide
  cases style with
  | plain => exact h
  | ansi hyperlinks => exact shows_rendition (hcode s) h

/-- A link shows its text, if no escape character stands in the address. -/
theorem shows_link (style : Style) {text url : String} (hurl : '\x1b' ∉ url.toList) {t : List Char}
    (h : Shows text.toList t) : Shows (style.link text url).toList t := by
  match style with
  | .plain => exact h
  | .ansi false => exact h
  | .ansi true =>
    -- The text stands between two marks, of which the second has an empty address.
    have hall := ((shows_linkMark hurl).append h).append (@shows_linkMark "" (by decide))
    rw [List.nil_append, List.append_nil] at hall
    change Shows (Style.linkMark url ++ text ++ Style.linkMark "").toList t
    rwa [String.toList_append, String.toList_append]

/-! ### Cells and rows -/

/-- A cell that is written as its text. -/
def bare (cell : Cell) : Cell := Cell.plain cell.text

theorem map_bare_of_written {row : List Cell} (h : ∀ cell ∈ row, cell.written = cell.text) :
    row.map bare = row := by
  conv_rhs => rw [← List.map_id row]
  refine List.map_congr_left (fun cell hcell => ?_)
  obtain ⟨text, written⟩ := cell
  obtain rfl : written = text := h _ hcell
  rfl

/-- Without its decoration a report has the rows of the plain one. -/
theorem map_bare_rows (style : Style) (now : Moment) (runs : List Run) :
    (Report.rows style now runs).map (·.map bare) = Report.rows .plain now runs := by
  -- Bare rows are made from the texts alone, which are the same in all styles.
  have hbare : ∀ s, (Report.rows s now runs).map (·.map bare) =
      (Report.rowTexts now runs).map (·.map Cell.plain) := by
    intro s
    rw [← Report.map_text_rows s, List.map_map]
    refine List.map_congr_left (fun row _ => ?_)
    rw [Function.comp_apply, List.map_map]
    rfl
  rw [hbare style, ← hbare .plain]
  conv_rhs => rw [← List.map_id (Report.rows .plain now runs)]
  exact List.map_congr_left
    (fun row hrow => map_bare_of_written (Report.written_of_mem_rows_plain hrow))

/-- Every cell of a row is seen as its text, if no text of the run holds the escape character. -/
theorem shows_of_mem_row {style : Style} {now : Moment} {run : Run}
    (hrun : ∀ t ∈ run.texts, '\x1b' ∉ t.toList) {cell : Cell}
    (hcell : cell ∈ Cell.row style now run) : Shows cell.written.toList cell.text.toList := by
  have hfree : Shows cell.text.toList cell.text.toList := by
    refine shows_of_free (fun hc => ?_)
    rcases Cell.mem_row hcell hc with h | ⟨t, ht, hmem, -⟩
    · exact Cell.ne_escape_of_isOwn h rfl
    · exact hrun t ht hmem
  have hurl : '\x1b' ∉ (run.shaUrl.getD "").toList := by
    cases hu : run.shaUrl with
    | none => decide
    | some url => exact hrun url (by simp [Run.texts, hu])
  simp only [Cell.row, List.mem_cons, List.not_mem_nil, or_false] at hcell
  -- Only the cells of the state and of the commit are decorated.
  rcases hcell with rfl | rfl | rfl | rfl | rfl | rfl | rfl | rfl
  · exact shows_state style _ hfree
  · exact hfree
  · simp only [Cell.commit] at hfree ⊢
    split
    · exact hfree
    · exact shows_link style hurl hfree
  all_goals exact hfree

/-- Each cell of a table shows its text. -/
theorem shows_of_mem_rows {style : Style} {now : Moment} {runs : List Run}
    (hruns : ∀ run ∈ runs, ∀ t ∈ run.texts, '\x1b' ∉ t.toList) {row : List Cell}
    (hrow : row ∈ Report.rows style now runs) :
    ∀ cell ∈ row, Shows cell.written.toList cell.text.toList := by
  intro cell hcell
  rcases List.mem_cons.mp hrow with rfl | hrow
  · obtain ⟨s, hs, rfl⟩ := List.mem_map.mp hcell
    refine shows_bold style (shows_of_free (fun hc => ?_))
    exact Cell.ne_escape_of_isOwn (Cell.ownText_headings s hs _ hc) rfl
  · obtain ⟨run, hrun, rfl⟩ := List.mem_map.mp hrow
    exact shows_of_mem_row (hruns run ((Run.display_perm runs).mem_iff.mp hrun)) hcell

/-! ### Lines and reports -/

/-- A row shows what it shows without decoration. -/
theorem shows_body {row : List Cell} (h : ∀ cell ∈ row, Shows cell.written.toList cell.text.toList)
    (ws : List Nat) : Shows (Report.body ws row).toList (Report.body ws (row.map bare)).toList := by
  -- Induction on the columns; what stands between two of them is kept as it is.
  induction row generalizing ws with
  | nil => exact shows_of_free (by simp [Report.body, Report.padded])
  | cons cell rest ih =>
    have hcell := h cell List.mem_cons_self
    have hrest := fun d hd => h d (List.mem_cons_of_mem _ hd)
    cases rest with
    | nil =>
      rw [List.map_cons, List.map_nil, Report.body_singleton, Report.body_singleton]
      exact hcell
    | cons next rest =>
      have hsep : Shows Report.separator.toList Report.separator.toList := shows_of_free (by decide)
      have htail := ih hrest ws.tail
      rw [List.map_cons] at htail
      rw [List.map_cons, List.map_cons, Report.body_cons, Report.body_cons]
      simp only [String.toList_append]
      exact ((hcell.append (shows_spaces _)).append hsep).append htail

theorem shows_intercalate {sep : String} (hsep : '\x1b' ∉ sep.toList) {as bs : List String}
    (h : List.Forall₂ (fun a b => Shows a.toList b.toList) as bs) :
    Shows (String.intercalate sep as).toList (String.intercalate sep bs).toList := by
  induction h with
  | nil => exact shows_of_free (by simp)
  | @cons a b as bs hab htail ih =>
    cases htail with
    | nil => simpa using hab
    | cons hab' htail' =>
      rw [String.intercalate_cons_cons, String.intercalate_cons_cons]
      simp only [String.toList_append]
      exact (hab.append (shows_of_free hsep)).append ih

/-- The widths of the columns do not depend on the decoration. -/
theorem widths_map_bare (rows : List (List Cell)) :
    Report.widths (rows.map (·.map bare)) = Report.widths rows := by
  refine List.map_congr_left (fun i _ => ?_)
  rw [List.map_map]
  refine congrArg Report.greatest (List.map_congr_left (fun row _ => ?_))
  rw [Function.comp_apply, List.getElem?_map, Option.map_map]
  rfl

/-- A table is seen, line by line, as the plain one. -/
theorem shows_table {style : Style} {now : Moment} {runs : List Run}
    (hruns : ∀ run ∈ runs, ∀ t ∈ run.texts, '\x1b' ∉ t.toList) :
    List.Forall₂ (fun a b => Shows a.toList b.toList) (Report.table (Report.rows style now runs))
      (Report.table (Report.rows .plain now runs)) := by
  rw [Report.table_rows, Report.table_rows, ← map_bare_rows style, widths_map_bare, List.map_map,
    List.forall₂_map_left_iff, List.forall₂_map_right_iff, List.forall₂_same]
  exact fun row hrow => shows_body (shows_of_mem_rows hruns hrow) _

theorem shows_header {style : Style} {repo : Repository} (h : ∀ s ∈ repo.texts, '\x1b' ∉ s.toList) :
    List.Forall₂ (fun a b => Shows a.toList b.toList) (Report.header style repo)
      (Report.header .plain repo) := by
  have hurl : '\x1b' ∉ (if repo.url = "" then Cell.dash else repo.url).toList := by
    split
    · decide
    · exact h _ (by simp [Repository.texts])
  have hlabel : ∀ l ∈ ["Name:", "Namespace:", "URL:"], '\x1b' ∉ l.toList := by decide
  have hfield : ∀ f ∈ Report.fields repo, '\x1b' ∉ f.1.toList ∧ '\x1b' ∉ f.2.toList := by
    intro f hf
    simp only [Report.fields, List.mem_cons, List.not_mem_nil, or_false] at hf
    rcases hf with rfl | rfl | rfl
    · exact ⟨hlabel _ (by simp), h _ (by simp [Repository.texts])⟩
    · exact ⟨hlabel _ (by simp), h _ (by simp [Repository.texts])⟩
    · exact ⟨hlabel _ (by simp), hurl⟩
  unfold Report.header
  rw [List.forall₂_map_left_iff, List.forall₂_map_right_iff, List.forall₂_same]
  intro f hf
  obtain ⟨hleft, hright⟩ := hfield f hf
  simp only [String.toList_append, Style.bold_plain]
  exact ((shows_bold style (shows_of_free hleft)).append (shows_spaces _)).append
    (shows_of_free hright)

/-- Line by line, a report shows what it is in plain style. -/
theorem shows_lines {style : Style} {now : Moment} {repo : Repository}
    (h : ∀ s ∈ repo.texts, '\x1b' ∉ s.toList) :
    List.Forall₂ (fun a b => Shows a.toList b.toList) (Report.lines style now repo)
      (Report.lines .plain now repo) := by
  have hruns : ∀ run ∈ repo.runs, ∀ t ∈ run.texts, '\x1b' ∉ t.toList := by
    intro run hrun t ht
    exact h t (List.mem_append_right _ (List.mem_flatMap.mpr ⟨run, hrun, ht⟩))
  unfold Report.lines
  refine List.rel_append (shows_header h) (List.Forall₂.cons (shows_of_free (by decide)) ?_)
  split
  · exact List.Forall₂.cons (shows_of_free (by decide)) List.Forall₂.nil
  · exact shows_table hruns

/-- **A styled report is seen as the plain one.** If no text of a Repository holds the escape
character, then deleting the hyperlinks and after them the renditions from its report in colours,
with hyperlinks or without, leaves the report in plain style, byte for byte. -/
theorem visible_render (repo : Repository) (now : Moment) (hyperlinks : Bool)
    (h : ∀ s ∈ repo.texts, '\x1b' ∉ s.toList) :
    visible (Report.render repo now (.ansi hyperlinks)) = Report.render repo now .plain := by
  have hlines : Shows (String.intercalate "\n" (Report.lines (.ansi hyperlinks) now repo)).toList
      (String.intercalate "\n" (Report.lines .plain now repo)).toList :=
    shows_intercalate (by decide) (shows_lines h)
  have hend : Shows "\n".toList "\n".toList := shows_of_free (by decide)
  have hall := (hlines.append hend) []
  rw [List.append_nil] at hall
  unfold visible Report.render
  rw [String.toList_append, hall, ← String.toList_append]
  change String.ofList (_ ++ []) = _
  rw [List.append_nil, String.ofList_toList]

theorem visible_render_ragged :
    (∀ s ∈ Report.raggedRepository.texts, '\x1b' ∉ s.toList) ∧
    visible (Report.render Report.raggedRepository (Moment.utc 0) (.ansi true)) =
      Report.render Report.raggedRepository (Moment.utc 0) .plain := by
  have hfree : ∀ s ∈ Report.raggedRepository.texts, '\x1b' ∉ s.toList := by decide
  exact ⟨hfree, visible_render _ _ _ hfree⟩

example : visible "\x1b[1mab\x1b]8;;u\x1b\\c\x1b[0;2m" = "abc" := by decide

end Escape

end PipelineRuns
