import PipelineRuns.Prompt
import PipelineRuns.Proofs.Text

/-!
# The line that decides a question

A question at the console is repeated until a line decides it. So only one line of the input
matters: the first one that decides (`Console.DecidedBy`). The lines before it are rejected, each
with a notice, and the lines after it are left for the next question; where no line decides, all of
them are read and the input has ended. These are `Console.turn_of_decidedBy` and
`Console.turn_of_undecided`, and there is no third case (`Console.exists_decidedBy_or`).

For a yes or no the lines that decide are those of `Console.Decides`: blank ones, and those whose
word is `y`, `yes`, `n` or `no`. `Console.answer_confirm_eq_yes_iff` says when the answer is yes.
-/

namespace PipelineRuns

/-! ### Words of a line -/

namespace Text

/-- Small letters make no text empty. -/
theorem toLower_eq_empty_iff {s : String} : toLower s = "" ↔ s = "" := by
  have himage (c : Char) : lowerChar c ≠ [] := by
    unfold lowerChar
    split
    · exact List.cons_ne_nil _ _
    · split
      · exact List.cons_ne_nil _ _
      · exact List.cons_ne_nil _ _
  unfold toLower
  rw [← String.toList_inj, ← String.toList_inj, String.toList_ofList]
  cases s.toList with
  | nil => simp [lower]
  | cons c rest => simp [lower, himage]

end Text

namespace Console

variable {α : Type} {prompt notice : String} {decide : String → Option (Except Failure α)}
  {lines rejected rest : List String} {line : String} {answer : Except Failure α}

/-! ### The first line that decides -/

/-- The first of the lines that decides a question, the lines before it, which are rejected, and the
lines after it, which are not read. -/
structure DecidedBy (decide : String → Option (Except Failure α)) (lines rejected : List String)
    (line : String) (rest : List String) (answer : Except Failure α) : Prop where
  lines_eq : lines = rejected ++ line :: rest
  rejected : ∀ l ∈ rejected, decide l = none
  decided : decide line = some answer

/-- What is said while lines are rejected. -/
def rejections (prompt notice : String) (rejected : List String) : List Utterance :=
  rejected.flatMap (fun _ => [.prompt prompt, .text notice])

theorem turn_cons_of_rejected (h : decide line = none) :
    turn prompt notice decide (line :: rest) =
      { turn prompt notice decide rest with
        said := .prompt prompt :: .text notice :: (turn prompt notice decide rest).said } := by
  rw [turn, h]

/-- Lines that are rejected change nothing but what is said before the others are read. -/
theorem turn_append_of_rejected (h : ∀ l ∈ rejected, decide l = none) :
    turn prompt notice decide (rejected ++ rest) =
      { turn prompt notice decide rest with
        said := rejections prompt notice rejected ++ (turn prompt notice decide rest).said } := by
  induction rejected with
  | nil => rfl
  | cons l more ih =>
    have hl : decide l = none := h l List.mem_cons_self
    have hmore : ∀ l ∈ more, decide l = none := fun l hmem => h l (List.mem_cons_of_mem _ hmem)
    rw [List.cons_append, turn_cons_of_rejected hl, ih hmore]
    rfl

/-- The first line that decides gives the answer; a notice follows every line before it, and the
lines after it are still there. -/
theorem turn_of_decidedBy (h : DecidedBy decide lines rejected line rest answer) :
    turn prompt notice decide lines =
      ⟨rejections prompt notice rejected ++ [.prompt prompt], answer, rest⟩ := by
  have hlast : turn prompt notice decide (line :: rest) = ⟨[.prompt prompt], answer, rest⟩ := by
    rw [turn, h.decided]
  rw [h.lines_eq, turn_append_of_rejected h.rejected, hlast]

/-- Where no line decides, the input ends at the question. -/
theorem turn_of_undecided (h : ∀ l ∈ lines, decide l = none) :
    turn prompt notice decide lines =
      ⟨rejections prompt notice lines ++ [.prompt prompt], .error .endOfInput, []⟩ := by
  have hall : turn prompt notice decide (lines ++ []) =
      ⟨rejections prompt notice lines ++ [.prompt prompt], .error .endOfInput, []⟩ :=
        turn_append_of_rejected h
  rwa [List.append_nil] at hall

variable (decide lines) in
/-- There is a first line that decides, or none does. -/
theorem exists_decidedBy_or :
    (∃ rejected line rest answer, DecidedBy decide lines rejected line rest answer) ∨
      ∀ l ∈ lines, decide l = none := by
  induction lines with
  | nil => exact Or.inr (fun l hl => nomatch hl)
  | cons l more ih =>
    cases hl : decide l with
    | some answer => exact Or.inl ⟨[], l, more, answer, rfl, fun _ h => (nomatch h), hl⟩
    | none =>
      -- `l` is one more line that is rejected, whatever follows it.
      rcases ih with ⟨rejected, line, rest, answer, h⟩ | hnone
      · refine Or.inl ⟨l :: rejected, line, rest, answer, ?_, ?_, h.decided⟩
        · rw [h.lines_eq, List.cons_append]
        · exact List.forall_mem_cons.mpr ⟨hl, h.rejected⟩
      · exact Or.inr (List.forall_mem_cons.mpr ⟨hl, hnone⟩)

/-- A turn gives an answer exactly if the first line that decides gives it. -/
theorem answer_turn_eq_ok_iff {a : α} :
    (turn prompt notice decide lines).answer = .ok a ↔
      ∃ rejected line rest, DecidedBy decide lines rejected line rest (.ok a) := by
  constructor
  · intro h
    rcases exists_decidedBy_or decide lines with ⟨rejected, line, rest, answer, hdecided⟩ | hnone
    · rw [turn_of_decidedBy hdecided] at h
      obtain rfl : answer = .ok a := h
      exact ⟨rejected, line, rest, hdecided⟩
    · rw [turn_of_undecided hnone] at h
      exact nomatch h
  · rintro ⟨rejected, line, rest, h⟩
    rw [turn_of_decidedBy h]

/-! ### Yes or no -/

/-- The word on a line: what is left of it without the blanks on either side, in small letters. -/
def word (line : String) : String :=
  Text.toLower (Text.strip line)

/-- A line that decides a yes or no. -/
def Decides (line : String) : Prop :=
  Text.isBlankText line = true ∨ word line ∈ ["y", "yes", "n", "no"]

/-- A line that says yes to a question with this default. -/
def SaysYes (default : Bool) (line : String) : Prop :=
  word line ∈ ["y", "yes"] ∨ Text.isBlankText line = true ∧ default = true

theorem word_eq_empty_iff : word line = "" ↔ Text.isBlankText line = true := by
  unfold word
  rw [Text.toLower_eq_empty_iff, Text.strip_eq_empty_iff]

/-- How a line is read: as the default if it is blank, else by its word. -/
theorem decideConfirmation_eq (default : Bool) (line : String) :
    decideConfirmation default line =
      if Text.isBlankText line = true then some (.ok default)
      else if word line ∈ ["y", "yes"] then some (.ok true)
      else if word line ∈ ["n", "no"] then some (.ok false)
      else none := by
  have hblank : Text.toLower (Text.strip line) = "" ↔ Text.isBlankText line = true :=
    word_eq_empty_iff
  unfold decideConfirmation word
  simp only [hblank, Bool.or_eq_true, decide_eq_true_eq, List.mem_cons, List.not_mem_nil, or_false]

theorem decideConfirmation_eq_none_iff {default : Bool} :
    decideConfirmation default line = none ↔ ¬ Decides line := by
  rw [decideConfirmation_eq]
  unfold Decides
  by_cases hblank : Text.isBlankText line = true
  · simp [hblank]
  by_cases hyes : word line ∈ ["y", "yes"]
  · rw [if_neg hblank, if_pos hyes]
    have hmem : word line ∈ ["y", "yes", "n", "no"] := List.mem_append_left ["n", "no"] hyes
    simp [hmem]
  by_cases hno : word line ∈ ["n", "no"]
  · rw [if_neg hblank, if_neg hyes, if_pos hno]
    have hmem : word line ∈ ["y", "yes", "n", "no"] := List.mem_append_right ["y", "yes"] hno
    simp [hmem]
  · rw [if_neg hblank, if_neg hyes, if_neg hno]
    have hnone : word line ∉ ["y", "yes", "n", "no"] := fun hmem =>
      (List.mem_append (s := ["y", "yes"]).mp hmem).elim hyes hno
    simp [hblank, hnone]

theorem decideConfirmation_eq_yes_iff {default : Bool} :
    decideConfirmation default line = some (.ok true) ↔ SaysYes default line := by
  rw [decideConfirmation_eq]
  unfold SaysYes
  by_cases hblank : Text.isBlankText line = true
  · -- A blank line has no word, so it takes the default.
    have hword : word line ∉ ["y", "yes"] := by
      rw [word_eq_empty_iff.mpr hblank]
      decide
    simp [hblank, hword]
  by_cases hyes : word line ∈ ["y", "yes"]
  · rw [if_neg hblank, if_pos hyes]
    simp [hyes]
  · rw [if_neg hblank, if_neg hyes]
    simp [hblank, hyes]

/-- A yes or no is answered with yes exactly if the first line that decides says so. -/
theorem answer_confirm_eq_yes_iff {message : String} {default : Bool} :
    (confirm message default lines).answer = .ok true ↔
      ∃ rejected line rest, lines = rejected ++ line :: rest ∧ (∀ l ∈ rejected, ¬ Decides l) ∧
        SaysYes default line := by
  unfold confirm
  rw [answer_turn_eq_ok_iff]
  constructor
  · rintro ⟨rejected, line, rest, h⟩
    exact ⟨rejected, line, rest, h.lines_eq,
      fun l hl => decideConfirmation_eq_none_iff.mp (h.rejected l hl),
      decideConfirmation_eq_yes_iff.mp h.decided⟩
  · rintro ⟨rejected, line, rest, hlines, hrejected, hyes⟩
    exact ⟨rejected, line, rest, hlines,
      fun l hl => decideConfirmation_eq_none_iff.mpr (hrejected l hl),
      decideConfirmation_eq_yes_iff.mpr hyes⟩

/-- Without a line that decides, the answer to a yes or no is that the input has ended. -/
theorem answer_confirm_of_undecided {message : String} {default : Bool}
    (h : ∀ l ∈ lines, ¬ Decides l) :
    (confirm message default lines).answer = .error .endOfInput := by
  unfold confirm
  rw [turn_of_undecided (fun l hl => decideConfirmation_eq_none_iff.mpr (h l hl))]

end Console

end PipelineRuns
