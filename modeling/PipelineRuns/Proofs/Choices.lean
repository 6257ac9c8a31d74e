import PipelineRuns.Proofs.Answers
import PipelineRuns.Proofs.Lists

/-!
# What a choice of options comes to

A choice between options is to be decided by the first line that is one: a blank line, a number that
counts an option, or the text of an option (`Console.IsChoice`). Which option it is says
`Console.Chooses`, and what is said and left unread meanwhile is `Console.Choice`, with a second
clause for an input that ends before.

A line is looked at twice where it is made of digits: once to see that it is, and once for its
number. The two looks do not agree on all texts. There are digits that belong to no decimal system,
and a number is read from so many digits at most (`Text.decimal?_eq_none_iff`). A line of digits
without a number is one over which the question *stumbles* (`Console.Stumbles`): it ends the
question with a failure, be the line the text of an option or not. So a choice comes out as it is to
be exactly if there is no such line up to the one that decides.

Main statement: `Console.select_outcome`. A superscript two is seen after it.
-/

namespace PipelineRuns

/-! ### Digits and numbers -/

namespace Text

/-- What writes no number is empty, or too long, or holds something that is no decimal digit. -/
theorem decimal?_eq_none_iff {s : List Char} :
    decimal? s = none ↔ s = [] ∨ maxDigits < s.length ∨ ∃ c ∈ s, digitValue? c = none := by
  unfold decimal?
  by_cases hempty : s = []
  · simp [hempty]
  by_cases hlong : maxDigits < s.length
  · simp [hlong]
  · simp [hempty, hlong, mapM_eq_none_iff]

end Text

namespace Console

variable {options lines rejected rest : List String} {default line option : String}

theorem isNumeral_iff {s : String} :
    isNumeral s = true ↔ s ≠ "" ∧ ∀ c ∈ s.toList, Text.isDigit c = true := by
  unfold isNumeral
  rw [Bool.and_eq_true, decide_eq_true_eq, List.all_eq_true]

/-- The number on a line, blanks on either side apart. -/
def number? (line : String) : Option Nat :=
  Text.decimal? (Text.strip line).toList

/-- A line of digits that writes no number. -/
def Stumbles (line : String) : Prop :=
  isNumeral (Text.strip line) = true ∧ number? line = none

/-- The digits are too many, or one of them is no decimal digit. -/
theorem stumbles_iff : Stumbles line ↔ isNumeral (Text.strip line) = true ∧
    (Text.maxDigits < (Text.strip line).toList.length ∨
      ∃ c ∈ (Text.strip line).toList, Text.digitValue? c = none) := by
  unfold Stumbles number?
  refine and_congr_right (fun hnumeral => ?_)
  rw [Text.decimal?_eq_none_iff, or_iff_right]
  exact fun hempty => (isNumeral_iff.mp hnumeral).1 (String.toList_inj.mp hempty)

/-- A number is written with digits. -/
theorem isNumeral_of_number? {n : Nat} (h : number? line = some n) :
    isNumeral (Text.strip line) = true := by
  have hsome : ¬ number? line = none := by
    rw [h]
    exact Option.some_ne_none n
  rw [number?, Text.decimal?_eq_none_iff, not_or, not_or] at hsome
  obtain ⟨hne, -, hall⟩ := hsome
  refine isNumeral_iff.mpr ⟨fun hempty => hne (by rw [hempty]; rfl), fun c hc => ?_⟩
  have hvalue : (Text.digitValue? c).isSome = true :=
    Option.isSome_iff_ne_none.mpr (fun hnone => hall ⟨c, hc, hnone⟩)
  unfold Text.isDigit
  rw [hvalue, Bool.true_or]

/-! ### Lines that decide -/

/-- A line that decides a choice: it is blank, a number between 1 and the number of options, or the
text of an option. -/
def IsChoice (options : List String) (line : String) : Prop :=
  Text.isBlankText line = true ∨ (∃ n, number? line = some n ∧ 1 ≤ n ∧ n ≤ options.length) ∨
    Text.strip line ∈ options

/-- What a line decides. A number comes before a text, as an option may have the text of a
number. -/
inductive Chooses (options : List String) (default line : String) : String → Prop
  | blank (hblank : Text.isBlankText line = true) : Chooses options default line default
  | number {n : Nat} {option : String} (hnumber : number? line = some (n + 1))
      (hoption : options[n]? = some option) :
      Chooses options default line option
  | text (hblank : Text.isBlankText line = false)
      (hnumber : ∀ n, number? line = some n → ¬ (1 ≤ n ∧ n ≤ options.length))
      (hmem : Text.strip line ∈ options) :
      Chooses options default line (Text.strip line)

/-- The default is chosen, or one of the options. -/
theorem Chooses.mem (h : Chooses options default line option) :
    option = default ∨ option ∈ options := by
  cases h with
  | blank => exact Or.inl rfl
  | number _ hoption => exact Or.inr (List.mem_of_getElem? hoption)
  | text _ _ hmem => exact Or.inr hmem

theorem exists_chooses (default : String) (h : IsChoice options line) :
    ∃ option, Chooses options default line option := by
  by_cases hblank : Text.isBlankText line = true
  · exact ⟨default, .blank hblank⟩
  rw [Bool.not_eq_true] at hblank
  by_cases hnumber : ∃ n, number? line = some n ∧ 1 ≤ n ∧ n ≤ options.length
  · obtain ⟨n, hn, hle, hlength⟩ := hnumber
    obtain ⟨k, rfl⟩ : ∃ k, n = k + 1 := ⟨n - 1, by omega⟩
    exact ⟨options[k], .number hn (List.getElem?_eq_getElem (by omega))⟩
  · have hmem : Text.strip line ∈ options := by
      rcases h with hb | hn | hmem
      · exact absurd (hblank.symm.trans hb) Bool.false_ne_true
      · exact absurd hn hnumber
      · exact hmem
    exact ⟨_, .text hblank (fun n hn hrange => hnumber ⟨n, hn, hrange⟩) hmem⟩

theorem decideByText_of_mem {s : String} (h : s ∈ options) :
    decideByText options s = some (.ok s) := by
  unfold decideByText
  rw [if_pos (List.contains_iff_mem.mpr h)]

theorem decideByText_of_notMem {s : String} (h : s ∉ options) : decideByText options s = none := by
  unfold decideByText
  rw [if_neg (fun hmem => h (List.contains_iff_mem.mp hmem))]

theorem decideOption_of_isBlankText (h : Text.isBlankText line = true) :
    decideOption options default line = some (.ok default) := by
  unfold decideOption
  dsimp only
  rw [if_pos (Text.strip_eq_empty_iff.mpr h)]

theorem decideOption_of_stumbles (h : Stumbles line) :
    decideOption options default line = some (.error .badValue) := by
  have hnone : Text.decimal? (Text.strip line).toList = none := h.2
  unfold decideOption
  dsimp only
  rw [if_neg (isNumeral_iff.mp h.1).1, if_pos h.1, hnone]

/-- Without a number in the range of the options, a line is compared with their texts. -/
theorem decideOption_eq_byText (hblank : Text.isBlankText line = false)
    (hstumbles : ¬ Stumbles line)
    (hnumber : ∀ n, number? line = some n → ¬ (1 ≤ n ∧ n ≤ options.length)) :
    decideOption options default line = decideByText options (Text.strip line) := by
  have hne : Text.strip line ≠ "" := fun hempty =>
    Bool.false_ne_true (hblank.symm.trans (Text.strip_eq_empty_iff.mp hempty))
  unfold decideOption
  dsimp only
  rw [if_neg hne]
  split
  case isFalse => rfl
  -- A numeral that is not stumbled over has a value, which counts no option here.
  case isTrue hnumeral =>
    cases hvalue : Text.decimal? (Text.strip line).toList with
    | none => exact absurd ⟨hnumeral, hvalue⟩ hstumbles
    | some n =>
      cases n with
      | zero => rfl
      | succ k =>
        have hrange := hnumber (k + 1) hvalue
        have hnone : options[k]? = none := List.getElem?_eq_none (by omega)
        dsimp only
        rw [hnone]

/-- A line that decides a choice is taken as it is meant, unless it is stumbled over. -/
theorem decideOption_of_chooses (h : Chooses options default line option)
    (hstumbles : ¬ Stumbles line) : decideOption options default line = some (.ok option) := by
  cases h with
  | blank hblank => exact decideOption_of_isBlankText hblank
  | number hnumber hoption =>
    have hnumeral := isNumeral_of_number? hnumber
    unfold number? at hnumber
    unfold decideOption
    dsimp only
    rw [if_neg (isNumeral_iff.mp hnumeral).1, if_pos hnumeral, hnumber]
    dsimp only
    rw [hoption]
  | text hblank hnumber hmem =>
    rw [decideOption_eq_byText hblank hstumbles hnumber, decideByText_of_mem hmem]

theorem decideOption_eq_none_iff :
    decideOption options default line = none ↔ ¬ IsChoice options line ∧ ¬ Stumbles line := by
  constructor
  · intro h
    have hstumbles : ¬ Stumbles line := fun hstumbles =>
      nomatch h.symm.trans (decideOption_of_stumbles hstumbles)
    refine ⟨fun hchoice => ?_, hstumbles⟩
    obtain ⟨option, hchooses⟩ := exists_chooses default hchoice
    exact nomatch h.symm.trans (decideOption_of_chooses hchooses hstumbles)
  · rintro ⟨hchoice, hstumbles⟩
    rw [IsChoice, not_or, not_or, Bool.not_eq_true] at hchoice
    obtain ⟨hblank, hnumber, hmem⟩ := hchoice
    rw [decideOption_eq_byText hblank hstumbles (fun n hn hrange => hnumber ⟨n, hn, hrange⟩),
      decideByText_of_notMem hmem]

/-! ### The whole choice -/

/-- What is said before the first line of a choice is read. -/
def menu (message : String) (options : List String) (default : String) : List Utterance :=
  .text ("? " ++ message ++ "\n") :: optionLines default 1 options

/-- What is said on a line that is rejected. -/
def choiceNotice (options : List String) : String :=
  "Please enter a number between 1 and " ++ toString options.length ++ "\n"

/-- What is said in a choice in which these lines were rejected. -/
def choiceSaid (message : String) (options : List String) (default : String)
    (rejected : List String) : List Utterance :=
  menu message options default ++
    (rejections "> " (choiceNotice options) rejected ++ [.prompt "> "])

/-- How a choice is to come out. -/
inductive Choice (message : String) (options : List String) (default : String)
    (lines : List String) :
    Turn (List String) String → Prop
  /-- The first line that is a choice decides; a notice follows each line before it, and those after
  it are left. -/
  | decided {rejected rest : List String} {line option : String}
    (hlines : lines = rejected ++ line :: rest)
      (hrejected : ∀ l ∈ rejected, ¬ IsChoice options l)
      (hchooses : Chooses options default line option) :
      Choice message options default lines
        ⟨choiceSaid message options default rejected, .ok option, rest⟩
  /-- The input ends at the question, as no line is a choice. -/
  | ended (hrejected : ∀ l ∈ lines, ¬ IsChoice options l) :
      Choice message options default lines
      ⟨choiceSaid message options default lines, .error .endOfInput, []⟩

theorem Choice.answer_ne_badValue {message : String} {t : Turn (List String) String}
    (h : Choice message options default lines t) : t.answer ≠ .error .badValue := by
  cases h with
  | decided => exact fun hanswer => nomatch hanswer
  | ended => exact fun hanswer => nomatch hanswer

theorem Choice.mem {message : String} {t : Turn (List String) String}
    (h : Choice message options default lines t) (hanswer : t.answer = .ok option) :
    option = default ∨ option ∈ options := by
  cases h with
  | decided _ _ hchooses =>
    obtain rfl := Except.ok.inj hanswer
    exact hchooses.mem
  | ended => exact nomatch hanswer

/-- The lines up to the first one that the question stumbles over, none of which is a choice. -/
structure StumblesAt (options lines rejected : List String) (line : String) (rest : List String) :
    Prop where
  lines_eq : lines = rejected ++ line :: rest
  rejected : ∀ l ∈ rejected, ¬ IsChoice options l ∧ ¬ Stumbles l
  stumbles : Stumbles line

theorem select_of_decidedBy {answer : Except Failure String} (message : String)
    (h : DecidedBy (decideOption options default) lines rejected line rest answer) :
    select message options default lines =
      ⟨choiceSaid message options default rejected, answer, rest⟩ := by
  unfold select
  dsimp only
  rw [turn_of_decidedBy h]
  rfl

theorem select_of_undecided (message : String)
    (h : ∀ l ∈ lines, decideOption options default l = none) :
    select message options default lines =
      ⟨choiceSaid message options default lines, .error .endOfInput, []⟩ := by
  unfold select
  dsimp only
  rw [turn_of_undecided h]
  rfl

theorem select_of_stumblesAt (message : String) (h : StumblesAt options lines rejected line rest) :
    select message options default lines =
      ⟨choiceSaid message options default rejected, .error .badValue, rest⟩ :=
  select_of_decidedBy message ⟨h.lines_eq,
    fun l hl => decideOption_eq_none_iff.mpr (h.rejected l hl), decideOption_of_stumbles h.stumbles⟩

theorem choice_select_of_not_stumblesAt (message default : String)
    (h : ∀ rejected line rest, ¬ StumblesAt options lines rejected line rest) :
    Choice message options default lines (select message options default lines) := by
  rcases exists_decidedBy_or (decideOption options default) lines with
    ⟨rejected, line, rest, answer, hdecided⟩ | hnone
  · have hrejected : ∀ l ∈ rejected, ¬ IsChoice options l ∧ ¬ Stumbles l := fun l hl =>
      decideOption_eq_none_iff.mp (hdecided.rejected l hl)
    have hstumbles : ¬ Stumbles line :=
      fun hstumbles => h rejected line rest ⟨hdecided.lines_eq, hrejected, hstumbles⟩
    have hchoice : IsChoice options line := by
      by_contra hnot
      exact nomatch hdecided.decided.symm.trans (decideOption_eq_none_iff.mpr ⟨hnot, hstumbles⟩)
    obtain ⟨option, hchooses⟩ := exists_chooses default hchoice
    obtain rfl : answer = .ok option :=
      Option.some.inj (hdecided.decided.symm.trans (decideOption_of_chooses hchooses hstumbles))
    rw [select_of_decidedBy message hdecided]
    exact .decided hdecided.lines_eq (fun l hl => (hrejected l hl).1) hchooses
  · rw [select_of_undecided message hnone]
    exact .ended (fun l hl => (decideOption_eq_none_iff.mp (hnone l hl)).1)

/-- **A choice of options.** It comes out as it is to be exactly if the question stumbles over no
line before one decides. The line that it stumbles over ends it with a failure: the notices are
those of the lines before it, and the lines after it are left. Such a line is made of digits that
are too many, or not all of a decimal system. In any case nothing is chosen but the default and the
options. -/
theorem select_outcome (message : String) (options : List String) (default : String)
    (lines : List String) :
    (Choice message options default lines (select message options default lines) ↔
      ∀ rejected line rest, ¬ StumblesAt options lines rejected line rest) ∧
    (∀ rejected line rest, StumblesAt options lines rejected line rest →
      select message options default lines =
        ⟨choiceSaid message options default rejected, .error .badValue, rest⟩) ∧
    (∀ line, Stumbles line ↔
      (Text.strip line ≠ "" ∧ ∀ c ∈ (Text.strip line).toList, Text.isDigit c = true) ∧
        (Text.maxDigits < (Text.strip line).toList.length ∨
          ∃ c ∈ (Text.strip line).toList, Text.digitValue? c = none)) ∧
    ∀ option, (select message options default lines).answer = .ok option →
      option = default ∨ option ∈ options := by
  refine ⟨⟨fun hchoice rejected line rest hstumbles => ?_,
    choice_select_of_not_stumblesAt message default⟩, fun _ _ _ => select_of_stumblesAt message,
    fun line => ?_, fun option hoption => ?_⟩
  · rw [select_of_stumblesAt message hstumbles] at hchoice
    exact hchoice.answer_ne_badValue rfl
  · rw [stumbles_iff, isNumeral_iff]
  · -- Where the question stumbles over a line, there is no answer.
    by_cases hstumbles : ∃ rejected line rest, StumblesAt options lines rejected line rest
    · obtain ⟨rejected, line, rest, hat⟩ := hstumbles
      rw [select_of_stumblesAt message hat] at hoption
      nomatch hoption
    · exact (choice_select_of_not_stumblesAt message default
        (fun rejected line rest hat => hstumbles ⟨rejected, line, rest, hat⟩)).mem hoption

/-- A superscript two is a digit, but no number: the question ends at it, and is not put again. -/
theorem select_not_always_choice :
    ¬ ∀ message options default lines,
      Choice message options default lines (select message options default lines) := by
  intro hall
  have hanswer : (select "Event?" ["a", "b"] "a" ["²", "1"]).answer = .error .badValue := by
    decide +kernel
  exact (hall "Event?" ["a", "b"] "a" ["²", "1"]).answer_ne_badValue hanswer

end Console

end PipelineRuns
