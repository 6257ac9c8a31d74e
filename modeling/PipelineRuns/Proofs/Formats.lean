import PipelineRuns.Proofs.Lists
import PipelineRuns.Proofs.Text
import PipelineRuns.Journal.Format

/-!
# Formats of standard fields

A format is a text of `Piece`s: characters that stand for themselves, doubled percent signs, fields
with the name of a property, and fields without a name, which take the record as a whole. What a
piece is written as (`Piece.text`) and what it shows of a record (`Piece.shown?`) are said for each
kind of piece, and a format is filled by filling its pieces in turn (`Format.line?_eq_mapM`): the
scanner takes it apart where they meet. All that one piece leaves to the next is whether the record
is still whole, so the order of the pieces matters where a field has no name (`InOrder`).

Not each conversion suits each value: the text of a note cannot be shown as a number. Which letters
a value takes says `Property.Takes`, and a field fits a record if its sizes suit its letter and its
property takes it (`Piece.Fits`). If all fields do, and in this order, there is a line
(`exists_mapM_shown?`), and there is none for any other format (`exists_pieces_of_line?`), for
whatever the scanner reads as a field was written as one.
-/

namespace PipelineRuns.Format

/-! ### Values and their letters -/

/-- The letters for values of any kind. -/
def plainLetters : List Char := ['s', 'r', 'a']

/-- The letters for whole numbers, also for fractions cut off to one. -/
def wholeLetters : List Char := ['d', 'i', 'u']

/-- The letters for whole numbers in other bases. -/
def baseLetters : List Char := ['o', 'x', 'X']

/-- The letters for floating point numbers. -/
def floatLetters : List Char := ['e', 'E', 'f', 'F', 'g', 'G']

/-- The letters of conversions. -/
def letters : List Char := 'c' :: plainLetters ++ wholeLetters ++ baseLetters ++ floatLetters

/-- The letters that a value takes. A character is a text of length one or the code of a character,
and a number counts as floating point number if there is one near it. -/
def Property.Takes (letter : Char) : Property → Prop
  | .text t => letter ∈ plainLetters ∨ letter = 'c' ∧ t.length = 1
  | .number n =>
    letter ∈ plainLetters ++ wholeLetters ++ baseLetters ∨
      letter ∈ floatLetters ∧ (nearestFraction? n).isSome = true ∨
      letter = 'c' ∧ 0 ≤ n ∧ n ≤ 0x10ffff
  | .fraction _ => letter ∈ plainLetters ++ wholeLetters ++ floatLetters
  | .object _ => letter ∈ plainLetters

/-- A text is a character where it has one. -/
theorem character?_text_isSome_iff {t : String} :
    (character? (.text t)).isSome = true ↔ t.length = 1 := by
  rw [← String.length_toList, character?]
  match t.toList with
  | [] => simp
  | [c] => simp
  | c :: d :: rest => simp

/-- A number is a character where it is the code of one. -/
theorem character?_number_isSome_iff {n : Int} :
    (character? (.number n)).isSome = true ↔ 0 ≤ n ∧ n ≤ 0x10ffff := by
  simp only [character?, Bool.and_eq_true, decide_eq_true_eq]
  split
  · case isTrue h => exact iff_of_true rfl h
  · case isFalse h => exact iff_of_false nofun h

/-- A conversion succeeds on what its letter takes. -/
theorem converted?_isSome_iff {letter : Char} (hletter : letter ∈ letters) (s : Spec)
    (p : Property) : (converted? s letter p).isSome = true ↔ p.Takes letter := by
  have hfraction : ∀ x, character? (.fraction x) = none := fun _ => rfl
  have hobject : ∀ t, character? (.object t) = none := fun _ => rfl
  simp only [letters, plainLetters, wholeLetters, baseLetters, floatLetters, List.cons_append,
    List.nil_append, List.mem_cons, List.not_mem_nil, or_false] at hletter
  -- One case for each letter and each kind of value.
  rcases hletter with rfl | rfl | rfl | rfl | rfl | rfl | rfl | rfl | rfl | rfl | rfl | rfl | rfl
    | rfl | rfl | rfl
  all_goals
    cases p <;>
      simp [converted?, Property.Takes, plainLetters, wholeLetters, baseLetters, floatLetters,
        whole?, number?, fraction?, character?_text_isSome_iff, character?_number_isSome_iff,
        hfraction, hobject]

/-- A value is converted by the letters that it takes, if the sizes suit the letter. -/
theorem convert?_isSome_iff {letter : Char} (hletter : letter ∈ letters) (s : Spec) (p : Property) :
    (convert? s letter p).isSome = true ↔ s.suits letter = true ∧ p.Takes letter := by
  unfold convert?
  split
  · next hsuits => rw [converted?_isSome_iff hletter, and_iff_right hsuits]
  · next hsuits => exact iff_of_false Bool.false_ne_true (fun h => hsuits h.1)

/-! ### Standard fields -/

/-- The names of properties. -/
def standardNames : List String :=
  ["name", "msg", "args", "levelname", "levelno", "message", "asctime", "created", "msecs",
    "relativeCreated", "pathname", "filename", "module", "funcName", "lineno", "process",
    "processName", "thread", "threadName", "exc_info", "exc_text", "stack_info"]

/-- Each record has the properties with a standard name, and no others. -/
theorem property?_isSome_iff (time : String) (r : Record) {name : String} :
    (property? time r name).isSome = true ↔ name ∈ standardNames := by
  unfold property? standardNames
  split <;> simp_all

/-- No parenthesis stands in the name of a field, so the first one that closes ends the name. -/
theorem ne_of_mem_standardNames {name : String} (hname : name ∈ standardNames) :
    ∀ c ∈ name.toList, c ≠ '(' ∧ c ≠ ')' := by
  have hall : standardNames.Forall
      (fun name => name.toList.Forall (fun c => c ≠ '(' ∧ c ≠ ')')) := by decide
  exact List.forall_iff_forall_mem.mp (List.forall_iff_forall_mem.mp hall name hname)

/-! ### Pieces -/

/-- The marks of a field between its name and its letter. -/
structure Marks where
  flags : List Char := []
  /-- The digits of the width. -/
  width : List Char := []
  /-- The digits of the precision behind its point. -/
  precision : Option (List Char) := none
  length : Option Char := none
  flags_listed : flags.Forall (fun c => isFlag c = true) := by decide
  width_digits : width.Forall (fun c => c.isDigit = true) := by decide
  /-- A zero in front is a flag. -/
  width_head : width.head? ≠ some '0' := by decide
  precision_digits : (precision.getD []).Forall (fun c => c.isDigit = true) := by decide
  length_listed : length.toList ⊆ ['h', 'l', 'L'] := by decide

namespace Marks

variable (m : Marks)

theorem isFlag_of_mem : ∀ c ∈ m.flags, isFlag c = true :=
  List.forall_iff_forall_mem.mp m.flags_listed

theorem isDigit_of_mem_width : ∀ c ∈ m.width, c.isDigit = true :=
  List.forall_iff_forall_mem.mp m.width_digits

theorem isDigit_of_mem_precision : ∀ digits ∈ m.precision, ∀ c ∈ digits, c.isDigit = true := by
  intro digits hdigits
  have hall := m.precision_digits
  rw [Option.mem_def.mp hdigits] at hall
  exact List.forall_iff_forall_mem.mp hall

theorem mem_of_length : ∀ c ∈ m.length, c ∈ ['h', 'l', 'L'] :=
  fun _ hc => m.length_listed (Option.mem_toList.mpr hc)

/-- The text of a precision. -/
def pointed : Option (List Char) → List Char
  | none => []
  | some digits => '.' :: digits

/-- The text of marks. -/
def text : List Char :=
  m.flags ++ (m.width ++ (pointed m.precision ++ m.length.toList))

/-- What marks ask for. -/
def spec : Spec where
  left := '-' ∈ m.flags
  plus := '+' ∈ m.flags
  blank := ' ' ∈ m.flags
  alternate := '#' ∈ m.flags
  zero := '0' ∈ m.flags
  width := Nat.ofDigitChars 10 m.width 0
  precision := m.precision.map (Nat.ofDigitChars 10 · 0)

end Marks

/-- A piece of a format. -/
inductive Piece where
  | plain (c : Char) (ordinary : c ≠ '%')
  | percent
  | field (name : String) (marks : Marks) (letter : Char) (standard : name ∈ standardNames)
      (listed : letter ∈ letters)
  | nameless (marks : Marks) (letter : Char) (listed : letter ∈ letters)

namespace Piece

/-- Whether a piece is a field. -/
def isField : Piece → Bool
  | plain .. | percent => false
  | field .. | nameless .. => true

/-- Whether a piece is a field without a name. -/
def isNameless : Piece → Bool
  | nameless .. => true
  | _ => false

/-- The text of a piece. -/
def text : Piece → List Char
  | plain c _ => [c]
  | percent => ['%', '%']
  | field name m letter _ _ => '%' :: '(' :: (name.toList ++ ')' :: (m.text ++ [letter]))
  | nameless m letter _ => '%' :: (m.text ++ [letter])

/-- What a piece shows of a record that was written at a time. -/
def shown? (time : String) (r : Record) : Piece → Option (List Char)
  | plain c _ => some [c]
  | percent => some ['%']
  | field name m letter _ _ => (property? time r name).bind (convert? m.spec letter)
  | nameless m letter _ => convert? m.spec letter (.object r.origin.whole)

/-- A field fits a record if its sizes suit its letter and its property, or the record as a whole,
takes the letter. -/
def Fits (time : String) (r : Record) : Piece → Prop
  | plain _ _ => True
  | percent => True
  | field name m letter _ _ =>
    m.spec.suits letter = true ∧ ∃ p, property? time r name = some p ∧ p.Takes letter
  | nameless m letter _ =>
    m.spec.suits letter = true ∧ (Property.object r.origin.whole).Takes letter

/-- A piece is shown where it fits. -/
theorem shown?_isSome_iff {time : String} {r : Record} (piece : Piece) :
    (piece.shown? time r).isSome = true ↔ piece.Fits time r := by
  cases piece with
  | plain c hc => exact iff_of_true rfl trivial
  | percent => exact iff_of_true rfl trivial
  | nameless m letter hletter => exact convert?_isSome_iff hletter m.spec _
  | field name m letter hname hletter =>
    obtain ⟨p, hp⟩ := Option.isSome_iff_exists.mp ((property?_isSome_iff time r).mpr hname)
    show ((property? time r name).bind (convert? m.spec letter)).isSome = true ↔ _
    rw [hp, Option.bind_some, convert?_isSome_iff hletter, Fits]
    refine and_congr_right (fun _ => ?_)
    -- A record has one property of a name.
    constructor
    · exact fun htakes => ⟨p, hp, htakes⟩
    · rintro ⟨q, hq, htakes⟩
      rw [hp, Option.some.injEq] at hq
      rwa [hq]

end Piece

/-- Pieces in an order that suits a record which is still whole, or is not: a field without a name
stands before all other fields, and only where the record is whole. -/
structure InOrder (isWhole : Bool) (pieces : List Piece) : Prop where
  first : isWhole = false → ∀ piece ∈ pieces, piece.isNameless = false
  order : pieces.Pairwise (fun p q => q.isNameless = true → p.isField = false)

/-- The first piece leaves the record whole if it is no field. -/
theorem inOrder_cons_iff {isWhole : Bool} {piece : Piece} {pieces : List Piece} :
    InOrder isWhole (piece :: pieces) ↔
      (piece.isNameless = true → isWhole = true) ∧ InOrder (isWhole && !piece.isField) pieces := by
  constructor
  · rintro ⟨hfirst, horder⟩
    obtain ⟨hhead, htail⟩ := List.pairwise_cons.mp horder
    refine ⟨fun hnameless => ?_, fun hleft q hq => ?_, htail⟩
    · by_contra hbroken
      exact absurd
        (hnameless.symm.trans (hfirst ((Bool.not_eq_true _).mp hbroken) piece List.mem_cons_self))
        Bool.noConfusion
    -- The record is no longer whole behind a field, be it this one or one before the format.
    · rw [Bool.and_eq_false_iff, Bool.not_eq_false'] at hleft
      rcases hleft with hbroken | hfield
      · exact hfirst hbroken q (List.mem_cons_of_mem _ hq)
      · by_contra hnameless
        exact absurd (hfield.symm.trans (hhead q hq ((Bool.not_eq_false _).mp hnameless)))
          Bool.noConfusion
  · rintro ⟨hnameless, hfirst, horder⟩
    refine ⟨fun hbroken q hq => ?_, List.pairwise_cons.mpr ⟨fun q hq hq' => ?_, horder⟩⟩
    · rcases List.mem_cons.mp hq with rfl | hq
      · by_contra hq'
        exact absurd (hbroken.symm.trans (hnameless ((Bool.not_eq_false _).mp hq')))
          Bool.noConfusion
      · exact hfirst (by rw [hbroken, Bool.false_and]) q hq
    · by_contra hfield
      rw [Bool.not_eq_false] at hfield
      exact absurd (hq'.symm.trans (hfirst (by rw [hfield, Bool.not_true, Bool.and_false]) q hq))
        Bool.noConfusion

/-- Pieces that fit a record: each of them does, and they are in an order that suits it. -/
structure Fit (time : String) (r : Record) (pieces : List Piece) : Prop where
  each : ∀ piece ∈ pieces, piece.Fits time r
  order : InOrder true pieces

/-! ### Reading marks

Each part of the marks is read up to a character that cannot belong to it, so what each lemma asks
of the rest is about its first character. -/

variable {rest : List Char} {c : Char}

theorem isFlag_iff : isFlag c = true ↔ c = '#' ∨ c = '0' ∨ c = '+' ∨ c = ' ' ∨ c = '-' := by
  simp [isFlag, or_assoc]

/-- No flag is read where none is written. -/
theorem flags_of_head (hrest : ∀ c ∈ rest.head?, isFlag c = false) (s : Spec) :
    flags s rest = (s, rest) := by
  unfold flags
  split
  -- In the last case nothing is read; in the others the rest begins with a flag.
  all_goals first | rfl | exact absurd (hrest _ rfl) (by decide)

/-- Flags are read back, in any order and number. -/
theorem flags_append {fs : List Char} (hfs : ∀ c ∈ fs, isFlag c = true)
    (hrest : ∀ c ∈ rest.head?, isFlag c = false) (s : Spec) :
    flags s (fs ++ rest) =
      ({ s with
          left := s.left || '-' ∈ fs, plus := s.plus || '+' ∈ fs, blank := s.blank || ' ' ∈ fs,
          alternate := s.alternate || '#' ∈ fs, zero := s.zero || '0' ∈ fs }, rest) := by
  induction fs generalizing s with
  | nil => simp [flags_of_head hrest]
  | cons f fs ih =>
    -- The flags behind `f` are read after the one mark that `f` sets.
    have hrec := fun s => ih (fun c hc => hfs c (List.mem_cons_of_mem _ hc)) s
    rcases isFlag_iff.mp (hfs f List.mem_cons_self) with rfl | rfl | rfl | rfl | rfl <;>
      simp [flags, hrec]

/-- Digits are read back as the number that they write. -/
theorem count_append {digits : List Char} (hdigits : ∀ c ∈ digits, c.isDigit = true)
    (hrest : ∀ c ∈ rest.head?, c.isDigit = false) :
    count (digits ++ rest) = (Nat.ofDigitChars 10 digits 0, rest) := by
  have hend : rest.takeWhile Char.isDigit = [] ∧ rest.dropWhile Char.isDigit = rest := by
    cases rest with
    | nil => exact ⟨rfl, rfl⟩
    | cons c rest =>
      have hc : ¬ c.isDigit = true := by
        rw [hrest c rfl]
        exact Bool.false_ne_true
      exact ⟨List.takeWhile_cons_of_neg hc, List.dropWhile_cons_of_neg hc⟩
  rw [count, List.takeWhile_append_of_pos hdigits, List.dropWhile_append_of_pos hdigits, hend.1,
    hend.2, List.append_nil]
  cases digits with
  -- Without digits there is no number, which counts as zero.
  | nil => rfl
  | cons d digits =>
    have hnumber : Text.asciiNat? (d :: digits) = some (Nat.ofDigitChars 10 (d :: digits) 0) :=
      Text.ofDigits_mapM_asciiDigit? hdigits 0
    rw [hnumber, Option.getD_some]

/-- A precision is read back, also one without digits. -/
theorem precision_append {digits? : Option (List Char)}
    (hdigits : ∀ digits ∈ digits?, ∀ c ∈ digits, c.isDigit = true)
    (hrest : ∀ c ∈ rest.head?, c.isDigit = false ∧ c ≠ '.') :
    precision (Marks.pointed digits? ++ rest) = (digits?.map (Nat.ofDigitChars 10 · 0), rest) := by
  cases digits? with
  | none =>
    show precision rest = (none, rest)
    unfold precision
    split
    · exact absurd rfl (hrest _ rfl).2
    · rfl
  | some digits =>
    have hcount := count_append (hdigits digits rfl) (fun c hc => (hrest c hc).1)
    show ((count (digits ++ rest)).map some id) = _
    rw [hcount]
    rfl

/-- The letter of a conversion is no mark. -/
theorem of_mem_letters (hc : c ∈ letters) :
    c ∉ ['h', 'l', 'L'] ∧ isFlag c = false ∧ c.isDigit = false ∧ c ≠ '.' := by
  have hall : letters.Forall
      (fun c => c ∉ ['h', 'l', 'L'] ∧ isFlag c = false ∧ c.isDigit = false ∧ c ≠ '.') := by decide
  exact List.forall_iff_forall_mem.mp hall c hc

/-- A length modifier is passed over. -/
theorem afterLength_append {length : Option Char} (hlength : ∀ c ∈ length, c ∈ ['h', 'l', 'L'])
    {letter : Char} (hletter : letter ∈ letters) :
    afterLength (length.toList ++ letter :: rest) = letter :: rest := by
  cases length with
  | none => exact if_neg (of_mem_letters hletter).1
  | some l => exact if_pos (hlength l rfl)

namespace Marks

variable {letter : Char} (m : Marks)

/-- What stands behind the precision is neither a flag nor a digit nor a point. -/
theorem head?_length (hletter : letter ∈ letters) (rest : List Char) :
    ∀ c ∈ (m.length.toList ++ letter :: rest).head?, isFlag c = false ∧ c.isDigit = false ∧
      c ≠ '.' := by
  intro c hc
  cases hlength : m.length with
  | none =>
    rw [hlength] at hc
    obtain rfl : letter = c := Option.some.inj hc
    exact (of_mem_letters hletter).2
  | some l =>
    rw [hlength] at hc
    obtain rfl : l = c := Option.some.inj hc
    have hall : ['h', 'l',
        'L'].Forall (fun c => isFlag c = false ∧ c.isDigit = false ∧ c ≠ '.') := by decide
    exact List.forall_iff_forall_mem.mp hall l (m.mem_of_length l hlength)

/-- What stands behind the width is neither a flag nor a digit. -/
theorem head?_precision (hrest : ∀ c ∈ rest.head?, isFlag c = false ∧ c.isDigit = false ∧ c ≠ '.') :
    ∀ c ∈ (pointed m.precision ++ rest).head?, isFlag c = false ∧ c.isDigit = false := by
  intro c hc
  cases hprecision : m.precision with
  | none =>
    rw [hprecision] at hc
    obtain ⟨hflag, hdigit, -⟩ := hrest c hc
    exact ⟨hflag, hdigit⟩
  | some digits =>
    rw [hprecision] at hc
    obtain rfl : '.' = c := Option.some.inj hc
    decide

/-- What stands behind the flags is no flag. -/
theorem head?_width (hrest : ∀ c ∈ rest.head?, isFlag c = false ∧ c.isDigit = false) :
    ∀ c ∈ (m.width ++ rest).head?, isFlag c = false := by
  intro c hc
  cases hwidth : m.width with
  | nil =>
    rw [hwidth] at hc
    exact (hrest c hc).1
  | cons d digits =>
    rw [hwidth] at hc
    obtain rfl : d = c := Option.some.inj hc
    have hdigit : d.isDigit = true :=
      m.isDigit_of_mem_width d (by rw [hwidth]; exact List.mem_cons_self)
    by_contra hflag
    rw [Bool.not_eq_false] at hflag
    -- Of the flags a zero alone is a digit.
    rcases isFlag_iff.mp hflag with rfl | rfl | rfl | rfl | rfl
    case inr.inl => exact m.width_head (by rw [hwidth]; rfl)
    all_goals exact absurd hdigit (by decide)

/-- Neither a mark nor the letter of a conversion begins a name or is a percent sign. -/
theorem ne_of_mem_text (hletter : letter ∈ letters) :
    ∀ c ∈ m.text ++ [letter], c ≠ '(' ∧ c ≠ '%' := by
  have hflag : ∀ c, isFlag c = true → c ≠ '(' ∧ c ≠ '%' := by
    rintro c hc
    rcases isFlag_iff.mp hc with rfl | rfl | rfl | rfl | rfl <;> decide
  have hdigit : ∀ c, c.isDigit = true → c ≠ '(' ∧ c ≠ '%' :=
    fun c hc => ⟨fun h => absurd (h ▸ hc) (by decide), fun h => absurd (h ▸ hc) (by decide)⟩
  have hlength : ['h', 'l', 'L'].Forall (fun c => c ≠ '(' ∧ c ≠ '%') := by decide
  have hletters : letters.Forall (fun c => c ≠ '(' ∧ c ≠ '%') := by decide
  -- The marks are flags, digits, a point and a length modifier, and none of them opens a field.
  intro c hc
  simp only [text, List.mem_append, List.mem_singleton] at hc
  rcases hc with (hc | hc | hc | hc) | rfl
  · exact hflag c (m.isFlag_of_mem c hc)
  · exact hdigit c (m.isDigit_of_mem_width c hc)
  · cases hdigits : m.precision with
    | none =>
      rw [hdigits] at hc
      exact nomatch hc
    | some digits =>
      rw [hdigits] at hc
      rcases List.mem_cons.mp hc with rfl | hc
      · decide
      · exact hdigit c (m.isDigit_of_mem_precision digits hdigits c hc)
  · exact List.forall_iff_forall_mem.mp hlength c (m.length_listed hc)
  · exact List.forall_iff_forall_mem.mp hletters c hletter

/-- Marks are read as what they ask for. -/
theorem spec_text_append (hletter : letter ∈ letters) (rest : List Char) :
    Format.spec (m.text ++ letter :: rest) = (m.spec, letter :: rest) := by
  have hlength := m.head?_length hletter rest
  have hprecision := m.head?_precision hlength
  have htext : m.text ++ letter :: rest =
      m.flags ++ (m.width ++ (pointed m.precision ++ (m.length.toList ++ letter :: rest))) := by
    simp only [text, List.append_assoc]
  rw [htext, Format.spec, flags_append m.isFlag_of_mem (m.head?_width hprecision)]
  dsimp only
  rw [count_append m.isDigit_of_mem_width (fun c hc => (hprecision c hc).2)]
  dsimp only
  rw [precision_append m.isDigit_of_mem_precision (fun c hc => (hlength c hc).2)]
  dsimp only
  rw [afterLength_append m.mem_of_length hletter]
  simp [Marks.spec]

end Marks

/-! ### Reading fields -/

/-- A name without parentheses is read up to the one that closes it. -/
theorem fieldName?_append {name : List Char} (hname : ∀ c ∈ name, c ≠ '(' ∧ c ≠ ')') :
    fieldName? 0 (name ++ ')' :: rest) = some (name, rest) := by
  induction name with
  | nil => rfl
  | cons c name ih =>
    -- Without parentheses in the name the depth stays zero.
    obtain ⟨hopen, hclose⟩ := hname c List.mem_cons_self
    have hrec := ih (fun d hd => hname d (List.mem_cons_of_mem _ hd))
    have hstep : fieldName? 0 (c :: (name ++ ')' :: rest)) =
        (fieldName? 0 (name ++ ')' :: rest)).map (fun r => (c :: r.1, r.2)) := by
      rw [fieldName?, if_neg hopen, if_neg hclose]
      exact fun _ => hclose
    rw [List.cons_append, hstep, hrec]
    rfl

variable {time : String} {r : Record}

/-- The marks of a field are read back, and the field is converted by them. -/
theorem filled?_text_append (p : Property) (m : Marks) {letter : Char} (hletter : letter ∈ letters)
    (rest : List Char) :
    filled? p (m.text ++ letter :: rest) = (convert? m.spec letter p).map (·, rest) := by
  rw [filled?, m.spec_text_append hletter]

/-- A field with a name is read back: it converts the property of this name. -/
theorem field?_name {name : String} (hname : name ∈ standardNames) (m : Marks) {letter : Char}
    (hletter : letter ∈ letters) (isWhole : Bool) (rest : List Char) :
    field? time r isWhole ('(' :: (name.toList ++ ')' :: (m.text ++ letter :: rest))) =
      ((property? time r name).bind (convert? m.spec letter)).map
        (fun text => (text, false, rest)) := by
  rw [field?, fieldName?_append (ne_of_mem_standardNames hname)]
  show ((property? time r (String.ofList name.toList)).bind fun p => _) = _
  rw [String.ofList_toList]
  cases property? time r name with
  | none => rfl
  | some p =>
    rw [Option.bind_some, Option.bind_some, filled?_text_append p m hletter]
    cases convert? m.spec letter p <;> rfl

/-- Without a name the record is taken as a whole, if it still is one. -/
theorem field?_nameless (m : Marks) {letter : Char} (hletter : letter ∈ letters) (isWhole : Bool)
    (rest : List Char) :
    field? time r isWhole (m.text ++ letter :: rest) =
      if isWhole then (convert? m.spec letter (.object r.origin.whole)).map
        (fun text => (text, false, rest))
      else none := by
  -- What begins with marks or a letter is taken neither for a name nor for a percent sign.
  have hhead : ∀ c more, m.text ++ letter :: rest = c :: more → c ≠ '(' ∧ c ≠ '%' := by
    intro c more hmore
    refine m.ne_of_mem_text hletter c ?_
    cases htext : m.text with
    | nil =>
      rw [htext] at hmore
      rw [(List.cons.inj hmore).1]
      exact List.mem_cons_self
    | cons d text =>
      rw [htext] at hmore
      rw [(List.cons.inj hmore).1]
      exact List.mem_cons_self
  unfold field?
  split
  case h_1 more hmore => exact absurd rfl (hhead _ _ hmore).2
  case h_2 more hmore => exact absurd rfl (hhead _ _ hmore).1
  case h_3 =>
    rw [filled?_text_append _ m hletter, Option.map_map]
    rfl

/-- Each piece is read where it was written. -/
theorem fill?_text_append (piece : Piece) (isWhole : Bool) (fuel : Nat) (rest : List Char) :
    fill? time r isWhole (fuel + 1) (piece.text ++ rest) =
      if piece.isNameless && !isWhole then none
      else (piece.shown? time r).bind
        (fun text => (fill? time r (isWhole && !piece.isField) fuel rest).map (text ++ ·)) := by
  -- What follows a piece is filled alike for every kind of piece.
  have hstep (text more : List Char) (after : Bool) :
      (fill? time r after fuel more).bind (fun line => some (text ++ line)) =
        (fill? time r after fuel more).map (text ++ ·) := by
    cases fill? time r after fuel more <;> rfl
  cases piece with
  | plain c hc =>
    show fill? time r isWhole (fuel + 1) (c :: rest) =
      (fill? time r (isWhole && true) fuel rest).map (c :: ·)
    rw [fill?, if_neg hc, Bool.and_true]
  | percent =>
    show fill? time r isWhole (fuel + 1) ('%' :: '%' :: rest) =
      (fill? time r (isWhole && true) fuel rest).map (['%'] ++ ·)
    rw [fill?, if_pos rfl, Bool.and_true, field?]
    exact hstep _ _ _
  | field name m letter hname hletter =>
    have htext : (Piece.field name m letter hname hletter).text ++ rest =
        '%' :: '(' :: (name.toList ++ ')' :: (m.text ++ letter :: rest)) := by simp [Piece.text]
    rw [htext, fill?, if_pos rfl, field?_name hname m hletter, Piece.shown?]
    simp only [Piece.isNameless, Piece.isField, Bool.false_and, Bool.false_eq_true, if_false,
      Bool.not_true, Bool.and_false]
    cases (property? time r name).bind (convert? m.spec letter) with
    | none => rfl
    | some text => exact hstep _ _ _
  | nameless m letter hletter =>
    have htext :
        (Piece.nameless m letter hletter).text ++ rest = '%' :: (m.text ++ letter :: rest) := by
      simp [Piece.text]
    rw [htext, fill?, if_pos rfl, field?_nameless m hletter, Piece.shown?, Piece.isNameless,
      Bool.true_and, Piece.isField, Bool.not_true, Bool.and_false]
    -- A field without a name takes the whole record, which only the first field can.
    cases isWhole with
    | false => rfl
    | true =>
      rw [if_pos rfl, if_neg (by decide)]
      cases convert? m.spec letter (.object r.origin.whole) with
      | none => rfl
      | some text => exact hstep _ _ _

/-- A format of pieces in order is filled piece by piece. -/
theorem fill?_flatMap {isWhole : Bool} {pieces : List Piece} (horder : InOrder isWhole pieces)
    {fuel : Nat} (hfuel : pieces.length ≤ fuel) :
    fill? time r isWhole fuel (pieces.flatMap Piece.text) =
      (pieces.mapM (Piece.shown? time r)).map List.flatten := by
  induction pieces generalizing isWhole fuel with
  | nil => cases fuel <;> rfl
  | cons piece pieces ih =>
    obtain ⟨fuel, rfl⟩ := Nat.exists_eq_add_one_of_ne_zero (Nat.ne_zero_of_lt hfuel)
    obtain ⟨hnameless, hrest⟩ := inOrder_cons_iff.mp horder
    have hrec := ih hrest (Nat.le_of_succ_le_succ hfuel)
    have hallowed : ¬ (piece.isNameless && !isWhole) = true := by
      rw [Bool.and_eq_true, Bool.not_eq_true']
      rintro ⟨hname, hbroken⟩
      exact absurd ((hnameless hname).symm.trans hbroken) Bool.noConfusion
    rw [List.flatMap_cons, fill?_text_append, if_neg hallowed, hrec, List.mapM_cons]
    cases piece.shown? time r with
    | none => rfl
    | some text => cases pieces.mapM (Piece.shown? time r) <;> rfl

/-- No piece is empty, so the length of the text is fuel enough for all of them. -/
theorem length_le_flatMap (pieces : List Piece) :
    pieces.length ≤ (pieces.flatMap Piece.text).length := by
  induction pieces with
  | nil => exact le_rfl
  | cons piece pieces ih =>
    have hpos : 0 < piece.text.length := by cases piece <;> simp [Piece.text]
    rw [List.flatMap_cons, List.length_append, List.length_cons]
    omega

/-- **The line of a format.** A format of pieces in order shows what its pieces show, one after the
other, and nothing if one of them shows nothing. -/
theorem line?_eq_mapM {format : String} {pieces : List Piece}
    (hformat : format.toList = pieces.flatMap Piece.text) (horder : InOrder true pieces) :
    line? format time r = (pieces.mapM (Piece.shown? time r)).map
      (fun shown => String.ofList shown.flatten) := by
  rw [line?, hformat, fill?_flatMap horder (length_le_flatMap pieces), Option.map_map]
  rfl

/-- A format makes a line of a record if its pieces fit the record. -/
theorem exists_mapM_shown? {pieces : List Piece} (hfit : Fit time r pieces) :
    ∃ shown, pieces.mapM (Piece.shown? time r) = some shown := by
  rw [← Option.ne_none_iff_exists', ne_eq, mapM_eq_none_iff]
  rintro ⟨piece, hpiece, hnone⟩
  have hshown := piece.shown?_isSome_iff.mpr (hfit.each piece hpiece)
  rw [hnone] at hshown
  exact nomatch hshown

/-! ### No other formats -/

/-- The flags that are read are those at the start. -/
theorem flags_snd (s : Spec) (text : List Char) : (flags s text).2 = text.dropWhile isFlag := by
  induction text generalizing s with
  | nil => rfl
  | cons c rest ih =>
    by_cases hc : isFlag c = true
    · rw [List.dropWhile_cons_of_pos hc]
      rcases isFlag_iff.mp hc with rfl | rfl | rfl | rfl | rfl <;> exact ih _
    · have hhead : ∀ d ∈ (c :: rest).head?, isFlag d = false := by
        rintro d ⟨⟩
        rwa [Bool.not_eq_true] at hc
      rw [List.dropWhile_cons_of_neg hc, flags_of_head hhead]

/-- Whatever is read as a precision is written as one. -/
theorem exists_pointed_append (text : List Char) :
    ∃ digits? : Option (List Char), text = Marks.pointed digits? ++ (precision text).2 ∧
      (digits?.getD []).Forall (fun c => c.isDigit = true) := by
  unfold precision
  split
  · case h_1 rest =>
    refine ⟨some (rest.takeWhile Char.isDigit), ?_, ?_⟩
    · show '.' :: rest = '.' :: (rest.takeWhile Char.isDigit ++ rest.dropWhile Char.isDigit)
      rw [List.takeWhile_append_dropWhile]
    · exact List.forall_iff_forall_mem.mpr fun c hc => List.mem_takeWhile_imp hc
  · exact ⟨none, rfl, trivial⟩

/-- Whatever is passed over is a length modifier. -/
theorem exists_length_append (text : List Char) :
    ∃ length : Option Char, text = length.toList ++ afterLength text ∧
      length.toList ⊆ ['h', 'l', 'L'] := by
  cases text with
  | nil => exact ⟨none, rfl, List.nil_subset _⟩
  | cons c rest =>
    by_cases hc : c ∈ ['h', 'l', 'L']
    · refine ⟨some c, ?_, List.cons_subset.mpr ⟨hc, List.nil_subset _⟩⟩
      rw [afterLength, if_pos hc]
      rfl
    · refine ⟨none, ?_, List.nil_subset _⟩
      rw [afterLength, if_neg hc]
      rfl

/-- What is read as marks is the text of some. -/
theorem exists_marks_text_append (text : List Char) :
    ∃ m : Marks, text = m.text ++ (spec text).2 := by
  have hspec :
      (spec text).2 =
        afterLength (precision ((text.dropWhile isFlag).dropWhile Char.isDigit)).2 := by
    rw [← flags_snd {} text]
    rfl
  have hflags : (text.takeWhile isFlag).Forall (fun c => isFlag c = true) :=
    List.forall_iff_forall_mem.mpr fun c hc => List.mem_takeWhile_imp hc
  have hfront : text = text.takeWhile isFlag ++ text.dropWhile isFlag :=
    List.takeWhile_append_dropWhile.symm
  have hnoFlag := List.head?_dropWhile_not isFlag text
  rw [hspec]
  generalize text.dropWhile isFlag = rest at hfront hnoFlag ⊢
  have hdigits : (rest.takeWhile Char.isDigit).Forall (fun c => c.isDigit = true) :=
    List.forall_iff_forall_mem.mpr fun c hc => List.mem_takeWhile_imp hc
  have hmiddle : rest = rest.takeWhile Char.isDigit ++ rest.dropWhile Char.isDigit :=
    List.takeWhile_append_dropWhile.symm
  -- The flags were read as far as possible, so a zero that begins the digits would have been one of
  -- them.
  have hhead : (rest.takeWhile Char.isDigit).head? ≠ some '0' := by
    intro hzero
    rw [hmiddle, List.head?_append, hzero] at hnoFlag
    have hflag : isFlag '0' = false := hnoFlag
    exact absurd hflag (by decide)
  obtain ⟨digits?, hpoint, hprecision⟩ := exists_pointed_append (rest.dropWhile Char.isDigit)
  obtain ⟨length, hlength, hlisted⟩ :=
    exists_length_append (precision (rest.dropWhile Char.isDigit)).2
  refine ⟨⟨_, _, digits?, length, hflags, hdigits, hhead, hprecision, hlisted⟩, ?_⟩
  rw [Marks.text, List.append_assoc, List.append_assoc, List.append_assoc, ← hlength, ← hpoint,
    ← hmiddle]
  exact hfront

/-- A name that is read stands before its closing parenthesis. -/
theorem eq_append_of_fieldName? {depth : Nat} {text name rest : List Char}
    (h : fieldName? depth text = some (name, rest)) : text = name ++ ')' :: rest := by
  induction text generalizing depth name with
  | nil => exact nomatch h
  | cons c text ih =>
    unfold fieldName? at h
    split at h
    · exact nomatch h
    · case h_2 hclose =>
      obtain ⟨rfl, rfl⟩ := Prod.mk.inj (Option.some.inj h)
      exact hclose
    · case h_3 heq =>
      obtain ⟨rfl, rfl⟩ := List.cons.inj heq
      obtain ⟨⟨name', rest'⟩, hrec, hparts⟩ := Option.map_eq_some_iff.mp h
      obtain ⟨rfl, rfl⟩ := Prod.mk.inj hparts
      rw [ih hrec]
      rfl

/-- Only the letters of conversions convert. -/
theorem mem_letters_of_convert? {s : Spec} {letter : Char} {p : Property}
    (h : (convert? s letter p).isSome = true) : letter ∈ letters := by
  unfold convert? at h
  split at h
  · unfold converted? at h
    split at h
    all_goals first | decide | exact nomatch h
  · exact nomatch h

/-- What is filled in was written with marks and a listed letter. -/
theorem exists_marks_of_filled? {p : Property} {text shown rest : List Char}
    (h : filled? p text = some (shown, rest)) :
    ∃ (m : Marks) (letter : Char), letter ∈ letters ∧ text = m.text ++ letter :: rest := by
  obtain ⟨m, hm⟩ := exists_marks_text_append text
  unfold filled? at h
  dsimp only at h
  cases hletter : (spec text).2 with
  | nil =>
    rw [hletter] at h
    exact nomatch h
  | cons letter tail =>
    rw [hletter] at h hm
    obtain ⟨converted, hconverted, hshown⟩ := Option.map_eq_some_iff.mp h
    obtain ⟨-, rfl⟩ := Prod.mk.inj hshown
    exact ⟨m, letter, mem_letters_of_convert?
      (Option.isSome_iff_exists.mpr ⟨converted, hconverted⟩), hm⟩

/-- A field that shows something is a piece, and tells whether the record is still whole. -/
theorem exists_piece_of_field? {isWhole after : Bool} {text shown rest : List Char}
    (h : field? time r isWhole text = some (shown, after, rest)) :
    ∃ piece : Piece, '%' :: text = piece.text ++ rest ∧ (piece.isNameless = true → isWhole = true) ∧
      after = (isWhole && !piece.isField) := by
  unfold field? at h
  split at h
  case h_1 more =>
    obtain ⟨-, hafter, rfl⟩ : _ ∧ isWhole = after ∧ more = rest := by simpa using h
    exact ⟨.percent, rfl, fun hname => (nomatch hname), by
      rw [← hafter, Piece.isField, Bool.not_false, Bool.and_true]⟩
  case h_2 more =>
    obtain ⟨⟨name, behind⟩, hname, h⟩ := Option.bind_eq_some_iff.mp h
    obtain ⟨p, hp, h⟩ := Option.bind_eq_some_iff.mp h
    obtain ⟨⟨converted, tail⟩, hfilled, h⟩ := Option.bind_eq_some_iff.mp h
    obtain ⟨-, hafter, rfl⟩ : _ ∧ false = after ∧ tail = rest := by simpa using h
    obtain ⟨m, letter, hlisted, hbehind⟩ := exists_marks_of_filled? hfilled
    -- The name is a standard one because the record has such a property.
    have hstandard : String.ofList name ∈ standardNames :=
      (property?_isSome_iff time r).mp (Option.isSome_iff_exists.mpr ⟨p, hp⟩)
    refine ⟨.field (String.ofList name) m letter hstandard hlisted, ?_,
      fun hname => (nomatch hname), ?_⟩
    · rw [eq_append_of_fieldName? hname, hbehind]
      simp [Piece.text]
    · rw [← hafter, Piece.isField, Bool.not_true, Bool.and_false]
  case h_3 =>
    split at h
    case isFalse => exact nomatch h
    case isTrue hwhole =>
      obtain ⟨⟨converted, tail⟩, hfilled, h⟩ := Option.map_eq_some_iff.mp h
      obtain ⟨-, hafter, rfl⟩ : _ ∧ false = after ∧ tail = rest := by simpa using h
      obtain ⟨m, letter, hlisted, htext⟩ := exists_marks_of_filled? hfilled
      refine ⟨.nameless m letter hlisted, ?_, fun _ => hwhole, ?_⟩
      · rw [htext]
        simp [Piece.text]
      · rw [← hafter, Piece.isField, Bool.not_true, Bool.and_false]

/-- Whatever is filled is made of pieces, in an order that can be filled. -/
theorem exists_pieces_of_fill? {isWhole : Bool} {fuel : Nat} {text line : List Char}
    (h : fill? time r isWhole fuel text = some line) :
    ∃ pieces : List Piece, text = pieces.flatMap Piece.text ∧ InOrder isWhole pieces := by
  -- The induction is on the fuel, since a field takes more than one character.
  induction fuel generalizing isWhole text line with
  | zero =>
    cases text with
    | nil => exact ⟨[], rfl, fun _ _ h => (nomatch h), .nil⟩
    | cons c rest => exact nomatch h
  | succ fuel ih =>
    cases text with
    | nil => exact ⟨[], rfl, fun _ _ h => (nomatch h), .nil⟩
    | cons c rest =>
      rw [fill?] at h
      by_cases hc : c = '%'
      · rw [if_pos hc] at h
        obtain ⟨⟨shown, after, more⟩, hfield, h⟩ := Option.bind_eq_some_iff.mp h
        obtain ⟨behind, hbehind, -⟩ := Option.bind_eq_some_iff.mp h
        obtain ⟨piece, hpiece, hnameless, rfl⟩ := exists_piece_of_field? hfield
        obtain ⟨pieces, hpieces, horder⟩ := ih hbehind
        refine ⟨piece :: pieces, ?_, inOrder_cons_iff.mpr ⟨hnameless, horder⟩⟩
        rw [hc, hpiece, List.flatMap_cons, ← hpieces]
      · rw [if_neg hc] at h
        obtain ⟨behind, hbehind, -⟩ := Option.map_eq_some_iff.mp h
        obtain ⟨pieces, hpieces, horder⟩ := ih hbehind
        refine ⟨.plain c hc :: pieces, congrArg (c :: ·) hpieces,
          inOrder_cons_iff.mpr ⟨fun h => (nomatch h), ?_⟩⟩
        rwa [Piece.isField, Bool.not_false, Bool.and_true]

/-- Only a format of pieces that fit makes a line. -/
theorem exists_pieces_of_line? {format line : String} (h : line? format time r = some line) :
    ∃ pieces : List Piece, format.toList = pieces.flatMap Piece.text ∧ Fit time r pieces := by
  obtain ⟨shown, hshown, -⟩ := Option.map_eq_some_iff.mp h
  obtain ⟨pieces, hpieces, horder⟩ := exists_pieces_of_fill? hshown
  refine ⟨pieces, hpieces, fun piece hpiece => ?_, horder⟩
  rw [line?_eq_mapM hpieces horder] at h
  by_contra hfit
  have hnone : pieces.mapM (Piece.shown? time r) = none := by
    rw [mapM_eq_none_iff]
    refine ⟨piece, hpiece, ?_⟩
    rwa [← Piece.shown?_isSome_iff, Bool.not_eq_true, Option.isSome_eq_false_iff,
      Option.isNone_iff_eq_none] at hfit
  rw [hnone] at h
  exact nomatch h

end PipelineRuns.Format
