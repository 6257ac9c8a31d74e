import Mathlib.Data.List.Chain
import PipelineRuns.Proofs.ResourceNames

/-!
# Names in their normal form

A name is in its normal form when it is empty, or when it consists of small letters, digits and
single dashes with a letter or digit at both ends (`ResourceName.IsNormal`). This module says that
making a name is bringing a text into this form. What comes out is normal and within the limit, and
what is normal and within the limit stays as it is, so that making a name of a name changes nothing.

No step alone gives the form, since each can undo what another one did. Dropping a character that no
name has brings the dashes beside it together, so dashes are joined after that; and the cut can
leave a dash at the end, so dashes are dropped once more after it. What carries the proof is that
everything behind the joining only takes characters away at the ends, and a part of a text without
double dashes has none either (`isChain_whole`).

The other direction goes through the same steps, each of which finds nothing to do
(`sanitizeChars_of_isNormal`).

Main statement: `ResourceName.isNormal_sanitize`, which also says when nothing is left of a text.
-/

namespace PipelineRuns.ResourceName

variable {s : List Char} {c : Char}

/-! ### The normal form -/

/-- A small letter or a digit of ASCII. -/
def IsLetterOrDigit (c : Char) : Prop :=
  ('a' ≤ c ∧ c ≤ 'z') ∨ ('0' ≤ c ∧ c ≤ '9')

instance (c : Char) : Decidable (IsLetterOrDigit c) :=
  inferInstanceAs (Decidable (('a' ≤ c ∧ c ≤ 'z') ∨ ('0' ≤ c ∧ c ≤ '9')))

/-- A text that is empty, or consists of letters, digits and single dashes, with a letter or digit
at both ends. -/
structure IsNormal (s : List Char) : Prop where
  chars : ∀ c ∈ s, IsLetterOrDigit c ∨ c = '-'
  single : s.IsChain (fun c d => c = '-' → d ≠ '-')
  first : ∀ c ∈ s.head?, IsLetterOrDigit c
  last : ∀ c ∈ s.getLast?, IsLetterOrDigit c

theorem isNameChar_iff : isNameChar c = true ↔ IsLetterOrDigit c ∨ c = '-' := by
  unfold isNameChar IsLetterOrDigit
  simp only [Bool.or_eq_true, Bool.and_eq_true, decide_eq_true_eq]

theorem isLetterOrDigit_iff : IsLetterOrDigit c ↔ isNameChar c = true ∧ c ≠ '-' := by
  rw [isNameChar_iff]
  constructor
  · intro h
    refine ⟨Or.inl h, ?_⟩
    rintro rfl
    exact absurd h (by decide)
  · rintro ⟨h, hne⟩
    exact h.resolve_right hne

/-! ### What comes out is normal -/

/-- No dash follows a dash once the dashes are joined. -/
theorem isChain_joinDashes (s : List Char) :
    (joinDashes s).IsChain (fun c d => c = '-' → d ≠ '-') := by
  -- From the end, as the joining goes: a dash is dropped if what was joined behind it starts with
  -- one.
  induction s with
  | nil => exact List.isChain_nil
  | cons c rest ih =>
    rw [joinDashes]
    cases hjoined : joinDashes rest with
    | nil => exact List.isChain_singleton c
    | cons d kept =>
      rw [hjoined] at ih
      dsimp only
      split
      case isTrue hdashes => exact ih
      case isFalse hother =>
        rw [Bool.and_eq_true, decide_eq_true_eq, decide_eq_true_eq, not_and] at hother
        exact List.isChain_cons_cons.mpr ⟨hother, ih⟩

/-- What is trimmed away stands at the ends. -/
theorem isInfix_trimDashes (s : List Char) : trimDashes s <:+: s := by
  have hfront : s.dropWhile (· = '-') <:+ s := List.dropWhile_suffix _
  have hend : trimDashes s <+: s.dropWhile (· = '-') := dropTrailingDashes_initial _
  exact hend.isInfix.trans hfront.isInfix

theorem isChain_whole (s : List Char) : (whole s).IsChain (fun c d => c = '-' → d ≠ '-') :=
  List.IsChain.infix (isChain_joinDashes _) (isInfix_trimDashes _)

/-- Without the dashes at its end, a text does not end in one. -/
theorem getLast?_dropTrailingDashes (s : List Char) :
    (dropTrailingDashes s).getLast? ≠ some '-' := by
  unfold dropTrailingDashes
  rw [Text.dropRightWhile_eq_rdropWhile]
  intro hlast
  have hne : s.rdropWhile (· = '-') ≠ [] := by
    intro hnil
    rw [hnil] at hlast
    exact nomatch hlast
  rw [List.getLast?_eq_getLast_of_ne_nil hne] at hlast
  have hnot := List.rdropWhile_last_not _ s hne
  rw [Option.some.inj hlast] at hnot
  exact hnot (by decide)

/-- The cut leaves a beginning of the name. -/
theorem sanitizeChars_initial {limit : Int} (h : 0 ≤ limit) (s : List Char) :
    sanitizeChars limit s <+: whole s := by
  unfold sanitizeChars
  dsimp only
  split
  case isTrue hlong =>
    have hcut : firstChars limit (whole s) <+: whole s := by
      unfold firstChars
      rw [if_pos h]
      exact List.take_prefix _ _
    exact (dropTrailingDashes_initial _).trans hcut
  case isFalse hshort => exact List.prefix_refl _

theorem getLast?_sanitizeChars (limit : Int) (s : List Char) :
    (sanitizeChars limit s).getLast? ≠ some '-' := by
  unfold sanitizeChars
  dsimp only
  -- Either way, dropping dashes at the end is the last thing that was done.
  split
  case isTrue hlong => exact getLast?_dropTrailingDashes _
  case isFalse hshort => exact getLast?_dropTrailingDashes _

theorem length_sanitizeChars {limit : Int} (h : 0 ≤ limit) (s : List Char) :
    ((sanitizeChars limit s).length : Int) ≤ limit := by
  unfold sanitizeChars
  dsimp only
  split
  case isTrue hlong =>
    have hdropped :
        (dropTrailingDashes (firstChars limit (whole s))).length ≤
          (firstChars limit (whole s)).length :=
      (dropTrailingDashes_initial _).length_le
    have hcut : (firstChars limit (whole s)).length ≤ limit.toNat := by
      unfold firstChars
      rw [if_pos h]
      exact List.length_take_le _ _
    omega
  case isFalse hshort => omega

theorem isNormal_sanitizeChars {limit : Int} (h : 0 ≤ limit) (s : List Char) :
    IsNormal (sanitizeChars limit s) := by
  have hinitial : sanitizeChars limit s <+: whole s := sanitizeChars_initial h s
  have hchars : ∀ c ∈ sanitizeChars limit s, isNameChar c = true := by
    intro c hc
    exact isNameChar_of_mem_whole (hinitial.subset hc)
  refine ⟨?chars, ?single, ?first, ?last⟩
  case chars =>
    intro c hc
    exact isNameChar_iff.mp (hchars c hc)
  case single =>
    -- Nothing comes together that did not stand together, since the cut only takes away at the end.
    exact List.IsChain.infix (isChain_whole s) hinitial.isInfix
  case first =>
    intro c hc
    -- A beginning that is not empty starts like the whole, which is trimmed.
    have hhead : (whole s).head? = some c := by
      obtain ⟨after, hafter⟩ := hinitial
      rw [← hafter, List.head?_append, Option.mem_def.mp hc]
      rfl
    refine isLetterOrDigit_iff.mpr ⟨hchars c (List.mem_of_mem_head? hc), ?_⟩
    rintro rfl
    exact head?_trimDashes _ hhead
  case last =>
    intro c hc
    refine isLetterOrDigit_iff.mpr ⟨hchars c (List.mem_of_mem_getLast? hc), ?_⟩
    rintro rfl
    exact getLast?_sanitizeChars limit s hc

/-! ### When nothing is left -/

/-- A character that is no dash comes from the text in lower case. -/
theorem mem_lower_of_mem_whole (h : c ∈ whole s) (hne : c ≠ '-') : c ∈ Text.lower s := by
  have hmem := joinDashes_subset _ (trimDashes_subset _ h)
  obtain ⟨d, hd, hc⟩ := List.mem_flatMap.mp hmem
  -- A character stands for a dash, for itself, or for nothing.
  unfold letters at hc
  split at hc
  case isTrue => exact absurd (List.mem_singleton.mp hc) hne
  case isFalse =>
    split at hc
    case isTrue =>
      rw [List.mem_singleton.mp hc]
      exact Text.mem_trim hd
    case isFalse => exact nomatch hc

/-- A text leaves nothing exactly if it holds no letter or digit in lower case. -/
theorem sanitize_eq_empty_iff {text : String} {limit : Int} (hlimit : 1 ≤ limit) :
    sanitize text limit = "" ↔ ∀ c ∈ Text.lower text.toList, ¬ IsLetterOrDigit c := by
  constructor
  · intro hempty c hc hletter
    obtain ⟨hname, hdash⟩ := isLetterOrDigit_iff.mp hletter
    exact sanitize_ne_empty hc hname hdash hlimit hempty
  · intro hnone
    have hnonneg : 0 ≤ limit := by omega
    cases hchars : sanitizeChars limit text.toList with
    | nil => exact congrArg String.ofList hchars
    | cons c rest =>
      -- The first character would be a letter or digit of the text.
      exfalso
      have hletter : IsLetterOrDigit c := by
        apply (isNormal_sanitizeChars hnonneg text.toList).first
        rw [hchars]
        rfl
      have hmem : c ∈ whole text.toList := by
        apply (sanitizeChars_initial hnonneg text.toList).subset
        rw [hchars]
        exact List.mem_cons_self
      exact hnone c (mem_lower_of_mem_whole hmem (isLetterOrDigit_iff.mp hletter).2) hletter

/-! ### What is normal stays as it is -/

/-- No character of a name is a capital letter. -/
theorem toLower_of_isNameChar (h : isNameChar c = true) : c.toLower = c := by
  refine dif_neg ?_
  rintro ⟨hlow, hhigh⟩
  rw [ge_iff_le, UInt32.le_iff_toNat_le] at hlow
  rw [UInt32.le_iff_toNat_le] at hhigh
  -- The capital letters lie between the digits and the small letters.
  rcases isNameChar_iff.mp h with (⟨hletter, -⟩ | ⟨-, hdigit⟩) | rfl
  · rw [Char.le_def, UInt32.le_iff_toNat_le] at hletter
    exact absurd (hletter.trans hhigh) (by decide)
  · rw [Char.le_def, UInt32.le_iff_toNat_le] at hdigit
    exact absurd (hlow.trans hdigit) (by decide)
  · exact absurd hlow (by decide)

theorem lowerChar_of_isNameChar (h : isNameChar c = true) : Text.lowerChar c = [c] := by
  obtain ⟨-, hhigh⟩ := toNat_of_isNameChar h
  -- The two characters beyond ASCII that give a letter in lower case are no characters of names.
  have hdotted : c ≠ '\u0130' := by
    rintro rfl
    exact absurd hhigh (by decide)
  have hkelvin : c ≠ '\u212a' := by
    rintro rfl
    exact absurd hhigh (by decide)
  unfold Text.lowerChar
  rw [if_neg hdotted, if_neg hkelvin, toLower_of_isNameChar h]

/-- Taking each character for itself takes the text for itself. -/
theorem flatMap_eq_self {f : Char → List Char} (h : ∀ c ∈ s, f c = [c]) : s.flatMap f = s := by
  calc
    s.flatMap f = s.flatMap (fun c => [c]) := List.flatMap_congr h
    _ = s := List.flatMap_singleton' s

theorem joinDashes_of_isChain (h : s.IsChain (fun c d => c = '-' → d ≠ '-')) :
    joinDashes s = s := by
  induction s with
  | nil => rfl
  | cons c rest ih =>
    rw [joinDashes, ih h.tail]
    cases rest with
    | nil => rfl
    | cons d kept =>
      have hsingle : ¬ ((c = '-' && d = '-') = true) := by
        rw [Bool.and_eq_true, decide_eq_true_eq, decide_eq_true_eq, not_and]
        exact (List.isChain_cons_cons.mp h).1
      exact if_neg hsingle

namespace IsNormal

theorem isNameChar (h : IsNormal s) : ∀ c ∈ s, isNameChar c = true := by
  intro c hc
  exact isNameChar_iff.mpr (h.chars c hc)

theorem lower_eq (h : IsNormal s) : Text.lower s = s :=
  flatMap_eq_self (fun c hc => lowerChar_of_isNameChar (h.isNameChar c hc))

theorem trim_eq (h : IsNormal s) : Text.trim s = s := by
  have hsolid : ∀ c ∈ s, ¬ Text.isBlank c = true := by
    intro c hc
    rw [isBlank_of_isNameChar (h.isNameChar c hc)]
    exact Bool.false_ne_true
  -- There are no blanks at all, so there are none at the ends.
  have hleft : Text.trimLeft s = s :=
    List.dropWhile_eq_self_iff.mpr (fun hl => hsolid _ (List.getElem_mem hl))
  unfold Text.trim Text.trimRight
  rw [hleft, Text.dropRightWhile_eq_rdropWhile, List.rdropWhile_eq_self_iff]
  intro hne
  exact hsolid _ (List.getLast_mem hne)

theorem trimDashes_eq (h : IsNormal s) : trimDashes s = s := by
  have hfront : s.dropWhile (· = '-') = s := by
    refine List.dropWhile_eq_self_iff.mpr (fun hl hdash => ?_)
    have hhead : s.head? = some s[0] := List.head?_eq_getElem?.trans (List.getElem?_eq_getElem hl)
    exact (isLetterOrDigit_iff.mp (h.first _ hhead)).2 (of_decide_eq_true hdash)
  unfold trimDashes dropTrailingDashes
  rw [hfront, Text.dropRightWhile_eq_rdropWhile, List.rdropWhile_eq_self_iff]
  intro hne hdash
  exact (isLetterOrDigit_iff.mp (h.last _ (List.getLast?_eq_getLast_of_ne_nil hne))).2
    (of_decide_eq_true hdash)

/-- No step before the cut changes a name in its normal form. -/
theorem whole_eq (h : IsNormal s) : whole s = s := by
  calc
    whole s = trimDashes (joinDashes (s.flatMap letters)) := by rw [whole, h.lower_eq, h.trim_eq]
    _ = trimDashes (joinDashes s) := by
      rw [flatMap_eq_self (fun c hc => letters_of_isNameChar (h.isNameChar c hc))]
    _ = trimDashes s := by rw [joinDashes_of_isChain h.single]
    _ = s := h.trimDashes_eq

end IsNormal

theorem sanitizeChars_of_isNormal {limit : Int} (h : IsNormal s)
    (hlength : (s.length : Int) ≤ limit) : sanitizeChars limit s = s := by
  unfold sanitizeChars
  dsimp only
  rw [h.whole_eq, if_neg (Int.not_lt.mpr hlength)]

/-- **Names are normal forms.** What is made of a text is at most as long as the limit and in its
normal form. Unless nothing may be left, nothing is left exactly of the texts that hold no letter or
digit in lower case. And what was made a name is not changed by making it a name once more. -/
theorem isNormal_sanitize (text : String) {limit : Int} (hlimit : 0 ≤ limit) :
    ((sanitize text limit).length : Int) ≤ limit ∧
    IsNormal (sanitize text limit).toList ∧
    (1 ≤ limit → (sanitize text limit = "" ↔ ∀ c ∈ Text.lower text.toList, ¬ IsLetterOrDigit c)) ∧
    sanitize (sanitize text limit) limit = sanitize text limit := by
  have hnormal : IsNormal (sanitizeChars limit text.toList) :=
    isNormal_sanitizeChars hlimit text.toList
  have hlength : ((sanitizeChars limit text.toList).length : Int) ≤ limit :=
    length_sanitizeChars hlimit text.toList
  refine ⟨?_, ?_, fun hone => sanitize_eq_empty_iff hone, ?_⟩
  · rw [sanitize, String.length_ofList]
    exact hlength
  · rw [sanitize, String.toList_ofList]
    exact hnormal
  · -- A name is in its normal form and short enough, which is all it takes to stay as it is.
    unfold sanitize
    rw [String.toList_ofList, sanitizeChars_of_isNormal hnormal hlength]

/-- The Kelvin sign becomes a letter, and the cut falls behind a dash. -/
theorem isNormal_sanitize_kelvin :
    sanitize " \u212aube..Config! " 5 = "kube" ∧
    (0 : Int) ≤ 5 ∧
    (sanitize " \u212aube..Config! " 5 = "" ↔
      ∀ c ∈ Text.lower " \u212aube..Config! ".toList, ¬ IsLetterOrDigit c) ∧
    sanitize (sanitize " \u212aube..Config! " 5) 5 = sanitize " \u212aube..Config! " 5 := by
  have hcut : (0 : Int) ≤ 5 := by decide
  obtain ⟨-, -, hempty, hagain⟩ := isNormal_sanitize " \u212aube..Config! " hcut
  exact ⟨by decide, hcut, hempty (by decide), hagain⟩

end PipelineRuns.ResourceName
