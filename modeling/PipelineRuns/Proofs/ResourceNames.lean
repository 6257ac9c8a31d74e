import PipelineRuns.Proofs.Text
import PipelineRuns.Starter.Name

/-!
# Names of resources

What is left of a text when it is made a name. Every step of `ResourceName.sanitize` but the first
one only leaves characters out, and the first one gives characters of names alone
(`isNameChar_of_mem_sanitize`). What is left out after it are dashes, and characters beyond the
limit. So a name is empty only if the text in lower case holds no letter or digit: the cut leaves at
least the first character, which is no dash (`sanitize_ne_empty`).
-/

namespace PipelineRuns.ResourceName

variable {s : List Char} {c d : Char}

/-- Characters of names are printable ones of ASCII. -/
theorem toNat_of_isNameChar (h : isNameChar c = true) : 45 ≤ c.toNat ∧ c.toNat ≤ 122 := by
  simp only [isNameChar, Bool.or_eq_true, Bool.and_eq_true, decide_eq_true_eq, Char.le_def,
    UInt32.le_iff_toNat_le] at h
  rcases h with (⟨hlow, hhigh⟩ | ⟨hlow, hhigh⟩) | rfl
  · exact ⟨Nat.le_trans (by decide) hlow, hhigh⟩
  · exact ⟨Nat.le_trans (by decide) hlow, Nat.le_trans hhigh (by decide)⟩
  · decide

theorem isBlank_of_isNameChar (h : isNameChar c = true) : Text.isBlank c = false := by
  obtain ⟨hlow, hhigh⟩ := toNat_of_isNameChar h
  simp only [Text.isBlank, Bool.or_eq_false_iff, Bool.and_eq_false_iff, decide_eq_false_iff_not,
    beq_eq_false_iff_ne]
  omega

theorem isNameChar_of_mem_letters (h : d ∈ letters c) : isNameChar d = true := by
  unfold letters at h
  split at h
  · rw [List.mem_singleton.mp h]
    decide
  · split at h
    · next hc => rwa [List.mem_singleton.mp h]
    · exact nomatch h

/-- Characters of names are kept. -/
theorem letters_of_isNameChar (h : isNameChar c = true) : letters c = [c] := by
  have hkept : (c = ' ' || c = '.' || c = '_') = false := by
    by_contra hne
    rw [Bool.not_eq_false, Bool.or_eq_true, Bool.or_eq_true, decide_eq_true_eq, decide_eq_true_eq,
      decide_eq_true_eq] at hne
    rcases hne with (rfl | rfl) | rfl <;> exact absurd h (by decide)
  unfold letters
  rw [hkept, if_neg Bool.false_ne_true, if_pos h]

theorem mem_letters_self (h : isNameChar c = true) : c ∈ letters c := by
  rw [letters_of_isNameChar h]
  exact List.mem_singleton_self c

/-! ### Dashes -/

theorem joinDashes_subset (s : List Char) : joinDashes s ⊆ s := by
  induction s with
  | nil => exact fun _ h => h
  | cons c rest ih =>
    intro d hd
    rw [joinDashes] at hd
    cases hjoined : joinDashes rest with
    | nil =>
      rw [hjoined] at hd
      exact List.mem_cons.mpr (.inl (List.mem_singleton.mp hd))
    | cons e kept =>
      rw [hjoined] at hd ih
      dsimp only at hd
      split at hd
      · exact List.mem_cons_of_mem _ (ih hd)
      · rcases List.mem_cons.mp hd with rfl | hd
        · exact List.mem_cons_self
        · exact List.mem_cons_of_mem _ (ih hd)

/-- Joining dashes keeps everything else. -/
theorem mem_joinDashes (hd : d ≠ '-') (h : d ∈ s) : d ∈ joinDashes s := by
  induction s with
  | nil => exact nomatch h
  | cons c rest ih =>
    rw [joinDashes]
    cases hjoined : joinDashes rest with
    | nil =>
      rcases List.mem_cons.mp h with rfl | h
      · exact List.mem_singleton_self d
      · have := ih h
        rw [hjoined] at this
        exact nomatch this
    | cons e kept =>
      rw [hjoined] at ih
      dsimp only
      -- A dash is dropped where another one follows, and `d` is none.
      split
      · next hdashes =>
        rw [Bool.and_eq_true, decide_eq_true_eq, decide_eq_true_eq] at hdashes
        rcases List.mem_cons.mp h with rfl | h
        · exact absurd hdashes.1 hd
        · exact ih h
      · rcases List.mem_cons.mp h with rfl | h
        · exact List.mem_cons_self
        · exact List.mem_cons_of_mem _ (ih h)

theorem dropTrailingDashes_initial (s : List Char) : dropTrailingDashes s <+: s := by
  unfold dropTrailingDashes
  rw [Text.dropRightWhile_eq_rdropWhile]
  exact List.rdropWhile_prefix _ s

/-- Dropping dashes at the end keeps everything else. -/
theorem mem_dropTrailingDashes (hd : d ≠ '-') (h : d ∈ s) : d ∈ dropTrailingDashes s := by
  unfold dropTrailingDashes
  rw [Text.dropRightWhile_eq_rdropWhile]
  have hparts : s.rdropWhile (· = '-') ++ s.rtakeWhile (· = '-') = s :=
    List.rdropWhile_append_rtakeWhile
  rw [← hparts, List.mem_append] at h
  exact h.resolve_right (fun hmem => hd (by simpa using List.mem_rtakeWhile_imp hmem))

/-- Trimming dashes keeps everything else. -/
theorem mem_trimDashes (hd : d ≠ '-') (h : d ∈ s) : d ∈ trimDashes s := by
  refine mem_dropTrailingDashes hd ?_
  rw [← List.takeWhile_append_dropWhile (p := (· = '-')) (l := s), List.mem_append] at h
  exact h.resolve_left (fun hmem => hd (by simpa using List.mem_takeWhile_imp hmem))

theorem trimDashes_subset (s : List Char) : trimDashes s ⊆ s :=
  fun _ h => List.dropWhile_subset _ ((dropTrailingDashes_initial _).subset h)

/-- Trimmed text does not start with a dash. -/
theorem head?_trimDashes (s : List Char) : (trimDashes s).head? ≠ some '-' := by
  intro h
  obtain ⟨after, hafter⟩ := dropTrailingDashes_initial (s.dropWhile (· = '-'))
  have hhead : (s.dropWhile (· = '-')).head? = some '-' := by
    rw [← hafter, List.head?_append]
    change (trimDashes s).head?.or _ = _
    rw [h]
    rfl
  have hnot := List.head?_dropWhile_not (· = '-') s
  rw [hhead] at hnot
  exact absurd hnot (by decide)

/-! ### Names -/

theorem isNameChar_of_mem_whole (h : c ∈ whole s) : isNameChar c = true := by
  have hmem := joinDashes_subset _ (trimDashes_subset _ h)
  obtain ⟨d, -, hd⟩ := List.mem_flatMap.mp hmem
  exact isNameChar_of_mem_letters hd

theorem firstChars_subset (n : Int) (s : List Char) : firstChars n s ⊆ s := by
  unfold firstChars
  split
  · exact List.take_subset _ _
  · exact List.take_subset _ _

/-- **A name consists of characters of names.** -/
theorem isNameChar_of_mem_sanitize {text : String} {limit : Int}
    (h : c ∈ (sanitize text limit).toList) : isNameChar c = true := by
  unfold sanitize sanitizeChars at h
  rw [String.toList_ofList] at h
  dsimp only at h
  split at h
  · exact isNameChar_of_mem_whole (firstChars_subset _ _ ((dropTrailingDashes_initial _).subset h))
  · exact isNameChar_of_mem_whole h

/-- A letter or digit of the text in lower case is kept by all steps before the cut. -/
theorem mem_whole (hc : c ∈ Text.lower s) (hname : isNameChar c = true) (hdash : c ≠ '-') :
    c ∈ whole s := by
  have hsolid : Text.isBlank c = false := isBlank_of_isNameChar hname
  have htrimmed : c ∈ Text.trim (Text.lower s) := by
    have hstrip :=
      (Text.mem_strip_iff (s := String.ofList (Text.lower s)) hsolid).mpr
        (by rwa [String.toList_ofList])
    rwa [Text.toList_strip, String.toList_ofList] at hstrip
  exact mem_trimDashes hdash
    (mem_joinDashes hdash (List.mem_flatMap.mpr ⟨c, htrimmed, mem_letters_self hname⟩))

/-- **A name is not empty** if the text in lower case holds a letter or digit. -/
theorem sanitize_ne_empty {text : String} {limit : Int} (hc : c ∈ Text.lower text.toList)
    (hname : isNameChar c = true) (hdash : c ≠ '-') (hlimit : 1 ≤ limit) :
    sanitize text limit ≠ "" := by
  have hwhole : whole text.toList ≠ [] := List.ne_nil_of_mem (mem_whole hc hname hdash)
  obtain ⟨d, rest, hcons⟩ := List.exists_cons_of_ne_nil hwhole
  have hd : d ≠ '-' := by
    rintro rfl
    exact head?_trimDashes _ (congrArg List.head? hcons)
  have hkept : d ∈ sanitizeChars limit text.toList := by
    unfold sanitizeChars
    dsimp only
    rw [hcons]
    -- The first character is within the limit, and as it is no dash it is not dropped after the
    -- cut.
    split
    · refine mem_dropTrailingDashes hd ?_
      obtain ⟨n, hn⟩ : ∃ n : Nat, limit = n + 1 := ⟨(limit - 1).toNat, by omega⟩
      unfold firstChars
      rw [if_pos (by omega), hn]
      exact List.mem_cons_self
    · exact List.mem_cons_self
  intro hempty
  have hnil : sanitizeChars limit text.toList = [] := by
    have htoList := congrArg String.toList hempty
    rwa [sanitize, String.toList_ofList] at htoList
  rw [hnil] at hkept
  exact nomatch hkept

end PipelineRuns.ResourceName
