import PipelineRuns.Proofs.NormalNames
import PipelineRuns.Proofs.StarterRun

/-!
# The names of the starter runs of a repository

A repository can have a starter run for each kind of event, and the event is told at the end of the
name of the run. The name is cut at its end, too, so what tells the runs apart may be lost. Here it
is settled for which repositories: both names are labels in any case, and they are different exactly
if the name made of the repository alone has at most 59 characters (`Starter.names_differ_iff`), so
that a dash and three letters of the event have room.

The name before the cut is found part by part. Making a name of two texts with a dash between them
is making a name of each and putting a dash between the names (`ResourceName.whole_append_dash`).
This is not plain, since texts are trimmed before their characters are mapped: what is trimmed
inside the joined text must not matter. It does not, since a blank becomes a dash at the end of a
name or nothing at all (`ResourceName.whole_eq_tidy`).

The cut then compares beginnings of one length. A beginning that ends in a letter is not touched by
the dropping of dashes after the cut (`ResourceName.initial_sanitizeChars`), and the joined names
have one beginning up to `-pu` in common.
-/

namespace PipelineRuns

namespace ResourceName

variable {s t : List Char} {c : Char}

/-! ### Dashes at the ends -/

theorem dropWhile_dash_cons (s : List Char) :
    ('-' :: s).dropWhile (· = '-') = s.dropWhile (· = '-') :=
  List.dropWhile_cons_of_pos (decide_eq_true rfl)

theorem dropWhile_cons_of_ne (h : c ≠ '-') (s : List Char) :
    (c :: s).dropWhile (· = '-') = c :: s :=
  List.dropWhile_cons_of_neg (mt of_decide_eq_true h)

theorem dropTrailingDashes_cons (c : Char) (s : List Char) :
    dropTrailingDashes (c :: s) =
      if dropTrailingDashes s = [] then (if c = '-' then [] else [c])
      else c :: dropTrailingDashes s := by
  unfold dropTrailingDashes
  cases hrest : Text.dropRightWhile (· = '-') s with
  | nil => simp [Text.dropRightWhile, hrest]
  | cons d kept => simp [Text.dropRightWhile, hrest]

theorem dropTrailingDashes_cons_of_ne (h : c ≠ '-') (s : List Char) :
    dropTrailingDashes (c :: s) = c :: dropTrailingDashes s := by
  rw [dropTrailingDashes_cons, if_neg h]
  split
  case isTrue hnone => rw [hnone]
  case isFalse hsome => rfl

theorem dropTrailingDashes_append (s t : List Char) :
    dropTrailingDashes (s ++ t) =
      if dropTrailingDashes t = [] then dropTrailingDashes s else s ++ dropTrailingDashes t := by
  induction s with
  | nil =>
    split
    case isTrue hnone => exact hnone
    case isFalse hsome => rfl
  | cons c rest ih =>
    rw [List.cons_append, dropTrailingDashes_cons, ih]
    split
    case isTrue hnone => rw [← dropTrailingDashes_cons]
    case isFalse hsome =>
      have hne : rest ++ dropTrailingDashes t ≠ [] := List.append_ne_nil_of_right_ne_nil _ hsome
      rw [if_neg hne, List.cons_append]

theorem dropTrailingDashes_self (s : List Char) :
    dropTrailingDashes (dropTrailingDashes s) = dropTrailingDashes s := by
  unfold dropTrailingDashes
  rw [Text.dropRightWhile_eq_rdropWhile, Text.dropRightWhile_eq_rdropWhile]
  exact List.rdropWhile_idempotent _ s

/-- Dashes are dropped at the start and at the end in either order. -/
theorem dropWhile_dropTrailingDashes (s : List Char) :
    (dropTrailingDashes s).dropWhile (· = '-') = dropTrailingDashes (s.dropWhile (· = '-')) := by
  induction s with
  | nil => rfl
  | cons c rest ih =>
    by_cases hdash : c = '-'
    · subst hdash
      rw [dropTrailingDashes_cons, dropWhile_dash_cons, ← ih, if_pos rfl]
      split
      case isTrue hnone => rw [hnone]
      case isFalse hsome => exact dropWhile_dash_cons _
    · rw [dropTrailingDashes_cons_of_ne hdash, dropWhile_cons_of_ne hdash,
        dropWhile_cons_of_ne hdash, dropTrailingDashes_cons_of_ne hdash]

/-- What is left after dropping dashes at the end starts as the text does. -/
theorem head?_dropTrailingDashes (h : dropTrailingDashes s ≠ []) :
    (dropTrailingDashes s).head? = s.head? := by
  obtain ⟨rest, hrest⟩ := dropTrailingDashes_initial s
  obtain ⟨c, kept, hkept⟩ := List.exists_cons_of_ne_nil h
  conv_rhs => rw [← hrest]
  rw [hkept]
  rfl

/-! ### Joining dashes part by part -/

theorem joinDashes_cons (c : Char) (s : List Char) :
    joinDashes (c :: s) =
      if c = '-' ∧ (joinDashes s).head? = some '-' then joinDashes s else c :: joinDashes s := by
  rw [joinDashes]
  cases hjoined : joinDashes s with
  | nil => simp
  | cons d kept => simp

/-- Behind a dash, the dashes at the start are joined with it. -/
theorem joinDashes_dash_cons (t : List Char) :
    joinDashes ('-' :: t) = '-' :: (joinDashes t).dropWhile (· = '-') := by
  have hchain := isChain_joinDashes t
  rw [joinDashes_cons]
  cases hjoined : joinDashes t with
  | nil => rfl
  | cons d kept =>
    rw [hjoined] at hchain
    by_cases hdash : d = '-'
    · subst hdash
      have hkept : kept.dropWhile (· = '-') = kept := by
        cases kept with
        | nil => rfl
        | cons e more => exact dropWhile_cons_of_ne ((List.isChain_cons_cons.mp hchain).1 rfl) _
      rw [if_pos ⟨rfl, rfl⟩, dropWhile_dash_cons, hkept]
    · have hhead : ¬ ('-' = '-' ∧ (d :: kept).head? = some '-') := fun h =>
        hdash (Option.some.inj h.2)
      rw [if_neg hhead, dropWhile_cons_of_ne hdash]

/-- Before a dash, the dashes at the end are joined with it. -/
theorem joinDashes_append_dash (s t : List Char) :
    joinDashes (s ++ '-' :: t) = dropTrailingDashes (joinDashes s) ++ joinDashes ('-' :: t) := by
  have hmiddle : (joinDashes ('-' :: t)).head? = some '-' := by
    rw [joinDashes_dash_cons]
    rfl
  -- From the end, as the joining goes. A dash is left out if one follows, and what follows it here
  -- is either kept of `s` or the dash in the middle.
  induction s with
  | nil => rfl
  | cons c rest ih =>
    rw [List.cons_append, joinDashes_cons c (rest ++ _), ih, joinDashes_cons c rest]
    by_cases hdash : c = '-'
    · by_cases hnone : dropTrailingDashes (joinDashes rest) = []
      · have hfollows :
            c = '-' ∧ (dropTrailingDashes (joinDashes rest) ++ joinDashes ('-' :: t)).head? =
              some '-' := by
          rw [hnone]
          exact ⟨hdash, hmiddle⟩
        have hleft : dropTrailingDashes (c :: joinDashes rest) = [] := by
          rw [dropTrailingDashes_cons, if_pos hnone, if_pos hdash]
        rw [if_pos hfollows, hnone]
        split
        case isTrue hboth => rw [hnone]
        case isFalse hother => rw [hleft]
      · have hhead :
            (dropTrailingDashes (joinDashes rest) ++ joinDashes ('-' :: t)).head? =
              (joinDashes rest).head? := by
          rw [List.head?_append_of_ne_nil _ hnone, head?_dropTrailingDashes hnone]
        rw [hhead]
        split
        case isTrue hboth => rfl
        case isFalse hother =>
          rw [dropTrailingDashes_cons, if_neg hnone, List.cons_append]
    · have hother : ∀ p : Prop, ¬ (c = '-' ∧ p) := fun p h => hdash h.1
      rw [if_neg (hother _), if_neg (hother _), dropTrailingDashes_cons_of_ne hdash,
        List.cons_append]

/-! ### Names of joined texts -/

/-- Two names with a dash between them, or the one of them that is not empty. -/
def joined (m n : List Char) : List Char :=
  if m = [] then n else if n = [] then m else m ++ '-' :: n

/-- The name without its double dashes and those at its ends. -/
def tidy (s : List Char) : List Char :=
  trimDashes (joinDashes s)

/-- What is tidied on both sides of a dash can be tidied apart. -/
theorem tidy_append_dash (s t : List Char) : tidy (s ++ '-' :: t) = joined (tidy s) (tidy t) := by
  have hleft : (dropTrailingDashes (joinDashes s)).dropWhile (· = '-') = tidy s :=
    dropWhile_dropTrailingDashes _
  have hright : dropTrailingDashes ((joinDashes t).dropWhile (· = '-')) = tidy t := rfl
  have hmiddle : dropTrailingDashes ('-' :: (joinDashes t).dropWhile (· = '-')) =
      if tidy t = [] then [] else '-' :: tidy t := by
    rw [dropTrailingDashes_cons, hright]
    rfl
  rw [tidy, trimDashes, joinDashes_append_dash, joinDashes_dash_cons, List.dropWhile_append, hleft]
  unfold joined
  by_cases hs : tidy s = []
  · -- Nothing but dashes stands before the right text, and they are trimmed with those at its
    -- start.
    have hempty : (tidy s).isEmpty = true := List.isEmpty_iff.mpr hs
    rw [if_pos hempty, if_pos hs, dropWhile_dash_cons, List.dropWhile_idempotent, hright]
  · have hempty : ¬ (tidy s).isEmpty = true := mt List.isEmpty_iff.mp hs
    have hkept : dropTrailingDashes (tidy s) = tidy s := dropTrailingDashes_self _
    rw [if_neg hempty, if_neg hs, dropTrailingDashes_append, hmiddle]
    by_cases ht : tidy t = []
    · rw [if_pos ht, if_pos ht, if_pos rfl, hkept]
    · rw [if_neg ht, if_neg ht, if_neg (List.cons_ne_nil _ _)]

@[simp] theorem joined_nil_left (n : List Char) : joined [] n = n := rfl

@[simp] theorem joined_nil_right (m : List Char) : joined m [] = m := by
  unfold joined
  split
  case isTrue hnone => exact hnone.symm
  case isFalse hsome => rfl

/-- Dashes at the ends are tidied away. -/
theorem tidy_between {before after : List Char} (hbefore : ∀ c ∈ before, c = '-')
    (hafter : ∀ c ∈ after, c = '-') (s : List Char) : tidy (before ++ s ++ after) = tidy s := by
  have hfront : ∀ n s, tidy (List.replicate n '-' ++ s) = tidy s := by
    intro n
    induction n with
    | zero => exact fun s => rfl
    | succ n ih =>
      intro s
      have hdash : tidy ('-' :: (List.replicate n '-' ++ s)) = tidy (List.replicate n '-' ++ s) :=
        tidy_append_dash [] _
      rw [List.replicate_succ, List.cons_append, hdash, ih]
  -- A dash joins what stands on both sides of it, and behind it are dashes alone.
  have hback : ∀ n s, tidy (s ++ List.replicate n '-') = tidy s := by
    intro n
    induction n with
    | zero => exact fun s => by rw [List.replicate_zero, List.append_nil]
    | succ n ih =>
      intro s
      have hdashes : tidy (List.replicate n '-') = [] := ih []
      rw [List.replicate_succ, tidy_append_dash, hdashes, joined_nil_right]
  rw [List.eq_replicate_of_mem hbefore, List.eq_replicate_of_mem hafter, hback, hfront]

theorem eq_dash_of_mem_letters (h : Text.isBlank c = true) {d : Char} (hd : d ∈ letters c) :
    d = '-' := by
  unfold letters at hd
  split at hd
  case isTrue hdash => exact List.mem_singleton.mp hd
  case isFalse hother =>
    split at hd
    case isTrue hname =>
      rw [isBlank_of_isNameChar hname] at h
      exact absurd h Bool.false_ne_true
    case isFalse hnone => exact absurd hd List.not_mem_nil

/-- The trimming before the characters are mapped makes no difference: blanks at the ends become
dashes at the ends. -/
theorem whole_eq_tidy (s : List Char) : whole s = tidy ((Text.lower s).flatMap letters) := by
  obtain ⟨before, after, hparts, hbefore, hafter⟩ := Text.exists_append_trim (Text.lower s)
  have hdashes : ∀ {blanks : List Char}, (∀ c ∈ blanks, Text.isBlank c = true) →
      ∀ d ∈ blanks.flatMap letters, d = '-' := by
    intro blanks hblanks d hd
    obtain ⟨c, hc, hdc⟩ := List.mem_flatMap.mp hd
    exact eq_dash_of_mem_letters (hblanks c hc) hdc
  symm
  calc
    tidy ((Text.lower s).flatMap letters)
    _ = tidy (before.flatMap letters ++ (Text.trim (Text.lower s)).flatMap letters ++
        after.flatMap letters) := by
      conv_lhs => rw [hparts, List.flatMap_append, List.flatMap_append]
    _ = tidy ((Text.trim (Text.lower s)).flatMap letters) :=
      tidy_between (hdashes hbefore) (hdashes hafter) _
    _ = whole s := rfl

/-- **The name of two texts with a dash between them** is made of the names of the texts. -/
theorem whole_append_dash (s t : List Char) :
    whole (s ++ '-' :: t) = joined (whole s) (whole t) := by
  have hlower : Text.lower (s ++ '-' :: t) = Text.lower s ++ '-' :: Text.lower t :=
    List.flatMap_append
  have hletters : (Text.lower s ++ '-' :: Text.lower t).flatMap letters =
      (Text.lower s).flatMap letters ++ '-' :: (Text.lower t).flatMap letters := List.flatMap_append
  rw [whole_eq_tidy, hlower, hletters, tidy_append_dash, ← whole_eq_tidy, ← whole_eq_tidy]

/-! ### The cut -/

/-- A name is cut and then loses the dash at its end; one that fits has none. -/
theorem sanitizeChars_eq (limit : Nat) (s : List Char) :
    sanitizeChars limit s = dropTrailingDashes ((whole s).take limit) := by
  unfold sanitizeChars
  dsimp only
  split
  case isTrue hlong =>
    unfold firstChars
    rw [if_pos (Int.natCast_nonneg limit), Int.toNat_natCast]
  case isFalse hshort =>
    have hkept : dropTrailingDashes (whole s) = whole s := dropTrailingDashes_self _
    rw [List.take_of_length_le (by omega), hkept]

/-- A beginning that does not end in a dash is not touched by the cut. -/
theorem initial_sanitizeChars {limit : Nat} {front : List Char} (h : front <+: whole s)
    (hlength : front.length ≤ limit) (hlast : dropTrailingDashes front = front) :
    front <+: sanitizeChars limit s := by
  obtain ⟨rest, hrest⟩ : front <+: (whole s).take limit := List.prefix_take_iff.mpr ⟨h, hlength⟩
  rw [sanitizeChars_eq, ← hrest, dropTrailingDashes_append, hlast]
  split
  case isTrue hnone => exact List.prefix_refl _
  case isFalse hsome => exact List.prefix_append _ _

/-- Without double dashes there is at most one dash at the end. -/
theorem length_le_dropTrailingDashes (h : s.IsChain (fun c d => c = '-' → d ≠ '-')) :
    s.length ≤ (dropTrailingDashes s).length + 1 := by
  unfold dropTrailingDashes
  rw [Text.dropRightWhile_eq_rdropWhile]
  have hparts : s.rdropWhile (· = '-') ++ s.rtakeWhile (· = '-') = s :=
    List.rdropWhile_append_rtakeWhile
  have hdashes : ∀ c ∈ s.rtakeWhile (· = '-'), c = '-' := fun c hc => by
    simpa using List.mem_rtakeWhile_imp hc
  have hchain : (s.rtakeWhile (· = '-')).IsChain (fun c d => c = '-' → d ≠ '-') :=
    List.IsChain.infix h (List.rtakeWhile_suffix _ _).isInfix
  -- No two dashes stand side by side, so one dash at most is dropped.
  have hone : (s.rtakeWhile (· = '-')).length ≤ 1 := by
    match hdropped : s.rtakeWhile (· = '-') with
    | [] => exact Nat.zero_le 1
    | [_] => exact le_rfl
    | c :: d :: more =>
      rw [hdropped] at hdashes hchain
      exact absurd (hdashes d (by simp))
        ((List.isChain_cons_cons.mp hchain).1 (hdashes c (by simp)))
  have hlength := congrArg List.length hparts
  rw [List.length_append] at hlength
  omega

/-- A short name is not cut, and a long one leaves all characters within the limit but one. -/
theorem length_sanitizeChars_le_iff {limit n : Nat} (hn : n + 1 < limit) (s : List Char) :
    (sanitizeChars limit s).length ≤ n ↔ (whole s).length ≤ n := by
  have hchain : ((whole s).take limit).IsChain (fun c d => c = '-' → d ≠ '-') :=
    List.IsChain.infix (isChain_whole s) (List.take_prefix _ _).isInfix
  have hdropped := length_le_dropTrailingDashes hchain
  have hinitial := (dropTrailingDashes_initial ((whole s).take limit)).length_le
  rw [List.length_take] at hdropped hinitial
  rw [sanitizeChars_eq]
  by_cases hshort : (whole s).length ≤ limit
  · have hkept : dropTrailingDashes (whole s) = whole s := dropTrailingDashes_self _
    rw [List.take_of_length_le hshort, hkept]
  · omega

/-! ### Labels -/

/-- A name that a cluster accepts: letters, digits and dashes, with a letter or digit at both ends,
and neither empty nor longer than 63 characters. -/
structure IsLabel (name : String) : Prop where
  notEmpty : name ≠ ""
  length_le : name.length ≤ 63
  chars : ∀ c ∈ name.toList, IsLetterOrDigit c ∨ c = '-'
  first : ∀ c ∈ name.toList.head?, IsLetterOrDigit c
  last : ∀ c ∈ name.toList.getLast?, IsLetterOrDigit c

/-- What is left of a text that is made a name is a label. -/
theorem isLabel_sanitize {text : String} (h : sanitize text maxLength ≠ "") :
    IsLabel (sanitize text maxLength) := by
  have hlimit : (0 : Int) ≤ maxLength := by decide
  have hnormal : IsNormal (sanitize text maxLength).toList := by
    rw [sanitize, String.toList_ofList]
    exact isNormal_sanitizeChars hlimit _
  have hlength : ((sanitizeChars maxLength text.toList).length : Int) ≤ maxLength :=
    length_sanitizeChars hlimit _
  refine ⟨h, ?_, hnormal.chars, hnormal.first, hnormal.last⟩
  rw [sanitize, String.length_ofList]
  exact Int.ofNat_le.mp hlength

end ResourceName

namespace Starter

open ResourceName

variable {repo event : String}

/-- The name that stands in the metadata of a resource. -/
def nameIn? (resource : Value) : Option String := do
  let metadata ← (← resource.entries?).get? "metadata"
  (← (← metadata.entries?).get? "name").text?

theorem nameIn?_document (repo event branch : String) :
    nameIn? (document repo event branch).value = some (resourceName repo event) := rfl

theorem isLine_of_printable {branch : String}
    (h : ∀ c ∈ branch.toList, 0x20 ≤ c.toNat ∧ c.toNat ≤ 0x7e) : Yaml.IsLine branch := by
  intro c hc
  obtain ⟨hlow, hhigh⟩ := h c hc
  refine ⟨by simp [Yaml.isTyped, hlow, hhigh], ?_⟩
  rintro rfl
  exact absurd hlow (by decide)

/-- The text of the starter run is read as its resource. -/
theorem parse_text_eq {branch : String} (hevent : Yaml.IsLine event)
    (hbranch : Yaml.IsLine branch) :
    Yaml.parse (text repo event branch) = .ok (document repo event branch).value :=
  Yaml.parse_write (legible_document hevent hbranch) nofun

/-! ### Names of runs -/

theorem isLabel_resourceName (hevent : event ∈ events.map Prod.fst) (repo : String) :
    IsLabel (resourceName repo event) := by
  rw [resourceName_eq hevent]
  exact isLabel_sanitize (sanitize_event_ne_empty hevent)

/-- Before the cut the name of a run is made of the names of the repository and of the event. -/
theorem toList_resourceName (hevent : event ∈ events.map Prod.fst) (repo : String) :
    ∃ s, whole s = joined (whole repo.toList) (whole event.toList) ∧
      (resourceName repo event).toList = sanitizeChars maxLength s := by
  have hjoined : (repo ++ "-" ++ event).toList = repo.toList ++ '-' :: event.toList := by simp
  refine ⟨(repo ++ "-" ++ event).toList, ?_, ?_⟩
  · rw [hjoined, whole_append_dash]
  · rw [resourceName_eq hevent, sanitize, String.toList_ofList]

/-- The events are told apart by the fourth character behind the name of the repository, if it has
room. -/
theorem resourceName_ne_iff (repo : String) :
    resourceName repo "pull_request" ≠ resourceName repo "push" ↔
      (whole repo.toList).length ≤ 59 := by
  have hpullListed : "pull_request" ∈ events.map Prod.fst := by decide
  have hpushListed : "push" ∈ events.map Prod.fst := by decide
  obtain ⟨pull, hpull, hpullName⟩ := toList_resourceName hpullListed repo
  obtain ⟨push, hpush, hpushName⟩ := toList_resourceName hpushListed repo
  have hpullEvent : whole "pull_request".toList = "pull-request".toList := by decide
  have hpushEvent : whole "push".toList = "push".toList := by decide
  rw [hpullEvent] at hpull
  rw [hpushEvent] at hpush
  rw [ne_eq, ← String.toList_inj, hpullName, hpushName]
  by_cases hempty : whole repo.toList = []
  · -- Nothing is left of the repository, and the names of the events are different.
    rw [hempty] at hpull hpush
    rw [sanitizeChars_eq, sanitizeChars_eq, hpull, hpush, hempty]
    decide
  have hpullWhole : whole pull = whole repo.toList ++ "-pull-request".toList := by
    rw [hpull, joined, if_neg hempty]
    rfl
  have hpushWhole : whole push = whole repo.toList ++ "-push".toList := by
    rw [hpush, joined, if_neg hempty]
    rfl
  by_cases hroom : (whole repo.toList).length ≤ 59
  · refine iff_of_true (fun hsame => ?_) hroom
    -- A beginning of one length of either name shows the event.
    have hfront : ∀ {s : List Char} (letters rest : List Char), letters.length = 4 →
        dropTrailingDashes letters = letters → whole s = whole repo.toList ++ (letters ++ rest) →
        whole repo.toList ++ letters <+: sanitizeChars maxLength s := by
      intro s letters rest hlength hlast hwhole
      apply initial_sanitizeChars
      · rw [hwhole, ← List.append_assoc]
        exact List.prefix_append _ _
      · rw [List.length_append, hlength]
        show (whole repo.toList).length + 4 ≤ 63
        omega
      · have hne : letters ≠ [] := List.ne_nil_of_length_pos (by omega)
        rw [dropTrailingDashes_append, hlast, if_neg hne]
    have hpul := hfront "-pul".toList "l-request".toList rfl rfl hpullWhole
    have hpus := hfront "-pus".toList "h".toList rfl rfl hpushWhole
    rw [hsame] at hpul
    have hinitial := List.prefix_of_prefix_length_le hpul hpus (by simp)
    have heq : "-pul".toList = "-pus".toList :=
      List.append_cancel_left (hinitial.eq_of_length (by simp))
    exact absurd heq (by decide)
  · -- What follows the name of the repository within the limit is at most `-pu`.
    refine iff_of_false (not_not.mpr ?_) hroom
    have hends : ∀ n ≤ 3, "-pull-request".toList.take n = "-push".toList.take n := by decide
    rw [sanitizeChars_eq, sanitizeChars_eq, hpullWhole, hpushWhole, List.take_append,
      List.take_append, hends (maxLength - (whole repo.toList).length) (by unfold maxLength; omega)]

/-- **The starter runs of a repository.** Whatever the repository is called, and on all branches,
the names of its runs for both events are labels. They are different exactly if the name made of the
repository alone has at most 59 characters. On a branch of printable characters of ASCII these are
the names that are read in the texts of the runs. -/
theorem names_differ_iff (repo : String) :
    ∃ pull push : String,
      (∀ branch, nameIn? (document repo "pull_request" branch).value = some pull ∧
        nameIn? (document repo "push" branch).value = some push) ∧
      IsLabel pull ∧ IsLabel push ∧
      (pull ≠ push ↔ (sanitize repo maxLength).length ≤ 59) ∧
      ∀ branch : String, (∀ c ∈ branch.toList, 0x20 ≤ c.toNat ∧ c.toNat ≤ 0x7e) →
        (Yaml.parse (text repo "pull_request" branch)).toOption.bind nameIn? = some pull ∧
        (Yaml.parse (text repo "push" branch)).toOption.bind nameIn? = some push := by
  have hlength : (sanitize repo maxLength).length ≤ 59 ↔ (whole repo.toList).length ≤ 59 := by
    rw [sanitize, String.length_ofList]
    exact length_sanitizeChars_le_iff (by decide) _
  refine ⟨resourceName repo "pull_request", resourceName repo "push", fun branch =>
      ⟨nameIn?_document repo "pull_request" branch, nameIn?_document repo "push" branch⟩,
    isLabel_resourceName (by decide) repo, isLabel_resourceName (by decide) repo, ?_, ?_⟩
  · rw [hlength]
    exact resourceName_ne_iff repo
  · intro branch hprintable
    have hbranch : Yaml.IsLine branch := isLine_of_printable hprintable
    have hpull : Yaml.IsLine "pull_request" := by decide
    have hpush : Yaml.IsLine "push" := by decide
    rw [parse_text_eq hpull hbranch, parse_text_eq hpush hbranch]
    exact ⟨nameIn?_document repo "pull_request" branch, nameIn?_document repo "push" branch⟩

theorem names_differ_iff_myRepo :
    ∃ pull push : String, IsLabel pull ∧ IsLabel push ∧ pull ≠ push ∧
      (Yaml.parse (text "My_Repo" "pull_request" "main")).toOption.bind nameIn? = some pull ∧
      (Yaml.parse (text "My_Repo" "push" "main")).toOption.bind nameIn? = some push := by
  obtain ⟨pull, push, -, hpull, hpush, hdiffer, hread⟩ := names_differ_iff "My_Repo"
  have hprintable : ∀ c ∈ "main".toList, 0x20 ≤ c.toNat ∧ c.toNat ≤ 0x7e :=
    List.forall_iff_forall_mem.mp (by decide)
  have hlength : (sanitize "My_Repo" maxLength).length ≤ 59 := by decide +kernel
  exact ⟨pull, push, hpull, hpush, hdiffer.mpr hlength, hread "main" hprintable⟩

/-- Sixty characters leave room for `-pu` alone. -/
theorem names_not_always_different :
    ¬ ∀ repo branch : String,
      nameIn? (document repo "pull_request" branch).value ≠
        nameIn? (document repo "push" branch).value := by
  intro hclaim
  have hsame :
      resourceName "an-unusually-long-but-quite-acceptable-name-for-a-repository" "pull_request" =
      resourceName "an-unusually-long-but-quite-acceptable-name-for-a-repository" "push" := by
    decide +kernel
  exact hclaim _ "main" (congrArg some hsame)

end Starter

end PipelineRuns
