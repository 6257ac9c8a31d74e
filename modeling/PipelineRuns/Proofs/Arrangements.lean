import Mathlib.Data.List.Sort
import PipelineRuns.Proofs.Order

/-!
# One place for every run

Two stored runs can be equal, so the list that is displayed does not tell which of them stands
where. Here the *positions* of the stored runs are put in order instead. `Run.IsArrangement` is the
law of the report: of any two runs, the one that is stored later is shown first exactly if it starts
later (`Run.StartsLater`), where a run that started counts as later than one that never did.

The law says of any two positions which one comes first (`Run.Precedes`), and says so in one way
only, so there is one arrangement at most (`Run.isArrangement_iff`, `Run.eq_of_precedes`). That
there is one, and that the runs are displayed in it, is seen from the sort: the order of display is
an insertion sort (`Run.display_eq_insertionSort`), and the same sort puts the positions in order
(`Run.sorted`). It leaves two positions as they are stored unless the later run has to be shown
before the other one (`Run.precedes_sorted`). This holds of the positions of some of the runs as of
those of all, and so an arrangement of all runs is also one of those that are left when others are
removed.

Main statement: `Run.display_arranged`.
-/

namespace PipelineRuns.Run

variable {runs : List Run}

/-! ### The law -/

/-- `a` has a start, and `b` has none or an earlier one. -/
def StartsLater (a b : Run) : Prop :=
  ∃ s, a.start = some s ∧ ∀ t, b.start = some t → t.instant < s.instant

theorem shownBefore_iff {a b : Run} : shownBefore a b = true ↔ StartsLater a b := by
  unfold shownBefore StartsLater
  cases ha : a.start with
  | none => simp
  | some s =>
    cases hb : b.start with
    | none => simp
    | some t => simp [Moment.before]

theorem shownBefore_eq_false_iff {a b : Run} : shownBefore a b = false ↔ ¬ StartsLater a b := by
  rw [← shownBefore_iff, Bool.not_eq_true]

theorem not_startsLater_of_tied {a b : Run}
    (h : a.start.map Moment.instant = b.start.map Moment.instant) : ¬ StartsLater b a := by
  rintro ⟨s, hs, hearlier⟩
  rw [hs] at h
  obtain ⟨t, ht, hinstant⟩ := Option.map_eq_some_iff.mp h
  exact (hearlier t ht).ne hinstant

/-- The positions of all runs, each once, in the order in which the runs are to be shown. -/
structure IsArrangement (runs : List Run) (order : List (Fin runs.length)) : Prop where
  perm : order.Perm (List.finRange runs.length)
  /-- What is stored later is shown first exactly if it starts later. -/
  idxOf_lt_iff : ∀ i j, i < j → (order.idxOf j < order.idxOf i ↔ StartsLater runs[j] runs[i])

/-- The run at position `i` has its place before the one at `j`. -/
def Precedes (runs : List Run) (i j : Fin runs.length) : Prop :=
  if i < j then ¬ StartsLater runs[j] runs[i] else StartsLater runs[i] runs[j]

theorem precedes_of_lt {i j : Fin runs.length} (h : i < j) :
    Precedes runs i j ↔ ¬ StartsLater runs[j] runs[i] := by
  rw [Precedes, if_pos h]

theorem precedes_of_gt {i j : Fin runs.length} (h : j < i) :
    Precedes runs i j ↔ StartsLater runs[i] runs[j] := by
  rw [Precedes, if_neg h.asymm]

/-- Two positions have their places before each other in one way only. -/
theorem eq_of_precedes {i j : Fin runs.length} (hij : Precedes runs i j) (hji : Precedes runs j i) :
    i = j := by
  rcases lt_trichotomy i j with hlt | heq | hgt
  · exact absurd ((precedes_of_gt hlt).mp hji) ((precedes_of_lt hlt).mp hij)
  · exact heq
  · exact absurd ((precedes_of_gt hgt).mp hij) ((precedes_of_lt hgt).mp hji)

/-- Where nothing occurs twice, what holds of any two in their order is a matter of their places. -/
theorem pairwise_iff_idxOf {n : Nat} {R : Fin n → Fin n → Prop} {order : List (Fin n)}
    (hnodup : order.Nodup) :
    order.Pairwise R ↔ ∀ i ∈ order, ∀ j ∈ order, order.idxOf i < order.idxOf j → R i j := by
  rw [List.pairwise_iff_getElem]
  constructor
  · intro h i hi j hj hlt
    have hij := h _ _ (List.idxOf_lt_length_of_mem hi) (List.idxOf_lt_length_of_mem hj) hlt
    rwa [List.getElem_idxOf, List.getElem_idxOf] at hij
  · intro h k l hk hl hlt
    refine h _ (List.getElem_mem hk) _ (List.getElem_mem hl) ?_
    rwa [hnodup.idxOf_getElem k hk, hnodup.idxOf_getElem l hl]

/-- **An arrangement is a list of all positions that follow one another as they have their
places.** -/
theorem isArrangement_iff {order : List (Fin runs.length)}
    (hperm : order.Perm (List.finRange runs.length)) :
    IsArrangement runs order ↔ order.Pairwise (Precedes runs) := by
  have hall (i : Fin runs.length) : i ∈ order := hperm.mem_iff.mpr (List.mem_finRange i)
  rw [pairwise_iff_idxOf (hperm.nodup_iff.mpr (List.nodup_finRange _))]
  constructor
  · rintro ⟨-, hlaw⟩ i - j - hlt
    rcases lt_trichotomy i j with hij | rfl | hji
    · exact (precedes_of_lt hij).mpr (fun hlater => hlt.asymm ((hlaw i j hij).mpr hlater))
    · exact absurd hlt (lt_irrefl _)
    · exact (precedes_of_gt hji).mpr ((hlaw j i hji).mp hlt)
  · intro h
    refine ⟨hperm, fun i j hij =>
      ⟨fun hlt => (precedes_of_gt hij).mp (h j (hall j) i (hall i) hlt), fun hlater => ?_⟩⟩
    -- If `i` were shown first, `j` would not start later.
    rcases lt_trichotomy (order.idxOf j) (order.idxOf i) with hlt | heq | hgt
    · exact hlt
    · exact absurd ((List.idxOf_inj (hall j)).mp heq) hij.ne'
    · exact absurd hlater ((precedes_of_lt hij).mp (h i (hall i) j (hall j) hgt))

/-! ### The sort -/

theorem place_eq_orderedInsert (r : Run) (runs : List Run) :
    place r runs = runs.orderedInsert (fun a b => shownBefore b a = false) r := by
  induction runs with
  | nil => rfl
  | cons s rest ih =>
    rw [place, List.orderedInsert_cons, ih]
    cases shownBefore s r with
    | true => rfl
    | false => rfl

/-- Sorting by insertion, a run stays in front of those stored after it unless they are shown before
it. -/
theorem display_eq_insertionSort (runs : List Run) :
    display runs = runs.insertionSort (fun a b => shownBefore b a = false) := by
  unfold display
  induction runs with
  | nil => rfl
  | cons r rest ih => rw [List.foldr_cons, ih, place_eq_orderedInsert, List.insertionSort_cons]

/-- Sorting again changes nothing. -/
theorem display_display (runs : List Run) : display (display runs) = display runs := by
  rw [display_eq_insertionSort (display runs)]
  exact (display_pairwise runs).insertionSort_eq

/-- Positions, sorted as their runs are. -/
def sorted (runs : List Run) (positions : List (Fin runs.length)) : List (Fin runs.length) :=
  positions.insertionSort (fun i j => shownBefore runs[j] runs[i] = false)

theorem sorted_perm (positions : List (Fin runs.length)) : (sorted runs positions).Perm positions :=
  List.perm_insertionSort _ _

/-- The runs at some positions are displayed in the order of these positions. -/
theorem display_map_get (positions : List (Fin runs.length)) :
    display (positions.map runs.get) = (sorted runs positions).map runs.get := by
  rw [display_eq_insertionSort]
  exact (List.map_insertionSort (fun i j => shownBefore runs[j] runs[i] = false) _ runs.get
    positions
    (fun i _ j _ => Iff.rfl)).symm

theorem pairwise_sorted (positions : List (Fin runs.length)) :
    (sorted runs positions).Pairwise (fun i j => ¬ StartsLater runs[j] runs[i]) := by
  have hdisplay := display_pairwise (positions.map runs.get)
  rw [display_map_get, List.pairwise_map] at hdisplay
  exact hdisplay.imp shownBefore_eq_false_iff.mp

/-- Increasing positions that are sorted follow one another as they have their places. -/
theorem precedes_sorted {positions : List (Fin runs.length)} (h : positions.Pairwise (· < ·)) :
    (sorted runs positions).Pairwise (Precedes runs) := by
  have hnodup : (sorted runs positions).Nodup :=
    (sorted_perm positions).nodup_iff.mpr (h.imp (fun hlt => hlt.ne))
  have hplaces : (sorted runs positions).Pairwise
      (fun i j => (sorted runs positions).idxOf i < (sorted runs positions).idxOf j) :=
    (pairwise_iff_idxOf hnodup).mpr (fun _ _ _ _ hlt => hlt)
  rw [List.pairwise_iff_forall_sublist] at hplaces ⊢
  intro i j hij
  rcases lt_trichotomy i j with hlt | rfl | hgt
  · exact (precedes_of_lt hlt).mpr
      (List.pairwise_iff_forall_sublist.mp (pairwise_sorted positions) hij)
  · exact absurd (hplaces hij) (lt_irrefl _)
  · refine (precedes_of_gt hgt).mpr ?_
    by_contra hnot
    -- Then the sort would have left `j`, which is stored first, in front of `i`.
    have hstored : [j, i].Sublist positions := by
      refine List.sublist_of_subperm_of_pairwise (List.subperm_of_subset (by simp [hgt.ne]) ?_)
        (List.pairwise_pair.mpr hgt) h
      intro k hk
      have hmem : k ∈ [i, j] := by simpa [or_comm] using hk
      exact (sorted_perm positions).mem_iff.mp (hij.subset hmem)
    have hkept : [j, i].Sublist (sorted runs positions) :=
      List.pair_sublist_insertionSort (shownBefore_eq_false_iff.mpr hnot) hstored
    exact (hplaces hij).asymm (hplaces hkept)

/-- Increasing positions, in the order in which they have their places, are these positions
sorted. -/
theorem eq_sorted {positions order : List (Fin runs.length)} (h : positions.Pairwise (· < ·))
    (hperm : order.Perm positions) (hprecedes : order.Pairwise (Precedes runs)) :
    order = sorted runs positions :=
  List.Perm.eq_of_pairwise (fun _ _ _ _ hij hji => eq_of_precedes hij hji) hprecedes
    (precedes_sorted h) (hperm.trans (sorted_perm positions).symm)

/-! ### The order of display -/

/-- The positions of the stored runs in the order in which the runs are displayed. -/
structure IsDisplayOrder (runs : List Run) (order : List (Fin runs.length)) : Prop where
  arrangement : IsArrangement runs order
  display_eq : display runs = order.map runs.get
  /-- There is no other arrangement. -/
  unique : ∀ order', IsArrangement runs order' → order' = order
  /-- Runs that start at the same instant keep their stored order, and so do runs that never
  started. -/
  tied : ∀ i j, i < j → runs[i].start.map Moment.instant = runs[j].start.map Moment.instant →
    order.idxOf i < order.idxOf j
  /-- When all but some of the runs are removed, these are displayed in the order that they had. -/
  kept : ∀ isKept : Fin runs.length → Bool,
    display (((List.finRange runs.length).filter isKept).map runs.get) =
      (order.filter isKept).map runs.get

/-- The sorted positions of all runs are the order of display. -/
theorem isDisplayOrder_sorted (runs : List Run) :
    IsDisplayOrder runs (sorted runs (List.finRange runs.length)) := by
  have hincreasing : (List.finRange runs.length).Pairwise (· < ·) := List.pairwise_lt_finRange _
  have hprecedes := precedes_sorted hincreasing
  have harrangement := (isArrangement_iff (sorted_perm _)).mpr hprecedes
  constructor
  case arrangement => exact harrangement
  case display_eq =>
    have hall := display_map_get (List.finRange runs.length)
    rwa [List.map_get_finRange] at hall
  case unique =>
    intro order' h
    exact eq_sorted hincreasing h.perm ((isArrangement_iff h.perm).mp h)
  -- Neither of the two starts later, so neither comes before the other but by its place.
  case tied =>
    intro i j hij hsame
    have hnot := (not_congr (harrangement.idxOf_lt_iff i j hij)).mpr (not_startsLater_of_tied hsame)
    refine lt_of_le_of_ne (not_lt.mp hnot) (fun heq => hij.ne ?_)
    exact (List.idxOf_inj ((sorted_perm _).mem_iff.mpr (List.mem_finRange i))).mp heq
  case kept =>
    intro isKept
    rw [display_map_get, eq_sorted (hincreasing.filter isKept) ((sorted_perm _).filter isKept)
      (hprecedes.filter isKept)]

/-- **The order of a report.** The runs are displayed in the one order in which, of two runs, the
one that is stored later comes first exactly if it starts later. So no run is lost or shown twice,
the starts come from the latest to the earliest and the runs without one after them, ties keep their
stored order, and what remains of the runs is displayed as before. Displaying them again changes
nothing. -/
theorem display_arranged (runs : List Run) :
    (∃ order, IsDisplayOrder runs order) ∧ (display runs).Perm runs ∧
      display (display runs) = display runs ∧
      ∃ (starts : List Moment) (k : Nat),
        (display runs).map start = starts.map some ++ List.replicate k none ∧
        starts.Pairwise (fun s t => t.instant ≤ s.instant) :=
  ⟨⟨_, isDisplayOrder_sorted runs⟩, display_perm runs, display_display runs,
    exists_starts (display_pairwise runs)⟩

/-- Two of the starts are one instant at different offsets, and keep their stored order. -/
example :
    let queued : Run := { name := "queued" }
    let morning : Run := { name := "morning", start := some ⟨9 * 3600000000, 0⟩ }
    let abroad : Run := { name := "abroad", start := some ⟨11 * 3600000000, 120⟩ }
    let noon : Run := { name := "noon", start := some ⟨12 * 3600000000, 0⟩ }
    (display [queued, morning, abroad, noon]).map name =
      ["noon", "morning", "abroad", "queued"] := by decide

end PipelineRuns.Run
