import Mathlib.Algebra.Order.Group.Int
import Mathlib.Algebra.Ring.Nat
import Mathlib.Data.Nat.Size
import Mathlib.Tactic.SplitIfs
import PipelineRuns.Time.Span

/-!
# Rounded seconds and largest units

The words for a span lose something in two steps. The exact number of seconds is rounded to 53
binary digits and cut off (`Span.seconds`), and of these seconds only whole ones of the largest unit
are told (`Span.told`). Both steps respect the order of spans, and for neither is this a matter of
one rounding being monotone:

* The place to which a quotient is rounded depends on its length. For one length `floorAt_mono`
  applies; between quotients of different lengths there is a power of two, which every place leaves
  as it is (`floorAt_pow`), and so the longer quotient stays on its side of it
  (`nearestFloor_mono`).
* The units do not divide one another. But a span of a larger unit tells at least one of it, which
  is more than the whole of a span that does not fill that unit (`told_mono`).

A span that does not go into the past is never refused (`humanize_of_nonneg`).
-/

namespace PipelineRuns.Span

/-! ### Rounding a quotient -/

theorem le_roundDiv (n d : Nat) : n / d ≤ roundDiv n d := by
  unfold roundDiv
  dsimp only
  split_ifs <;> omega

theorem roundDiv_le (n d : Nat) : roundDiv n d ≤ n / d + 1 := by
  unfold roundDiv
  dsimp only
  split_ifs <;> omega

/-- A whole quotient is rounded to itself. -/
theorem roundDiv_mul_right (k : Nat) {d : Nat} (hd : 0 < d) : roundDiv (k * d) d = k := by
  have hquotient : k * d / d = k := Nat.mul_div_cancel k hd
  have hrest : 2 * (k * d % d) < d := by
    rw [Nat.mul_mod_left]
    exact hd
  unfold roundDiv
  dsimp only
  rw [if_pos hrest, hquotient]

theorem roundDiv_mono {n m : Nat} (h : n ≤ m) (d : Nat) : roundDiv n d ≤ roundDiv m d := by
  have hwhole : n / d ≤ m / d := Nat.div_le_div_right h
  rcases Nat.lt_or_eq_of_le hwhole with hlt | heq
  · calc
      roundDiv n d ≤ n / d + 1 := roundDiv_le n d
      _ ≤ m / d := hlt
      _ ≤ roundDiv m d := le_roundDiv m d
  · -- With the same whole part, the rests compare as the quotients do, and so do their halves with
    -- `d`.
    have hrest : n % d ≤ m % d := by
      have hn := Nat.div_add_mod n d
      have hm := Nat.div_add_mod m d
      rw [heq] at hn
      omega
    unfold roundDiv
    dsimp only
    rw [heq]
    split_ifs <;> omega

/-! ### The nearest number with 53 digits -/

/-- The whole part of a quotient that is rounded as one of `length` binary digits is. -/
def floorAt (length n d : Nat) : Nat :=
  if length ≤ 53 then roundDiv (n * 2 ^ (53 - length)) d / 2 ^ (53 - length)
  else roundDiv n (d * 2 ^ (length - 53)) * 2 ^ (length - 53)

theorem nearestFloor_eq (n d : Nat) : nearestFloor n d = floorAt (n / d).size n d := by
  have hlength : ∀ q : Nat, (if q = 0 then 0 else q.log2 + 1) = q.size := by
    intro q
    split
    case isTrue hzero => rw [hzero, Nat.size_zero]
    case isFalse hne =>
      apply le_antisymm
      · exact Nat.lt_size.mpr (Nat.log2_self_le hne)
      · exact Nat.size_le.mpr Nat.lt_log2_self
  unfold nearestFloor
  dsimp only
  rw [hlength]
  rfl

theorem floorAt_mono (length : Nat) {n m : Nat} (h : n ≤ m) (d : Nat) :
    floorAt length n d ≤ floorAt length m d := by
  unfold floorAt
  split
  · exact Nat.div_le_div_right (roundDiv_mono (Nat.mul_le_mul_right _ h) d)
  · exact Nat.mul_le_mul_right _ (roundDiv_mono h _)

/-- A power of two has a single digit, and is not rounded at any place that is not beyond that
digit. -/
theorem floorAt_pow {length k d : Nat} (hd : 0 < d) (hk : length ≤ k + 53) :
    floorAt length (2 ^ k * d) d = 2 ^ k := by
  unfold floorAt
  split
  · generalize 53 - length = s
    calc
      roundDiv (2 ^ k * d * 2 ^ s) d / 2 ^ s = roundDiv (2 ^ k * 2 ^ s * d) d / 2 ^ s := by
        rw [Nat.mul_right_comm]
      _ = 2 ^ k * 2 ^ s / 2 ^ s := by rw [roundDiv_mul_right _ hd]
      _ = 2 ^ k := Nat.mul_div_cancel _ (Nat.two_pow_pos s)
  · obtain ⟨j, hj⟩ : ∃ j, k = j + (length - 53) := ⟨k - (length - 53), by omega⟩
    generalize length - 53 = s at hj ⊢
    have hpos : 0 < d * 2 ^ s := Nat.mul_pos hd (Nat.two_pow_pos s)
    have hsplit : 2 ^ k * d = 2 ^ j * (d * 2 ^ s) := by
      rw [hj, Nat.pow_add, Nat.mul_assoc, Nat.mul_comm (2 ^ s) d]
    rw [hsplit, roundDiv_mul_right _ hpos, hj, Nat.pow_add]

theorem nearestFloor_le_pow {n d : Nat} (hd : 0 < d) : nearestFloor n d ≤ 2 ^ (n / d).size := by
  have hlt : n < 2 ^ (n / d).size * d := (Nat.div_lt_iff_lt_mul hd).mp (Nat.lt_size_self (n / d))
  calc
    nearestFloor n d = floorAt (n / d).size n d := nearestFloor_eq n d
    _ ≤ floorAt (n / d).size (2 ^ (n / d).size * d) d := floorAt_mono _ hlt.le d
    _ = 2 ^ (n / d).size := floorAt_pow hd (by omega)

theorem pow_le_nearestFloor {n d k : Nat} (hd : 0 < d) (hk : (n / d).size = k + 1) :
    2 ^ k ≤ nearestFloor n d := by
  have hle : 2 ^ k * d ≤ n := (Nat.le_div_iff_mul_le hd).mp (Nat.lt_size.mp (by omega))
  calc
    2 ^ k = floorAt (n / d).size (2 ^ k * d) d := (floorAt_pow hd (by omega)).symm
    _ ≤ floorAt (n / d).size n d := floorAt_mono _ hle d
    _ = nearestFloor n d := (nearestFloor_eq n d).symm

theorem nearestFloor_mono {n m d : Nat} (hd : 0 < d) (h : n ≤ m) :
    nearestFloor n d ≤ nearestFloor m d := by
  have hsize : (n / d).size ≤ (m / d).size := Nat.size_le_size (Nat.div_le_div_right h)
  rcases Nat.lt_or_eq_of_le hsize with hlt | heq
  · -- A power of two lies between the quotients.
    obtain ⟨k, hk⟩ : ∃ k, (m / d).size = k + 1 := ⟨(m / d).size - 1, by omega⟩
    calc
      nearestFloor n d ≤ 2 ^ (n / d).size := nearestFloor_le_pow hd
      _ ≤ 2 ^ k := Nat.pow_le_pow_right (by decide) (by omega)
      _ ≤ nearestFloor m d := pow_le_nearestFloor hd hk
  · rw [nearestFloor_eq, nearestFloor_eq, heq]
    exact floorAt_mono _ h d

/-! ### Seconds -/

/-- The whole part of a rounded number of seconds is zero exactly if the microseconds do not fill a
second. -/
theorem nearestFloor_eq_zero_iff (n : Nat) : nearestFloor n 1000000 = 0 ↔ n < 1000000 := by
  constructor
  · intro hzero
    by_contra hfull
    have hone : 2 ^ 0 ≤ nearestFloor 1000000 1000000 := pow_le_nearestFloor (by decide) (by decide)
    have hmono : nearestFloor 1000000 1000000 ≤ nearestFloor n 1000000 :=
      nearestFloor_mono (by decide) (not_lt.mp hfull)
    omega
  · intro hless
    have hquotient : n / 1000000 = 0 := Nat.div_eq_of_lt hless
    -- Rounding up leads to the next of `2 ^ 53` steps at most, and a microsecond has more than one
    -- of them.
    have hround : roundDiv (n * 2 ^ (53 - 0)) 1000000 ≤ n * 2 ^ (53 - 0) / 1000000 + 1 :=
      roundDiv_le _ _
    rw [nearestFloor_eq, hquotient, Nat.size_zero, floorAt, if_pos (by decide)]
    apply Nat.div_eq_of_lt
    omega

theorem seconds_of_nonneg {micros : Int} (h : 0 ≤ micros) :
    seconds micros = (nearestFloor micros.natAbs 1000000 : Int) := by
  unfold seconds
  rw [if_neg (not_lt.mpr h)]

theorem seconds_nonneg {micros : Int} (h : 0 ≤ micros) : 0 ≤ seconds micros := by
  rw [seconds_of_nonneg h]
  exact Int.natCast_nonneg _

/-- The longer of two spans that do not go into the past has at least as many seconds. -/
theorem seconds_mono {a b : Int} (ha : 0 ≤ a) (h : a ≤ b) : seconds a ≤ seconds b := by
  have habs : a.natAbs ≤ b.natAbs := by omega
  rw [seconds_of_nonneg ha, seconds_of_nonneg (ha.trans h)]
  exact Int.ofNat_le.mpr (nearestFloor_mono (by decide) habs)

/-- A span that does not go into the past has words. -/
theorem humanize_of_nonneg {micros : Int} (h : 0 ≤ micros) :
    humanize micros = some (inUnits (seconds micros).toNat) := by
  unfold humanize
  rw [if_neg (not_lt.mpr (seconds_nonneg h))]

/-! ### The largest unit -/

theorem units_descending : units.Pairwise (fun u v => v.2 < u.2) := by
  decide

/-- The unit that is found is the largest one that the seconds fill. -/
theorem largest_of_find?_units {total : Nat} {u : String × Nat}
    (h : units.find? (fun u => 0 < total / u.2) = some u) :
    u ∈ units ∧ 0 < u.2 ∧ u.2 ≤ total ∧ ∀ v ∈ units, v.2 ≤ total → v.2 ≤ u.2 := by
  have hmem : u ∈ units := List.mem_of_find?_eq_some h
  obtain ⟨hfills, larger, smaller, hsplit, hlarger⟩ := List.find?_eq_some_iff_append.mp h
  obtain ⟨hpos, hle⟩ := Nat.div_pos_iff.mp (of_decide_eq_true hfills)
  refine ⟨hmem, hpos, hle, ?_⟩
  have hsorted := units_descending
  rw [hsplit] at hsorted
  intro v hv hvle
  rw [hsplit] at hv
  rcases List.mem_append.mp hv with hbefore | hfrom
  · -- The units before it were passed over, since the seconds do not fill them.
    have hpassed : v.2 = 0 ∨ total < v.2 := by simpa using hlarger v hbefore
    omega
  · rcases List.mem_cons.mp hfrom with rfl | hafter
    · exact le_rfl
    · have hrest := (List.pairwise_append.mp hsorted).2.1
      exact ((List.pairwise_cons.mp hrest).1 v hafter).le

/-- The seconds that the words for a number of seconds tell of: the whole ones of its largest
unit. -/
def told (total : Nat) : Nat :=
  match units.find? (fun u => 0 < total / u.2) with
  | some u => total / u.2 * u.2
  | none => 0

/-- The words name a unit, and as many of it as make up the seconds that are told. -/
theorem exists_inUnits_eq (total : Nat) :
    ∃ count, ∃ u ∈ units, inUnits total = counted count u.1 ∧ told total = count * u.2 := by
  have hnothing : "0 seconds" = counted 0 "second" := by decide
  unfold inUnits told
  cases hfind : units.find? (fun u => 0 < total / u.2) with
  | some u => exact ⟨total / u.2, u, List.mem_of_find?_eq_some hfind, rfl, rfl⟩
  | none => exact ⟨0, ("second", 1), by decide, hnothing, rfl⟩

theorem told_mono {s t : Nat} (h : s ≤ t) : told s ≤ told t := by
  unfold told
  cases hs : units.find? (fun u => 0 < s / u.2) with
  | none => exact Nat.zero_le _
  | some u =>
    obtain ⟨hu, hupos, hule, hularge⟩ := largest_of_find?_units hs
    cases ht : units.find? (fun u => 0 < t / u.2) with
    | none =>
      -- The longer span fills the unit of the shorter one.
      have hnone := List.find?_eq_none.mp ht u hu
      exact absurd (decide_eq_true (Nat.div_pos (hule.trans h) hupos)) hnone
    | some v =>
      obtain ⟨hv, hvpos, hvle, hvlarge⟩ := largest_of_find?_units ht
      dsimp only
      rcases Nat.lt_or_eq_of_le (hvlarge u hu (hule.trans h)) with hlt | heq
      · have hshort : s < v.2 := by
          by_contra hfills
          exact absurd (hularge v hv (not_lt.mp hfills)) (not_le.mpr hlt)
        calc
          s / u.2 * u.2 ≤ s := Nat.div_mul_le_self s u.2
          _ ≤ v.2 := hshort.le
          _ ≤ t / v.2 * v.2 := Nat.le_mul_of_pos_left _ (Nat.div_pos hvle hvpos)
      · rw [heq]
        exact Nat.mul_le_mul_right _ (Nat.div_le_div_right h)

end PipelineRuns.Span
