import PipelineRuns.Proofs.Doubles
import PipelineRuns.Proofs.Spans

/-!
# The seconds that words are made of

The words for a span tell of the whole part of a double: the one that is nearest to the exact number
of seconds. Here `Span.seconds` is held against this description, for all spans that can be told of
(`Span.inRange`), of which the longest has less than `2 ^ 47` seconds.

The quotient by a million never lies half way between two doubles, so there is always one nearest
double. Scaled by `2 ^ s` it has at least six binary places left, and a half would have to be a
multiple of 64 millionths (`two_mul_mod_ne`). So the rounded quotient of `Span.nearestFloor` is the
nearest double where the span has a full second, by the description on the scale
(`isNearestDouble_roundDiv`). Shorter spans are scaled otherwise there, since all that matters of
them is that the whole part is zero; their nearest double is found on the scale that is meant for
them.

How far the whole part may be off is then a matter of where the nearest double lies, not of how it
is computed.

Main statement: `Span.humanize_nearest`. A span that is told a second too long follows it.
-/

namespace PipelineRuns.Span

variable {n s : ℕ}

/-! ### Rounded quotients -/

/-- A quotient that is no tie is rounded to an integer that is less than a half away. -/
theorem abs_div_sub_roundDiv_lt {d : ℕ} (hd : 0 < d) (hne : 2 * (n % d) ≠ d) :
    |(n / d : ℚ) - (roundDiv n d : ℤ)| < 1 / 2 := by
  have hpos : (0 : ℚ) < d := by exact_mod_cast hd
  have hdistance : 2 * |(n : ℤ) - roundDiv n d * d| < d := by
    have hparts : (d * (n / d) + n % d : ℤ) = n := by exact_mod_cast Nat.div_add_mod n d
    have hrest : n % d < d := Nat.mod_lt n hd
    unfold roundDiv
    dsimp only
    -- The last two cases are those of a tie, which there is none.
    split_ifs with hbelow habove heven
    · have hless : (n : ℤ) - (n / d : ℕ) * d = (n % d : ℕ) := by
        push_cast
        linarith
      rw [hless, abs_of_nonneg (by omega)]
      omega
    · have hmore : (n : ℤ) - (n / d + 1 : ℕ) * d = (n % d : ℕ) - d := by
        push_cast
        linarith
      rw [hmore, abs_of_neg (by omega)]
      omega
    · omega
    · omega
  -- The distance is measured in integers, as the distance of the dividends.
  have hquotient : (n / d : ℚ) - (roundDiv n d : ℤ) = ((n : ℤ) - roundDiv n d * d : ℤ) / d := by
    push_cast
    field_simp
  rw [hquotient, abs_div, abs_of_pos hpos, div_lt_iff₀ hpos, ← Int.cast_abs]
  have hcast : (2 * |(n : ℤ) - roundDiv n d * d| : ℚ) < d := by exact_mod_cast hdistance
  push_cast at hcast ⊢
  linarith

/-- No multiple of 64 is a half more than a multiple of a million. -/
theorem two_mul_mod_ne (n : ℕ) (hs : 6 ≤ s) : 2 * (n * 2 ^ s % 1000000) ≠ 1000000 := by
  obtain ⟨t, rfl⟩ := Nat.exists_eq_add_of_le hs
  have hmultiple : n * 2 ^ (6 + t) = 64 * (n * 2 ^ t) := by ring
  rw [hmultiple]
  omega

/-- On a scale that gives it 53 binary digits, a number of seconds is rounded to the nearest
double. -/
theorem isNearestDouble_roundDiv (hn : n < 2 ^ 47 * 1000000) (hlow : 2 ^ 52 * 1000000 ≤ n * 2 ^ s)
    (hhigh : n * 2 ^ s ≤ 2 ^ 53 * 1000000) :
    IsNearestDouble (n / 1000000) ((roundDiv (n * 2 ^ s) 1000000 : ℤ) / 2 ^ s) := by
  -- The longest span has 47 digits before the point, so at least six of the 53 are left behind it.
  have hplaces : 6 ≤ s := by
    by_contra hfew
    have hscale : 2 ^ s ≤ 2 ^ 5 := Nat.pow_le_pow_right (by decide) (by omega)
    have hbound : n * 2 ^ s ≤ n * 2 ^ 5 := Nat.mul_le_mul_left n hscale
    omega
  -- A single microsecond needs no more than 72 places, far from where doubles end.
  have hdigits : s ≤ 1074 := by
    by_contra hmany
    have hscale : 2 ^ 73 ≤ 2 ^ s := Nat.pow_le_pow_right (by decide) (by omega)
    have hpos : 0 < n := by
      apply Nat.pos_of_ne_zero
      rintro rfl
      omega
    have hbound : 1 * 2 ^ s ≤ n * 2 ^ s := Nat.mul_le_mul_right _ hpos
    omega
  have hscaled : (n / 1000000 : ℚ) * 2 ^ s = (n * 2 ^ s : ℕ) / (1000000 : ℕ) := by
    push_cast
    ring
  refine isNearestDouble_of_scaled hdigits ?_ ?_ ?_
  · rw [hscaled, le_div_iff₀ (by norm_num)]
    exact_mod_cast hlow
  · rw [hscaled, div_le_iff₀ (by norm_num)]
    exact_mod_cast hhigh
  · rw [hscaled]
    exact abs_div_sub_roundDiv_lt (by decide) (two_mul_mod_ne n hplaces)

/-- Every span that is not empty has such a scale. -/
theorem exists_scale {n d : ℕ} (hpos : 0 < n) (hn : n ≤ 2 ^ 53 * d) :
    ∃ s, 2 ^ 52 * d ≤ n * 2 ^ s ∧ n * 2 ^ s ≤ 2 ^ 53 * d := by
  have hexists : ∃ s, 2 ^ 52 * d ≤ n * 2 ^ s := by
    refine ⟨2 ^ 52 * d, ?_⟩
    calc
      2 ^ 52 * d ≤ 2 ^ (2 ^ 52 * d) := Nat.lt_two_pow_self.le
      _ ≤ n * 2 ^ (2 ^ 52 * d) := Nat.le_mul_of_pos_left _ hpos
  classical
  -- The least scale that is fine enough is not too fine.
  refine ⟨Nat.find hexists, Nat.find_spec hexists, ?_⟩
  cases hfind : Nat.find hexists with
  | zero => omega
  | succ s =>
    -- One place less would not have been enough.
    have hbefore : ¬ 2 ^ 52 * d ≤ n * 2 ^ s := Nat.find_min hexists (by omega)
    rw [Nat.pow_succ, ← Nat.mul_assoc]
    omega

/-! ### The nearest double and its whole part -/

theorem floor_seconds (n : ℕ) : ⌊(n / 1000000 : ℚ)⌋ = ((n / 1000000 : ℕ) : ℤ) := by
  exact_mod_cast Rat.floor_natCast_div_natCast n 1000000

/-- A span of a full second is rounded on the scale of its length. -/
theorem exists_isNearestDouble_of_le (hn : n < 2 ^ 47 * 1000000) (hsecond : 1000000 ≤ n) :
    ∃ x, IsNearestDouble (n / 1000000) x ∧ ⌊x⌋ = (nearestFloor n 1000000 : ℤ) := by
  -- The scale is chosen by the number of binary digits of the full seconds.
  obtain ⟨k, hk⟩ : ∃ k, (n / 1000000).size = k + 1 := by
    refine ⟨(n / 1000000).size - 1, ?_⟩
    have hpos : 0 < (n / 1000000).size := Nat.size_pos.mpr (by omega)
    omega
  have hleast : 2 ^ k ≤ n / 1000000 := Nat.lt_size.mp (by omega)
  have hgreatest : n / 1000000 < 2 ^ (k + 1) := by
    rw [← hk]
    exact Nat.lt_size_self _
  have hshort : k + 1 ≤ 47 := by
    rw [← hk]
    exact Nat.size_le.mpr (by omega)
  have hscale : 2 ^ (53 - (k + 1)) * 2 ^ k = 2 ^ 52 := by
    rw [← Nat.pow_add]
    congr 1
    omega
  refine ⟨_, isNearestDouble_roundDiv (s := 53 - (k + 1)) hn ?_ ?_, ?_⟩
  · calc
      2 ^ 52 * 1000000 = 2 ^ k * 1000000 * 2 ^ (53 - (k + 1)) := by rw [← hscale]; ring
      _ ≤ n * 2 ^ (53 - (k + 1)) :=
        Nat.mul_le_mul_right _ ((Nat.le_div_iff_mul_le (by decide)).mp hleast)
  · calc
      n * 2 ^ (53 - (k + 1)) ≤ 2 ^ (k + 1) * 1000000 * 2 ^ (53 - (k + 1)) :=
        Nat.mul_le_mul_right _ ((Nat.div_lt_iff_lt_mul (by decide)).mp hgreatest).le
      _ = 2 ^ 53 * 1000000 := by
        rw [Nat.pow_succ, show 2 ^ 53 = 2 ^ 52 * 2 from rfl, ← hscale]; ring
  · rw [nearestFloor_eq, hk, floorAt, if_pos (by omega)]
    have hfloor :=
      Rat.floor_natCast_div_natCast (roundDiv (n * 2 ^ (53 - (k + 1))) 1000000) (2 ^ (53 - (k + 1)))
    push_cast at hfloor ⊢
    exact hfloor

/-- **The seconds of a span** are the whole part of the double that is nearest to it. -/
theorem exists_isNearestDouble (hn : n < 2 ^ 47 * 1000000) :
    ∃ x, IsNearestDouble (n / 1000000) x ∧ ⌊x⌋ = (nearestFloor n 1000000 : ℤ) := by
  rcases le_or_gt 1000000 n with hsecond | hsecond
  · exact exists_isNearestDouble_of_le hn hsecond
  -- Below a second the whole part is zero, on any scale.
  have hnone : nearestFloor n 1000000 = 0 := (nearestFloor_eq_zero_iff n).mpr hsecond
  rw [hnone]
  rcases Nat.eq_zero_or_pos n with rfl | hpos
  · have hzero : IsDouble ((0 : ℤ) : ℚ) := isDouble_intCast (by decide)
    exact ⟨0, by simpa using hzero.isNearestDouble, Int.floor_zero⟩
  · obtain ⟨s, hlow, hhigh⟩ := exists_scale hpos (show n ≤ 2 ^ 53 * 1000000 by omega)
    have hnearest := isNearestDouble_roundDiv hn hlow hhigh
    refine ⟨_, hnearest, ?_⟩
    have hfloor : ⌊(n / 1000000 : ℚ)⌋ = 0 := by
      rw [floor_seconds]
      omega
    rw [hnearest.floor_eq (by omega) (by omega) ?_, hfloor]
    · rfl
    · rw [hfloor]
      have hless : (n : ℚ) + 1 ≤ 1000000 := by exact_mod_cast hsecond
      push_cast
      linarith

/-! ### Words -/

/-- The unit that words for some seconds are given in: the largest one that they fill. -/
structure IsLargestUnit (total : ℕ) (u : String × ℕ) : Prop where
  mem : u ∈ units
  fills : u.2 ≤ total
  largest : ∀ v ∈ units, v.2 ≤ total → v.2 ≤ u.2

/-- A full second fills a unit, and is told of in the largest one. -/
theorem exists_inUnits_of_pos {total : ℕ} (hpos : 0 < total) :
    ∃ u, IsLargestUnit total u ∧ 1 ≤ total / u.2 ∧ inUnits total = counted (total / u.2) u.1 := by
  unfold inUnits
  cases hfind : units.find? (fun u => 0 < total / u.2) with
  | none =>
    have hsecond := List.find?_eq_none.mp hfind ("second", 1) (by decide)
    rw [Nat.div_one] at hsecond
    exact absurd (decide_eq_true hpos) hsecond
  | some u =>
    obtain ⟨hmem, hunit, hfills, hlargest⟩ := largest_of_find?_units hfind
    exact ⟨u, ⟨hmem, hfills, hlargest⟩, Nat.div_pos hfills hunit, rfl⟩

theorem lt_of_inRange {micros : Int} (h : inRange micros = true) : micros < 2 ^ 47 * 1000000 := by
  unfold inRange maxDays microsPerDay microsPerSecond at h
  rw [Bool.and_eq_true, decide_eq_true_eq, decide_eq_true_eq] at h
  omega

/-- **The words for a span.** For every span that can be told of and does not go into the past, the
seconds that the words tell of are the whole part of the nearest double. They are the full seconds
of the span or one more, and below `2 ^ 34` seconds they are the full ones. The words give as many
of the largest unit as the seconds fill, which is at least one, in the plural unless it is one; and
there are words for no seconds. -/
theorem humanize_nearest {micros : Int} (hnonneg : 0 ≤ micros) (hrange : inRange micros = true) :
    (∃ x : ℚ, IsNearestDouble ((micros : ℚ) / 1000000) x ∧ seconds micros = ⌊x⌋) ∧
    micros / 1000000 ≤ seconds micros ∧ seconds micros ≤ micros / 1000000 + 1 ∧
    (micros < 2 ^ 34 * 1000000 → seconds micros = micros / 1000000) ∧
    (seconds micros = 0 → humanize micros = some "0 seconds") ∧
    (0 < seconds micros → ∃ u, IsLargestUnit (seconds micros).toNat u ∧
      ∃ count, count = (seconds micros).toNat / u.2 ∧ 1 ≤ count ∧
        humanize micros =
          some (toString count ++ " " ++ u.1 ++ (if count = 1 then "" else "s"))) := by
  have hhuman := humanize_of_nonneg hnonneg
  have hlt := lt_of_inRange hrange
  obtain ⟨n, rfl⟩ := Int.eq_ofNat_of_zero_le hnonneg
  have hn : n < 2 ^ 47 * 1000000 := by omega
  obtain ⟨x, hnearest, hseconds⟩ := exists_isNearestDouble hn
  have hwhole : seconds n = ⌊x⌋ := (seconds_of_nonneg hnonneg).trans hseconds.symm
  have hfloor := floor_seconds n
  refine ⟨⟨x, hnearest, hwhole⟩, ?_, ?_, ?_, ?_, ?_⟩
  · have hle := hnearest.floor_le (by omega) (by omega)
    omega
  · have hle := hnearest.floor_le_add_one (by omega) (by omega)
    omega
  · intro hshort
    -- What is no full second yet lacks at least a microsecond.
    have hgap : (n / 1000000 : ℚ) + 1 / 1000000 ≤ ⌊(n / 1000000 : ℚ)⌋ + 1 := by
      have hnext : n + 1 ≤ (n / 1000000 + 1) * 1000000 := by omega
      have hcast : (n : ℚ) + 1 ≤ ((n / 1000000 : ℕ) + 1) * 1000000 := by exact_mod_cast hnext
      rw [hfloor, Int.cast_natCast]
      linarith
    have heq := hnearest.floor_eq (by omega) (by omega) hgap
    omega
  · intro hzero
    rw [hhuman, hzero]
    rfl
  · intro hpos
    obtain ⟨u, hlargest, hone, hwords⟩ :=
      exists_inUnits_of_pos (show 0 < (seconds n).toNat by omega)
    exact ⟨u, hlargest, _, rfl, hone, hhuman.trans (congrArg some hwords)⟩

/-- A microsecond before 545 years are full, they are told of as full. -/
theorem humanize_nearest_carried :
    (0 : Int) ≤ 17187119999999999 ∧ inRange 17187119999999999 = true ∧
    humanize 17187119999999999 = some "545 years" ∧
    (17187119999999999 : Int) / 1000000 = 545 * (365 * 24 * 3600) - 1 ∧
    ∃ x : ℚ, IsNearestDouble (((17187119999999999 : Int) : ℚ) / 1000000) x ∧
      seconds 17187119999999999 = ⌊x⌋ := by
  have hnonneg : (0 : Int) ≤ 17187119999999999 := by decide
  have hrange : inRange 17187119999999999 = true := by decide
  exact ⟨hnonneg, hrange, by decide, by decide, (humanize_nearest hnonneg hrange).1⟩

end PipelineRuns.Span
