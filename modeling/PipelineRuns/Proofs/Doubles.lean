import Mathlib.Algebra.Order.Field.Power
import Mathlib.Data.Rat.Floor
import Mathlib.Tactic.FieldSimp
import Mathlib.Tactic.Linarith
import Mathlib.Tactic.NormNum
import Mathlib.Tactic.Positivity
import Mathlib.Tactic.Ring

/-!
# Nearest floating point numbers

A double is an integer of at most 53 binary digits times a power of two (`IsDouble`), and the double
nearest to a number is the one from which every other double is farther away (`IsNearestDouble`).
Nothing is said here on how it is computed. Two kinds of statements follow.

* From where it lies: a double below a number is not above the nearest one, and a double above it is
  not below (`IsNearestDouble.le_of_le`, `IsNearestDouble.ge_of_ge`). Small integers are doubles, so
  the whole part of the nearest double is that of the number or the next integer; it is that of the
  number if the number keeps far enough from the next integer (`IsNearestDouble.floor_eq`).
* From how it is found: choose a scale `2 ^ s` that brings the number between `2 ^ 52` and `2 ^ 53`.
  If an integer is less than a half away from the scaled number, then this integer, scaled back, is
  the nearest double (`isNearestDouble_of_scaled`). For on this scale doubles are integers, or else
  they lie below `2 ^ 52`, which is an integer itself and nearer.
-/

namespace PipelineRuns

/-- A finite floating point number of double precision. -/
def IsDouble (x : ℚ) : Prop :=
  ∃ m e : ℤ, |m| < 2 ^ 53 ∧ -1074 ≤ e ∧ e ≤ 971 ∧ x = m * 2 ^ e

/-- The double `x` is the nearest one to `q`: every other double is farther away. -/
structure IsNearestDouble (q x : ℚ) : Prop where
  isDouble : IsDouble x
  nearer : ∀ y, IsDouble y → y ≠ x → |q - x| < |q - y|

variable {q x y : ℚ}

theorem isDouble_intCast {k : ℤ} (h : |k| < 2 ^ 53) : IsDouble k :=
  ⟨k, 0, h, by decide, by decide, by rw [zpow_zero, mul_one]⟩

/-- A double is its own nearest one. -/
theorem IsDouble.isNearestDouble (h : IsDouble x) : IsNearestDouble x x := by
  refine ⟨h, fun y _ hne => ?_⟩
  rw [sub_self, abs_zero]
  exact abs_pos.mpr (sub_ne_zero.mpr hne.symm)

/-! ### Where the nearest double lies -/

namespace IsNearestDouble

theorem le_of_le (h : IsNearestDouble q x) (hy : IsDouble y) (hle : y ≤ q) : y ≤ x := by
  by_contra hlt
  rw [not_le] at hlt
  have hnearer := h.nearer y hy hlt.ne'
  rw [abs_of_pos (sub_pos.mpr (hlt.trans_le hle)), abs_of_nonneg (sub_nonneg.mpr hle)] at hnearer
  linarith

theorem ge_of_ge (h : IsNearestDouble q x) (hy : IsDouble y) (hle : q ≤ y) : x ≤ y := by
  by_contra hlt
  rw [not_le] at hlt
  have hnearer := h.nearer y hy hlt.ne
  rw [abs_of_neg (sub_neg.mpr (hle.trans_lt hlt)), abs_of_nonpos (sub_nonpos.mpr hle)] at hnearer
  linarith

variable (h : IsNearestDouble q x) (hnonneg : 0 ≤ ⌊q⌋)
include h hnonneg

theorem floor_le (hlt : ⌊q⌋ < 2 ^ 53) : ⌊q⌋ ≤ ⌊x⌋ := by
  have hdouble : IsDouble ⌊q⌋ := isDouble_intCast (by rwa [abs_of_nonneg hnonneg])
  exact Int.le_floor.mpr (h.le_of_le hdouble (Int.floor_le q))

theorem floor_le_add_one (hlt : ⌊q⌋ + 1 < 2 ^ 53) : ⌊x⌋ ≤ ⌊q⌋ + 1 := by
  have hdouble : IsDouble (⌊q⌋ + 1 : ℤ) := isDouble_intCast (by rwa [abs_of_nonneg (by omega)])
  have hle : q ≤ (⌊q⌋ + 1 : ℤ) := by
    push_cast
    exact (Int.lt_floor_add_one q).le
  calc
    ⌊x⌋ ≤ ⌊((⌊q⌋ + 1 : ℤ) : ℚ)⌋ := Int.floor_mono (h.ge_of_ge hdouble hle)
    _ = ⌊q⌋ + 1 := Int.floor_intCast _

/-- Rounding does not reach the next integer if that is a millionth away, and there are 19 binary
places. -/
theorem floor_eq (hlt : ⌊q⌋ < 2 ^ 34) (hgap : q + 1 / 1000000 ≤ ⌊q⌋ + 1) : ⌊x⌋ = ⌊q⌋ := by
  -- The last double before the next integer is less than two millionths away from it.
  have hbefore : IsDouble (⌊q⌋ + 1 - 1 / 2 ^ 19) := by
    refine ⟨(⌊q⌋ + 1) * 2 ^ 19 - 1, -19, ?_, by decide, by decide, ?_⟩
    · rw [abs_of_nonneg (by omega)]
      omega
    · push_cast
      rw [zpow_neg]
      norm_num
      ring
  apply le_antisymm
  · refine Int.lt_add_one_iff.mp (Int.floor_lt.mpr ?_)
    push_cast
    by_contra hreached
    rw [not_lt] at hreached
    have hplaces : (0 : ℚ) < 1 / 2 ^ 19 ∧ (1 : ℚ) / 2 ^ 19 < 2 * (1 / 1000000) := by norm_num
    have hother : (⌊q⌋ + 1 - 1 / 2 ^ 19 : ℚ) < x := by linarith [hplaces.1]
    have hnearer := h.nearer _ hbefore hother.ne
    rw [abs_of_neg (by linarith), lt_abs] at hnearer
    rcases hnearer with hbelow | habove
    · linarith [hplaces.2]
    · linarith [hplaces.1]
  · exact h.floor_le hnonneg (by omega)

end IsNearestDouble

/-! ### How the nearest double is found -/

/-- An integer that is less than a half away is nearer than every other one. -/
theorem abs_sub_lt_abs_sub {a : ℚ} {r j : ℤ} (h : |a - r| < 1 / 2) (hne : j ≠ r) :
    |a - r| < |a - j| := by
  have hone : (1 : ℚ) ≤ |(j : ℚ) - r| := by
    exact_mod_cast Int.one_le_abs (sub_ne_zero.mpr hne)
  have htriangle : |(j : ℚ) - r| ≤ |a - r| + |a - j| := by
    calc
      |(j : ℚ) - r| = |(a - r) - (a - j)| := by rw [sub_sub_sub_cancel_left]
      _ ≤ |a - r| + |a - j| := abs_sub _ _
  linarith

/-- On a scale of powers of two a double is an integer, unless it is small. -/
theorem IsDouble.scaled (hy : IsDouble y) (s : ℕ) :
    (∃ j : ℤ, y * 2 ^ s = j) ∨ y * 2 ^ s < 2 ^ 52 := by
  obtain ⟨m, e, hm, -, -, rfl⟩ := hy
  have hscale : (m : ℚ) * 2 ^ e * 2 ^ s = m * 2 ^ (e + s) := by
    rw [mul_assoc, zpow_add₀ two_ne_zero, zpow_natCast]
  rw [hscale]
  rcases le_or_gt 0 (e + s) with hplaces | hplaces
  · left
    obtain ⟨n, hn⟩ := Int.eq_ofNat_of_zero_le hplaces
    refine ⟨m * 2 ^ n, ?_⟩
    rw [hn]
    push_cast
    rw [zpow_natCast]
  · right
    have hmantissa : (m : ℚ) < 2 ^ 53 := by
      exact_mod_cast (le_abs_self m).trans_lt hm
    have hhalf : (2 : ℚ) ^ (e + s) ≤ 2 ^ (-1 : ℤ) := zpow_le_zpow_right₀ one_le_two (by omega)
    calc
      (m : ℚ) * 2 ^ (e + s) < 2 ^ 53 * 2 ^ (e + s) :=
        mul_lt_mul_of_pos_right hmantissa (by positivity)
      _ ≤ 2 ^ 53 * 2 ^ (-1 : ℤ) := mul_le_mul_of_nonneg_left hhalf (by positivity)
      _ = 2 ^ 52 := by norm_num

/-- An integer below `2 ^ 53`, or this number, is a double when it is scaled back. -/
theorem isDouble_scaledBack {s : ℕ} {r : ℤ} (hs : s ≤ 1074) (hnonneg : 0 ≤ r) (hle : r ≤ 2 ^ 53) :
    IsDouble (r / 2 ^ s) := by
  rcases lt_or_eq_of_le hle with hlt | rfl
  · refine ⟨r, -s, by rwa [abs_of_nonneg hnonneg], by omega, by omega, ?_⟩
    rw [zpow_neg, zpow_natCast, div_eq_mul_inv]
  · -- It has 54 digits, but the last one is a zero.
    refine ⟨2 ^ 52, 1 - s, by decide, by omega, by omega, ?_⟩
    rw [zpow_sub₀ two_ne_zero, zpow_natCast]
    push_cast
    ring

/-- **The nearest double.** An integer that is less than a half away from the scaled number, scaled
back. -/
theorem isNearestDouble_of_scaled {s : ℕ} {r : ℤ} (hs : s ≤ 1074) (hlow : 2 ^ 52 ≤ q * 2 ^ s)
    (hhigh : q * 2 ^ s ≤ 2 ^ 53) (hr : |q * 2 ^ s - r| < 1 / 2) :
    IsNearestDouble q (r / 2 ^ s) := by
  have hpos : (0 : ℚ) < 2 ^ s := by positivity
  obtain ⟨hbelow, habove⟩ := abs_lt.mp hr
  have hnonneg : 0 ≤ r := by
    have : (0 : ℚ) < r + 1 := by linarith
    exact Int.lt_add_one_iff.mp (by exact_mod_cast this)
  have hle : r ≤ 2 ^ 53 := by
    have : (r : ℚ) < 2 ^ 53 + 1 := by linarith
    exact Int.lt_add_one_iff.mp (by exact_mod_cast this)
  refine ⟨isDouble_scaledBack hs hnonneg hle, fun y hy hne => ?_⟩
  -- Distances are compared on the scale.
  have hscaled : |q * 2 ^ s - r| < |q * 2 ^ s - y * 2 ^ s| := by
    rcases hy.scaled s with ⟨j, hj⟩ | hsmall
    · rw [hj]
      apply abs_sub_lt_abs_sub hr
      rintro rfl
      exact hne (by rw [← hj, mul_div_cancel_right₀ _ hpos.ne'])
    · -- The number `2 ^ 52` stands between such a double and `q`, and it is an integer.
      have hedge : |q * 2 ^ s - r| ≤ |q * 2 ^ s - (2 ^ 52 : ℤ)| := by
        rcases eq_or_ne (2 ^ 52) r with rfl | hother
        · exact le_rfl
        · exact (abs_sub_lt_abs_sub hr hother).le
      rw [Int.cast_pow, Int.cast_ofNat, abs_of_nonneg (sub_nonneg.mpr hlow)] at hedge
      rw [abs_of_pos (by linarith : 0 < q * 2 ^ s - y * 2 ^ s)]
      linarith
  have hback : q * 2 ^ s - r = (q - r / 2 ^ s) * 2 ^ s := by
    rw [sub_mul, div_mul_cancel₀ _ hpos.ne']
  rw [hback, ← sub_mul, abs_mul, abs_mul] at hscaled
  exact lt_of_mul_lt_mul_right hscaled (abs_nonneg _)

end PipelineRuns
