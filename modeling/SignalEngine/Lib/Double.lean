/-
  Double: rounding to the nearest double.

  A double is an integer of 53 bits times a power of two. `toDouble` takes a rational to the
  nearest one, ties to even: to a multiple of `ulp`, the unit in the last place of its binade.
  Exponents are not bounded, so nothing overflows and nothing is subnormal.

  Proved: a value is moved by half a unit at most (`abs_toDouble_sub_le`), which is one part in
  2^53 (`abs_toDouble_sub_le_mul`), and the integers a product is compared with stay in order
  (`toDouble_lt_iff`).
-/
import Mathlib

namespace SignalEngine.Lib

/-! ## Rounding to an integer -/

/-- The nearest integer, ties to even. -/
def roundEven (q : ℚ) : ℤ :=
  let f := ⌊q⌋
  if q - f < 1 / 2 then f
  else if 1 / 2 < q - f then f + 1
  else if f % 2 = 0 then f else f + 1

variable {q : ℚ} {n : ℤ}

theorem abs_roundEven_sub_le (q : ℚ) : |(roundEven q : ℚ) - q| ≤ 1 / 2 := by
  have hfloor := Int.floor_le q
  have hlt := Int.lt_floor_add_one q
  unfold roundEven
  dsimp only
  rw [abs_le]
  split
  · constructor <;> linarith
  split
  · push_cast
    constructor <;> linarith
  split
  · constructor <;> linarith
  · push_cast
    constructor <;> linarith

/-- What is nearer than a half to an integer is rounded to it. -/
theorem roundEven_eq_of_abs_lt (h : |q - n| < 1 / 2) : roundEven q = n := by
  have hround := abs_le.mp (abs_roundEven_sub_le q)
  have hnear := abs_lt.mp h
  have hlt : (roundEven q : ℚ) < n + 1 := by linarith
  have hgt : (n : ℚ) - 1 < roundEven q := by linarith
  have hlt' : roundEven q < n + 1 := by exact_mod_cast hlt
  have hgt' : n - 1 < roundEven q := by exact_mod_cast hgt
  omega

/-- Less than a half below an integer, the rounding reaches it. -/
theorem le_roundEven (h : (n : ℚ) - q < 1 / 2) : n ≤ roundEven q := by
  have hround := abs_le.mp (abs_roundEven_sub_le q)
  have hgt : (n : ℚ) - 1 < roundEven q := by linarith
  have hgt' : n - 1 < roundEven q := by exact_mod_cast hgt
  omega

theorem roundEven_nonneg (h : 0 ≤ q) : 0 ≤ roundEven q :=
  le_roundEven (by
    push_cast
    linarith)

/-- More than a half below an integer, the rounding stays below it. -/
theorem roundEven_lt (h : 1 / 2 < (n : ℚ) - q) : roundEven q < n := by
  have hround := abs_le.mp (abs_roundEven_sub_le q)
  have hlt : (roundEven q : ℚ) < n := by linarith
  exact_mod_cast hlt

/-! ## Rounding to a double -/

/-- The unit in the last place of the doubles around `q`. -/
def ulp (q : ℚ) : ℚ := 2 ^ (Int.log 2 |q| - 52)

/-- The double nearest to `q`, ties to even. -/
def toDouble (q : ℚ) : ℚ := roundEven (q / ulp q) * ulp q

theorem ulp_pos (q : ℚ) : 0 < ulp q := zpow_pos (by norm_num) _

theorem abs_toDouble_sub_le (q : ℚ) : |toDouble q - q| ≤ ulp q / 2 := by
  have hpos := ulp_pos q
  have hsplit : toDouble q - q = (roundEven (q / ulp q) - q / ulp q) * ulp q := by
    rw [sub_mul, div_mul_cancel₀ _ hpos.ne', toDouble]
  rw [hsplit, abs_mul, abs_of_pos hpos]
  nlinarith [abs_roundEven_sub_le (q / ulp q)]

theorem binade_le (h : 0 < q) : (2 : ℚ) ^ Int.log 2 q ≤ q := by
  exact_mod_cast Int.zpow_log_le_self (b := 2) (by norm_num) h

theorem ulp_le (h : q ≠ 0) : ulp q ≤ |q| / 2 ^ 52 := by
  have hle := binade_le (abs_pos.mpr h)
  rw [ulp, zpow_sub₀ (by norm_num)]
  gcongr
  norm_num

/-- Rounding moves a value by one part in 2^53 at most. -/
theorem abs_toDouble_sub_le_mul (q : ℚ) : |toDouble q - q| ≤ |q| / 2 ^ 53 := by
  by_cases h : q = 0
  · subst h
    simp [toDouble, roundEven]
  · have hround := abs_toDouble_sub_le q
    have hulp := ulp_le h
    have hhalf : |q| / 2 ^ 52 / 2 = |q| / 2 ^ 53 := by ring
    linarith

theorem toDouble_nonneg (h : 0 ≤ q) : 0 ≤ toDouble q :=
  mul_nonneg (by exact_mod_cast roundEven_nonneg (div_nonneg h (ulp_pos q).le)) (ulp_pos q).le

/-- A positive value and its double, between bounds. -/
theorem toDouble_bounds (h : 0 ≤ q) :
    q * (1 - 1 / 2 ^ 53) ≤ toDouble q ∧ toDouble q ≤ q * (1 + 1 / 2 ^ 53) := by
  have hround := abs_le.mp (abs_toDouble_sub_le_mul q)
  rw [abs_of_nonneg h] at hround
  constructor <;> linarith [hround.1, hround.2]

theorem ulp_eq {g : ℤ} (hlow : (2 : ℚ) ^ g ≤ q) (hhigh : q < (2 : ℚ) ^ (g + 1)) :
    ulp q = 2 ^ (g - 52) := by
  have hpos : 0 < q := lt_of_lt_of_le (zpow_pos (by norm_num) _) hlow
  have hle : g ≤ Int.log 2 q :=
    (Int.zpow_le_iff_le_log (by norm_num) hpos).mp (by exact_mod_cast hlow)
  have hlt : Int.log 2 q < g + 1 :=
    (Int.lt_zpow_iff_log_lt (by norm_num) hpos).mp (by exact_mod_cast hhigh)
  rw [ulp, abs_of_pos hpos, show Int.log 2 q = g by omega]

/-- A value `d` units short of a multiple of its unit is rounded below it exactly when `d` is more
    than a half. -/
theorem toDouble_lt_iff {d : ℚ} (h : q = (n - d) * ulp q) (hd : d ≠ 1 / 2) :
    toDouble q < n * ulp q ↔ 1 / 2 < d := by
  have hpos := ulp_pos q
  have hquot : q / ulp q = n - d := by
    rw [div_eq_iff hpos.ne']
    exact h
  rw [toDouble, mul_lt_mul_iff_left₀ hpos, Int.cast_lt, hquot]
  constructor
  · intro hlt
    by_contra hle
    have hshort : d < 1 / 2 := lt_of_le_of_ne (not_lt.mp hle) hd
    exact absurd (le_roundEven (n := n) (q := n - d) (by linarith)) (not_le.mpr hlt)
  · intro hlt
    exact roundEven_lt (by linarith)

end SignalEngine.Lib
