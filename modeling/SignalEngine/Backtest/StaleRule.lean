/-
  The stale rule: two LTF candles as a limit in hours, and in milliseconds again.

  Model. The limit is that of `rejection_stale_hours`, rounded to four decimals. The live engine
  compares its product by `3600000` with the age (rule D), the backtest cuts the product to an
  integer first (`stale_ms`). Quotient, rounding and product are doubles.

  Proved: the limit lies between one candle and three (`staleLimit_bounds`), and two candles are
  over it where the fourth decimal is rounded down, at minutes that leave one modulo three, and
  where the product comes out a unit short, at the multiples of three that `FallsShort` names
  (`staleLimit_lt_two_iff`). So a rejection exactly two candles old passes on both sides, or is
  stale on both, by that condition.
-/
import SignalEngine.Backtest.DedupParity
import SignalEngine.Session.DedupSafety

namespace SignalEngine

open Lib

/-! ## The two tests -/

/-- Rule D turns the setup down. -/
def BlockedAsStale (d : DedupState) (x : Setup) (currentTs : ℤ) (staleHours : ℚ)
    (maxSignalCount : ℕ) : Prop :=
  shouldEmit d x currentTs staleHours maxSignalCount =
    some (.stale x.symbol (currentTs - x.rejection.timestamp) staleHours)

/-- The stale test of `run`. -/
def StaleInRun (ltf : Interval) (pairCurrentTs rejTs : ℤ) : Prop :=
  staleMs ltf < pairCurrentTs - rejTs

theorem signalFor_of_stale {b : Backtest} {v : LtfView} {z : HtfRange} {r : RejectionCandle}
    {st : BacktestState} (h : StaleInRun v.pair.2 v.pairCurrentTs r.timestamp) :
    b.signalFor v z r st = none := by
  unfold Backtest.signalFor
  rw [if_pos (show staleMs v.pair.2 < v.pairCurrentTs - r.timestamp from h)]
  split_ifs <;> rfl

/-- Rule D is reached once rule A has let the setup pass. -/
theorem blockedAsStale_iff {d : DedupState} {x : Setup} {currentTs : ℤ} {staleHours : ℚ}
    {maxSignalCount : ℕ} (hzone : x.zoneKey ∉ d.deadZones)
    (hcount : d.zoneSignalCounts x.zoneKey < maxSignalCount) :
    BlockedAsStale d x currentTs staleHours maxSignalCount ↔
      toDouble (staleHours * msPerHour) < ((currentTs - x.rejection.timestamp : ℤ) : ℚ) := by
  unfold BlockedAsStale shouldEmit
  dsimp only
  rw [if_neg (not_or.mpr ⟨hzone, not_le.mpr hcount⟩)]
  split_ifs with hage hseen
  · exact iff_of_true rfl hage
  · exact iff_of_false (by simp) hage
  · exact iff_of_false (by simp) hage

/-! ## The limit -/

/-- The limit of both tests, in milliseconds. -/
def staleLimit (ltf : Interval) : ℚ := toDouble (rejectionStaleHours ltf * msPerHour)

/-- The limit lies between one candle and three. -/
theorem staleLimit_bounds (ltf : Interval) :
    (intervalMs ltf : ℚ) ≤ staleLimit ltf ∧ staleLimit ltf < 3 * intervalMs ltf := by
  have hpos : (1 : ℚ) ≤ intervalToMinutes ltf := by exact_mod_cast intervalToMinutes_pos ltf
  have hquot := toDouble_bounds (q := (intervalToMinutes ltf : ℚ) * 2 / 60) (by positivity)
  have hround := abs_le.mp
    (abs_pyRoundTo_four_sub_le (toDouble ((intervalToMinutes ltf : ℚ) * 2 / 60)))
  unfold staleLimit rejectionStaleHours msPerHour intervalMs
  push_cast
  generalize (intervalToMinutes ltf : ℚ) = m at *
  generalize toDouble (m * 2 / 60) = y at *
  generalize pyRoundTo y 4 = r at *
  have hhours := toDouble_bounds (q := r) (by linarith)
  generalize toDouble r = hours at *
  have hlimit := toDouble_bounds (q := hours * 3600000) (by linarith)
  constructor <;> linarith

/-- What rounding adds to two candles of `m` minutes, in units of 120 ms. -/
def staleCarry (m : ℕ) : ℤ := if m % 3 = 1 then -1 else if m % 3 = 2 then 1 else 0

/-- The fourth digit of the hours is a third of `1000 m`, rounded. -/
theorem pyRound_hours {m : ℕ} (hm : m < 2 ^ 40) :
    3 * pyRound (toDouble ((m : ℚ) * 2 / 60) * 10 ^ 4) = 1000 * m + staleCarry m := by
  have hcarry : |staleCarry m| ≤ 1 := by
    unfold staleCarry
    split_ifs <;> decide
  obtain ⟨r, hr⟩ : ∃ r : ℤ, 3 * r = 1000 * m + staleCarry m := by
    refine ⟨(1000 * m + staleCarry m) / 3, ?_⟩
    unfold staleCarry
    split_ifs <;> omega
  have hquot := abs_le.mp (abs_toDouble_sub_le_mul ((m : ℚ) * 2 / 60))
  rw [abs_of_nonneg (show (0 : ℚ) ≤ (m : ℚ) * 2 / 60 by positivity)] at hquot
  have hsize : (m : ℚ) < 2 ^ 40 := by exact_mod_cast hm
  have hthird : (3 : ℚ) * r = 1000 * m + staleCarry m := by exact_mod_cast hr
  have hunit : |(staleCarry m : ℚ)| ≤ 1 := by exact_mod_cast hcarry
  have hbounds := abs_le.mp hunit
  rw [← hr, pyRound, roundEven_eq_of_abs_lt (n := r)]
  rw [abs_lt]
  constructor <;> linarith

theorem rejectionStaleHours_eq {ltf : Interval} (hm : intervalToMinutes ltf < 2 ^ 40) :
    rejectionStaleHours ltf =
      toDouble
        ((1000 * intervalToMinutes ltf + staleCarry (intervalToMinutes ltf) : ℤ) / 30000) := by
  have hthird : (3 : ℚ) * pyRound (toDouble ((intervalToMinutes ltf : ℚ) * 2 / 60) * 10 ^ 4) =
      (1000 * intervalToMinutes ltf + staleCarry (intervalToMinutes ltf) : ℤ) := by
    exact_mod_cast pyRound_hours hm
  rw [rejectionStaleHours, pyRoundTo, ← hthird]
  congr 1
  ring

/-! ## Lengths divisible by three -/

/-- `3 * j` minutes come out short: a power of two takes `j` into the binade of fifths, two fifths
    above a double, and its product stays in the lower of the two binades it can be in. -/
def FallsShort (j : ℕ) : Prop :=
  ∃ a < 56, 5 * 2 ^ 52 ≤ 2 ^ a * j ∧ 5625 * (2 ^ a * j - 2) < 2 ^ 67 ∧ 2 ^ a * j % 5 = 2

instance (j : ℕ) : Decidable (FallsShort j) :=
  inferInstanceAs (Decidable (∃ a < 56, _ ∧ _ ∧ _))

theorem roundEven_fifth (n : ℤ) : roundEven ((n : ℚ) / 5) = (n + 2) / 5 := by
  refine roundEven_eq_of_abs_lt ?_
  obtain ⟨c, s, hsum, hlow, hhigh⟩ : ∃ c s : ℤ, n = 5 * c + s ∧ -2 ≤ s ∧ s ≤ 2 :=
    ⟨(n + 2) / 5, n - 5 * ((n + 2) / 5), by omega, by omega, by omega⟩
  have hc : (n + 2) / 5 = c := by omega
  have hlow' : (-2 : ℚ) ≤ s := by exact_mod_cast hlow
  have hhigh' : (s : ℚ) ≤ 2 := by exact_mod_cast hhigh
  rw [hc, hsum, abs_lt]
  push_cast
  constructor <;> linarith

section Tenth

variable {a j : ℕ} {c : ℤ}

/-- The double of `j / 10`, for a `j` scaled into a binade. -/
theorem toDouble_tenth (hlow : 5 * 2 ^ 52 ≤ 2 ^ a * j) (hhigh : 2 ^ a * j < 5 * 2 ^ 53) :
    toDouble ((j : ℚ) / 10) = ((2 ^ a * j + 2) / 5 : ℤ) / (2 * 2 ^ a) := by
  have hlow' : (5 * 2 ^ 52 : ℚ) ≤ 2 ^ a * j := by exact_mod_cast hlow
  have hhigh' : (2 ^ a * j : ℚ) < 5 * 2 ^ 53 := by exact_mod_cast hhigh
  have hscale : (0 : ℚ) < 2 ^ a := by positivity
  have hulp : ulp ((j : ℚ) / 10) = 1 / (2 * 2 ^ a) := by
    rw [ulp_eq (g := 51 - a)]
    · rw [show (51 : ℤ) - a - 52 = -1 - a by ring, zpow_sub₀ (by norm_num), zpow_natCast]
      norm_num
      ring
    · rw [zpow_sub₀ (by norm_num), zpow_natCast, div_le_iff₀ hscale]
      norm_num
      linarith
    · rw [show (51 : ℤ) - a + 1 = 52 - a by ring, zpow_sub₀ (by norm_num), zpow_natCast,
        lt_div_iff₀ hscale]
      norm_num
      linarith
  have hquot : (j : ℚ) / 10 / ulp ((j : ℚ) / 10) = ((2 ^ a * j : ℤ) : ℚ) / 5 := by
    rw [hulp]
    push_cast
    field_simp
    ring
  rw [toDouble, hquot, roundEven_fifth, hulp]
  ring

/-- A product `360000 * s / 2 ^ a` short of `360000 * j`, in a binade whose unit divides
    `360000 * j`. -/
theorem toDouble_product_lt_iff {s : ℤ} {e : ℕ} (hsum : 2 ^ a * (j : ℤ) = 5 * c + s)
    (hunit : (2 : ℤ) ^ e ∣ 360000 * j * 2 ^ a)
    (hbinade : 2 ^ (52 + e) ≤ 1800000 * c ∧ 1800000 * c < 2 ^ (53 + e))
    (hodd : 720000 * s ≠ 2 ^ e) :
    toDouble ((c : ℚ) / (2 * 2 ^ a) * 3600000) < 360000 * j ↔ 2 ^ e < 720000 * s := by
  obtain ⟨n, hn⟩ := hunit
  have hscale : (0 : ℚ) < 2 ^ a := by positivity
  have hsum' : (2 ^ a * j : ℚ) = 5 * c + s := by exact_mod_cast hsum
  have hn' : (360000 * j * 2 ^ a : ℚ) = 2 ^ e * n := by exact_mod_cast hn
  have hlow : (2 ^ (52 + e) : ℚ) ≤ 1800000 * c := by exact_mod_cast hbinade.1
  have hhigh : (1800000 * c : ℚ) < 2 ^ (53 + e) := by exact_mod_cast hbinade.2
  set q : ℚ := (c : ℚ) / (2 * 2 ^ a) * 3600000 with hq
  have hclear : q * 2 ^ a = 1800000 * c := by
    rw [hq]
    field_simp
    ring
  have hulp : ulp q = 2 ^ e / 2 ^ a := by
    have hpow (g : ℕ) : (2 : ℚ) ^ ((g : ℤ) - (a : ℤ)) = 2 ^ g / 2 ^ a := by
      rw [zpow_sub₀ (by norm_num), zpow_natCast, zpow_natCast]
    rw [ulp_eq (g := ((52 + e : ℕ) : ℤ) - a)]
    · rw [← hpow]
      push_cast
      ring_nf
    · rw [hpow, div_le_iff₀ hscale, hclear]
      exact hlow
    · rw [show ((52 + e : ℕ) : ℤ) - a + 1 = ((53 + e : ℕ) : ℤ) - a by push_cast; ring, hpow,
        lt_div_iff₀ hscale, hclear]
      exact hhigh
  have hgrid : (n : ℚ) * ulp q = 360000 * j := by
    rw [hulp, ← mul_div_assoc, div_eq_iff hscale.ne']
    linarith
  have hshort : q = ((n : ℚ) - 360000 * s / 2 ^ e) * ulp q := by
    rw [sub_mul, hgrid, hulp]
    field_simp
    linarith
  have hhalf : (360000 * s / 2 ^ e : ℚ) ≠ 1 / 2 := by
    rw [Ne, div_eq_iff (by positivity)]
    intro heq
    have htwice : (720000 * s : ℚ) = 2 ^ e := by linarith
    exact hodd (by exact_mod_cast htwice)
  rw [← hgrid, toDouble_lt_iff hshort hhalf, lt_div_iff₀ (by positivity),
    ← Int.cast_lt (R := ℚ)]
  push_cast
  constructor <;> intro h <;> linarith

/-- A power of two takes `j` into a binade of fifths. -/
theorem exists_scale (hpos : 0 < j) (hj : j < 2 ^ 40) :
    ∃ a < 56, 5 * 2 ^ 52 ≤ 2 ^ a * j ∧ 2 ^ a * j < 5 * 2 ^ 53 := by
  have hreach : 5 * 2 ^ 52 ≤ 2 ^ 55 * j := by omega
  have hex : ∃ a, 5 * 2 ^ 52 ≤ 2 ^ a * j := ⟨55, hreach⟩
  refine ⟨Nat.find hex, (Nat.find_min' hex hreach).trans_lt (by decide), Nat.find_spec hex, ?_⟩
  rcases h : Nat.find hex with - | before
  · omega
  · have hbefore := Nat.find_min hex (m := before) (by omega)
    rw [Nat.pow_succ, mul_right_comm]
    omega

theorem toDouble_tenth_product_lt_iff_of_scale (hj : j < 2 ^ 40) (hlow : 5 * 2 ^ 52 ≤ 2 ^ a * j)
    (hhigh : 2 ^ a * j < 5 * 2 ^ 53) :
    toDouble (toDouble ((j : ℚ) / 10) * 3600000) < 360000 * j ↔
      5625 * (2 ^ a * j - 2) < 2 ^ 67 ∧ 2 ^ a * j % 5 = 2 := by
  obtain ⟨b, rfl⟩ : ∃ b, a = 15 + b := by
    refine Nat.exists_eq_add_of_le (not_lt.mp fun hlt => ?_)
    have hle : 2 ^ a ≤ 2 ^ 14 := Nat.pow_le_pow_right (by decide) (by omega)
    have hmul := Nat.mul_le_mul hle hj.le
    omega
  rw [toDouble_tenth hlow hhigh]
  have hunit (e : ℕ) (he : e ≤ 21) : (2 : ℤ) ^ e ∣ 360000 * j * 2 ^ (15 + b) := by
    have hsplit : (360000 * j * 2 ^ (15 + b) : ℤ) = 2 ^ 21 * (5625 * j * 2 ^ b) := by
      rw [pow_add]
      ring
    rw [hsplit]
    exact (pow_dvd_pow 2 he).mul_right _
  have hcast : (2 : ℤ) ^ (15 + b) * j = ((2 ^ (15 + b) * j : ℕ) : ℤ) := by push_cast; rfl
  rw [hcast]
  generalize 2 ^ (15 + b) * j = scaled at *
  obtain ⟨c, s, hsum, hs⟩ : ∃ c s : ℤ, (scaled : ℤ) = 5 * c + s ∧ -2 ≤ s ∧ s ≤ 2 :=
    ⟨(scaled + 2) / 5, scaled - 5 * ((scaled + 2) / 5), by omega, by omega⟩
  rw [show ((scaled : ℤ) + 2) / 5 = c by omega]
  by_cases hbinade : 1800000 * c < 2 ^ 73
  · rw [toDouble_product_lt_iff (e := 20) (hcast.trans hsum) (hunit 20 (by decide)) (by omega)
      (by omega)]
    omega
  · rw [toDouble_product_lt_iff (e := 21) (hcast.trans hsum) (hunit 21 (by decide)) (by omega)
      (by omega)]
    omega

end Tenth

/-- The double product of a tenth falls short exactly for the lengths of `FallsShort`. -/
theorem toDouble_tenth_product_lt_iff {j : ℕ} (hpos : 0 < j) (hj : j < 2 ^ 40) :
    toDouble (toDouble ((j : ℚ) / 10) * 3600000) < 360000 * j ↔ FallsShort j := by
  constructor
  · intro hshort
    obtain ⟨a, ha, hlow, hhigh⟩ := exists_scale hpos hj
    exact ⟨a, ha, hlow, (toDouble_tenth_product_lt_iff_of_scale hj hlow hhigh).mp hshort⟩
  · rintro ⟨a, -, hlow, hsize, hrest⟩
    exact (toDouble_tenth_product_lt_iff_of_scale hj hlow (by omega)).mpr ⟨hsize, hrest⟩

/-- 69 and 123 minutes. -/
example : FallsShort 23 ∧ FallsShort 41 ∧ ¬ FallsShort 5 := by decide

/-! ## Whole candles -/

/-- Two candles are within the limit. The hours of a length divisible by three have one digit, and
    only the double product can fall short; else the fourth digit is rounded up or down. From
    `2 ^ 40` minutes on, two million years, doubles are too coarse for this. -/
def TwoCandlesFit (ltf : Interval) : Prop :=
  if intervalToMinutes ltf < 2 ^ 40 then
    intervalToMinutes ltf % 3 = 2 ∨
      intervalToMinutes ltf % 3 = 0 ∧ ¬ FallsShort (intervalToMinutes ltf / 3)
  else ((2 * intervalMs ltf : ℤ) : ℚ) ≤ staleLimit ltf

section Carry

variable {m : ℕ}

theorem product_lt_of_carry_neg (hpos : 0 < m) (hm : m < 2 ^ 40) :
    toDouble (toDouble ((1000 * m + -1 : ℤ) / 30000) * 3600000) < 120000 * m := by
  have hmin : (1 : ℚ) ≤ m := by exact_mod_cast hpos
  have hsize : (m : ℚ) < 2 ^ 40 := by exact_mod_cast hm
  push_cast
  have hhours := toDouble_bounds (q := (1000 * (m : ℚ) + -1) / 30000) (by linarith)
  generalize toDouble ((1000 * (m : ℚ) + -1) / 30000) = hours at *
  have hlimit := toDouble_bounds (q := hours * 3600000) (by linarith)
  linarith

theorem le_product_of_carry_pos (hm : m < 2 ^ 40) :
    120000 * m ≤ toDouble (toDouble ((1000 * m + 1 : ℤ) / 30000) * 3600000) := by
  have hsize : (m : ℚ) < 2 ^ 40 := by exact_mod_cast hm
  push_cast
  have hhours := toDouble_bounds (q := (1000 * (m : ℚ) + 1) / 30000) (by positivity)
  generalize toDouble ((1000 * (m : ℚ) + 1) / 30000) = hours at *
  have hlimit := toDouble_bounds (q := hours * 3600000) (by linarith)
  linarith

end Carry

theorem staleLimit_lt_two_iff (ltf : Interval) :
    staleLimit ltf < ((2 * intervalMs ltf : ℤ) : ℚ) ↔ ¬ TwoCandlesFit ltf := by
  unfold TwoCandlesFit
  split
  case isFalse => exact not_le.symm
  next hm =>
  have hpos := intervalToMinutes_pos ltf
  have htwo : ((2 * intervalMs ltf : ℤ) : ℚ) = 120000 * intervalToMinutes ltf := by
    unfold intervalMs
    push_cast
    ring
  unfold staleLimit msPerHour
  rw [rejectionStaleHours_eq hm, htwo]
  generalize intervalToMinutes ltf = m at *
  have hcarry : staleCarry m = if m % 3 = 1 then -1 else if m % 3 = 2 then 1 else 0 := rfl
  have hrest := Nat.mod_lt m (show 3 > 0 by decide)
  interval_cases hmod : m % 3
  · -- one digit: only the product rounds
    obtain ⟨j, rfl⟩ : ∃ j, m = 3 * j := ⟨m / 3, by omega⟩
    have htenth : ((1000 * (3 * j : ℕ) + staleCarry (3 * j) : ℤ) : ℚ) / 30000 = (j : ℚ) / 10 := by
      rw [hcarry]
      push_cast
      ring
    have hlimit : (120000 * (3 * j : ℕ) : ℚ) = 360000 * j := by
      push_cast
      ring
    rw [htenth, hlimit, toDouble_tenth_product_lt_iff (by omega) (by omega),
      show 3 * j / 3 = j by omega]
    simp
  · rw [hcarry]
    exact iff_of_true (product_lt_of_carry_neg hpos hm) (by simp)
  · rw [hcarry]
    exact iff_of_false (le_product_of_carry_pos hm).not_gt (by simp)

/-- An age of `k` candles is over the limit from the third candle on, or from the second one. -/
theorem staleLimit_lt_iff (ltf : Interval) (k : ℕ) :
    staleLimit ltf < ((k * intervalMs ltf : ℤ) : ℚ) ↔ 2 < k ∨ k = 2 ∧ ¬ TwoCandlesFit ltf := by
  obtain ⟨hlow, hhigh⟩ := staleLimit_bounds ltf
  have hpos : (0 : ℚ) ≤ intervalMs ltf := by
    unfold intervalMs
    positivity
  rcases lt_trichotomy k 2 with hk | rfl | hk
  · have hone : (k : ℚ) ≤ 1 := by exact_mod_cast Nat.le_of_lt_succ hk
    have hle : ((k * intervalMs ltf : ℤ) : ℚ) ≤ staleLimit ltf := by
      push_cast
      nlinarith
    exact iff_of_false hle.not_gt (by omega)
  · rw [Nat.cast_ofNat, staleLimit_lt_two_iff]
    simp
  · have hthree : (3 : ℚ) ≤ k := by exact_mod_cast hk
    refine iff_of_true ?_ (Or.inl hk)
    push_cast
    nlinarith

/-- **The stale rule on whole candles**: both tests let exactly the ages up to two candles pass,
    unless the age is two candles and the limit in doubles falls short of them. -/
theorem staleRule_iff (d : DedupState) (x : Setup) (currentTs : ℤ) (maxSignalCount k : ℕ)
    (hzone : x.zoneKey ∉ d.deadZones) (hcount : d.zoneSignalCounts x.zoneKey < maxSignalCount)
    (hage : currentTs - x.rejection.timestamp = k * intervalMs x.ltfInterval) :
    ((¬ BlockedAsStale d x currentTs (rejectionStaleHours x.ltfInterval) maxSignalCount ↔ k ≤ 2) ∧
        (¬ StaleInRun x.ltfInterval currentTs x.rejection.timestamp ↔ k ≤ 2)) ↔
      TwoCandlesFit x.ltfInterval ∨ k ≠ 2 := by
  have hlive : BlockedAsStale d x currentTs (rejectionStaleHours x.ltfInterval) maxSignalCount ↔
      2 < k ∨ k = 2 ∧ ¬ TwoCandlesFit x.ltfInterval := by
    rw [blockedAsStale_iff hzone hcount, hage]
    exact staleLimit_lt_iff x.ltfInterval k
  have hrun : StaleInRun x.ltfInterval currentTs x.rejection.timestamp ↔
      2 < k ∨ k = 2 ∧ ¬ TwoCandlesFit x.ltfInterval := by
    rw [StaleInRun, staleMs_lt_iff, hage]
    exact staleLimit_lt_iff x.ltfInterval k
  rw [hlive, hrun, and_self]
  constructor
  · intro h
    by_contra hnot
    obtain ⟨hfit, hk⟩ := not_or.mp hnot
    exact h.mpr (not_not.mp hk).le (Or.inr ⟨not_not.mp hk, hfit⟩)
  · intro hfit
    have hno : ¬ (k = 2 ∧ ¬ TwoCandlesFit x.ltfInterval) := by tauto
    rw [or_iff_left hno, not_lt]

/-- Two candles of five minutes. -/
theorem staleRule_fiveMin :
    ((¬ BlockedAsStale {} sampleSetup (sampleRejection.timestamp + 600000)
          (rejectionStaleHours fiveMin) 1 ↔ 2 ≤ 2) ∧
        (¬ StaleInRun fiveMin (sampleRejection.timestamp + 600000) sampleRejection.timestamp ↔
          2 ≤ 2)) ↔
      TwoCandlesFit fiveMin ∨ 2 ≠ 2 :=
  staleRule_iff {} sampleSetup (sampleRejection.timestamp + 600000) 1 2 (by decide) (by decide)
    (by decide)

/-- `sampleSetup` on candles of one minute. -/
def oneMinSetup : Setup := { sampleSetup with ltfInterval := ⟨1, .min, Nat.one_pos⟩ }

/-- On one-minute candles the limit is 119880 ms, and two candles are too old. -/
theorem twoCandles_stale :
    ∃ currentTs : ℤ, currentTs - oneMinSetup.rejection.timestamp =
        2 * (intervalToMinutes oneMinSetup.ltfInterval * 60000) ∧
      BlockedAsStale {} oneMinSetup currentTs (rejectionStaleHours oneMinSetup.ltfInterval) 1 ∧
      StaleInRun oneMinSetup.ltfInterval currentTs oneMinSetup.rejection.timestamp := by
  refine ⟨oneMinSetup.rejection.timestamp + 120000, by decide, ?_, ?_⟩
  · show shouldEmit _ _ _ _ _ = _
    decide +kernel
  · show staleMs _ < _
    decide +kernel

end SignalEngine
