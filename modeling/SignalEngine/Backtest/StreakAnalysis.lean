/-
  StreakAnalysis: loss streaks and drawdown of a backtest, in units of R.

  Model. The arrays of numpy are lists. A result is what `np.where` writes into the column `res`,
  an index array picks entries in its order (`RNG.shuffle` makes one of all indices). The edges
  of `_max_run` are those of the padded difference array, `starts` where it is `1` and `ends`
  where it is `-1`; each run has one of either (`starts_eq`, `ends_eq`), so the two can be
  subtracted.

  Proved: the scan of `_loss_streak_lengths` and the edges of `_max_run` both describe the runs
  of `Lib.runs`, so the observed streak and the shuffled ones measure the same. The drawdown of
  `_max_dd` is the largest fall of the curve after its first point, that of the account in fixed
  risk mode the largest fall from the start balance on; they differ where the account loses more
  from its start than it ever does again.
-/
import SignalEngine.Backtest.Accounting
import SignalEngine.Lib.Falls
import SignalEngine.Lib.Runs

namespace SignalEngine

open Lib

/-! ## The results of the trades -/

/-- The column `res`. -/
inductive Res where
  | L
  | W
  | B
  deriving DecidableEq, Repr

/-- `EPS`. -/
def streakEps : ℚ := 1 / 10 ^ 9

def resOf (R : ℚ) : Res := if R < -streakEps then .L else if R > streakEps then .W else .B

/-- `res == "L"`. -/
def isLoss (res : List Res) : List Bool := res.map fun r => decide (r = .L)

/-- `xs[idx]`. -/
def takeIdx {α : Type*} (xs : List α) (idx : List ℕ) : List α := idx.filterMap (xs[·]?)

/-! ## Loss streaks -/

/-- The body of the loop, on `out` and `cur`. -/
def lossStreakStep (s : List ℕ × ℕ) (r : Res) : List ℕ × ℕ :=
  if r = .L then (s.1, s.2 + 1)
  else if s.2 ≠ 0 then (s.1 ++ [s.2], 0)
  else s

/-- `if cur: out.append(cur)`. -/
def lossStreakFlush (s : List ℕ × ℕ) : List ℕ := if s.2 ≠ 0 then s.1 ++ [s.2] else s.1

/-- `_loss_streak_lengths`. -/
def lossStreakLengths (resArr : List Res) : List ℕ :=
  lossStreakFlush (resArr.foldl lossStreakStep ([], 0))

/-- `obs_max` of `_streak_report`. -/
def obsMax (res : List Res) : ℕ := (lossStreakLengths res).max?.getD 0

/-- `astype(np.int8)`. -/
def asInt8 (b : Bool) : ℤ := if b then 1 else 0

/-- `np.diff`. -/
def diff : List ℤ → List ℤ
  | a :: b :: xs => (b - a) :: diff (b :: xs)
  | _ => []

/-- `d` of `_max_run`. -/
def edges (boolArr : List Bool) : List ℤ := diff ((false :: (boolArr ++ [false])).map asInt8)

/-- `np.where(d == 1)[0]`. -/
def starts (boolArr : List Bool) : List ℕ := (edges boolArr).findIdxs (· == 1)

/-- `np.where(d == -1)[0]`. -/
def ends (boolArr : List Bool) : List ℕ := (edges boolArr).findIdxs (· == -1)

/-- `_max_run`. -/
def maxRun (boolArr : List Bool) : ℤ :=
  if starts boolArr = [] then 0
  else (List.zipWith (fun (e s : ℕ) => (e : ℤ) - s) (ends boolArr) (starts boolArr)).max?.getD 0

/-- A sample of `streak_null`. -/
def streakNull (resArr : List Res) (idx : List ℕ) : ℤ := maxRun (takeIdx (isLoss resArr) idx)

@[simp] theorem isLoss_cons (r : Res) (res : List Res) :
    isLoss (r :: res) = decide (r = .L) :: isLoss res := rfl

theorem isLoss_takeIdx (res : List Res) (idx : List ℕ) :
    isLoss (takeIdx res idx) = takeIdx (isLoss res) idx := by
  simp only [isLoss, takeIdx, List.map_filterMap, List.getElem?_map]

theorem count_isLoss (res : List Res) : (isLoss res).count true = res.count .L := by
  rw [isLoss, List.count, List.countP_map, List.count]
  exact List.countP_congr fun r _ => by simp

theorem lossStreakFlush_eq (out : List ℕ) (k cur : ℕ) :
    lossStreakFlush (out, cur) = out ++ (closeRun k cur).map (·.2) := by
  unfold lossStreakFlush closeRun
  split_ifs <;> simp_all

/-- A result that is not a loss closes the streak. -/
theorem lossStreakStep_of_ne {r : Res} (hr : r ≠ .L) (out : List ℕ) (cur : ℕ) :
    lossStreakStep (out, cur) r = (lossStreakFlush (out, cur), 0) := by
  unfold lossStreakStep lossStreakFlush
  rw [if_neg hr]
  split_ifs with h
  · rfl
  · rw [not_ne_iff] at h
    exact Prod.ext rfl h

/-- The loop from any open streak. -/
theorem lossStreakFlush_foldl (res : List Res) (k cur : ℕ) (out : List ℕ) :
    lossStreakFlush (res.foldl lossStreakStep (out, cur)) =
      out ++ (runsFrom k cur (isLoss res)).map (·.2) := by
  induction res generalizing k cur out with
  | nil => exact lossStreakFlush_eq out k cur
  | cons r res ih =>
      rw [List.foldl_cons, isLoss_cons]
      by_cases hr : r = .L
      · rw [decide_eq_true hr, runsFrom, lossStreakStep, if_pos hr]
        exact ih (k + 1) (cur + 1) out
      · rw [decide_eq_false hr, runsFrom, lossStreakStep_of_ne hr, ih (k + 1) 0,
          lossStreakFlush_eq out k, List.map_append, List.append_assoc]

theorem lossStreakLengths_eq (res : List Res) :
    lossStreakLengths res = (runs (isLoss res)).map (·.2) := by
  rw [lossStreakLengths, lossStreakFlush_foldl res 0, List.nil_append, runs]

/-! ## The edges of the runs -/

/-- The differences from the last entry read on. -/
def edgesFrom (prev : Bool) (xs : List Bool) : List ℤ :=
  diff ((prev :: (xs ++ [false])).map asInt8)

theorem edgesFrom_cons (prev x : Bool) (xs : List Bool) :
    edgesFrom prev (x :: xs) = (asInt8 x - asInt8 prev) :: edgesFrom x xs := rfl

/-- The rising edges; the run that is open at `k` had its edge before. -/
theorem rising_edges (xs : List Bool) (k cur : ℕ) :
    (closeRun k cur).map (·.1) ++ (edgesFrom (decide (0 < cur)) xs).findIdxs (· == 1) k =
      (runsFrom k cur xs).map (·.1) := by
  induction xs generalizing k cur with
  | nil =>
      by_cases hcur : 0 < cur <;> simp [edgesFrom, diff, runsFrom, asInt8, hcur]
  | cons x xs ih =>
      rw [edgesFrom_cons, List.findIdxs_cons]
      cases x with
      | true =>
          have hnext := ih (k + 1) (cur + 1)
          rw [decide_eq_true (Nat.succ_pos cur), closeRun_pos (Nat.succ_pos cur)] at hnext
          rw [runsFrom, ← hnext]
          by_cases hcur : 0 < cur
          · simp [closeRun_pos hcur, asInt8, hcur]
          · simp [Nat.eq_zero_of_not_pos hcur, asInt8]
      | false =>
          have hnext := ih (k + 1) 0
          rw [decide_eq_false (lt_irrefl 0), closeRun_zero] at hnext
          rw [runsFrom, List.map_append, ← hnext]
          by_cases hcur : 0 < cur <;> simp [asInt8, hcur]

/-- The falling edges. -/
theorem falling_edges (xs : List Bool) (k cur : ℕ) (hle : cur ≤ k) :
    (edgesFrom (decide (0 < cur)) xs).findIdxs (· == -1) k =
      (runsFrom k cur xs).map fun r => r.1 + r.2 := by
  induction xs generalizing k cur with
  | nil =>
      by_cases hcur : 0 < cur
      · simp [edgesFrom, diff, runsFrom, asInt8, hcur, closeRun_pos, hle]
      · simp [edgesFrom, diff, runsFrom, asInt8, Nat.eq_zero_of_not_pos hcur]
  | cons x xs ih =>
      rw [edgesFrom_cons, List.findIdxs_cons]
      cases x with
      | true =>
          have hnext := ih (k + 1) (cur + 1) (by omega)
          rw [decide_eq_true (Nat.succ_pos cur)] at hnext
          rw [runsFrom, ← hnext]
          by_cases hcur : 0 < cur <;> simp [asInt8, hcur]
      | false =>
          have hnext := ih (k + 1) 0 (Nat.zero_le _)
          rw [decide_eq_false (lt_irrefl 0)] at hnext
          rw [runsFrom, List.map_append, ← hnext]
          by_cases hcur : 0 < cur
          · simp [asInt8, hcur, closeRun_pos, hle]
          · simp [asInt8, Nat.eq_zero_of_not_pos hcur]

theorem starts_eq (boolArr : List Bool) : starts boolArr = (runs boolArr).map (·.1) :=
  rising_edges boolArr 0 0

theorem ends_eq (boolArr : List Bool) : ends boolArr = (runs boolArr).map fun r => r.1 + r.2 :=
  falling_edges boolArr 0 0 le_rfl

theorem max?_natCast (xs : List ℕ) :
    ((xs.map Nat.cast : List ℤ).max?.getD 0) = (xs.max?.getD 0 : ℕ) := by
  cases xs with
  | nil => rfl
  | cons x xs =>
      rw [List.map_cons, List.max?_cons', List.max?_cons', Option.getD_some, Option.getD_some]
      induction xs generalizing x with
      | nil => rfl
      | cons y ys ih => simpa using ih (max x y)

/-- The edges lie as far apart as their run is long. -/
theorem maxRun_eq (boolArr : List Bool) :
    maxRun boolArr = (((runs boolArr).map (·.2)).max?.getD 0 : ℕ) := by
  have hdiff : List.zipWith (fun (e s : ℕ) => (e : ℤ) - s) (ends boolArr) (starts boolArr) =
      ((runs boolArr).map (·.2)).map Nat.cast := by
    rw [starts_eq, ends_eq, List.zipWith_map, List.zipWith_self, List.map_map]
    exact List.map_congr_left fun r _ => by simp
  rw [maxRun, hdiff, max?_natCast, starts_eq]
  split_ifs with h
  · rw [List.map_eq_nil_iff.mp h]
    rfl
  · rfl

theorem maxRun_isLoss (res : List Res) : maxRun (isLoss res) = obsMax res := by
  rw [maxRun_eq, obsMax, lossStreakLengths_eq]

/-- Both computations measure the runs of losses, also in a shuffled sample. -/
theorem loss_streaks_agree (res : List Res) :
    (obsMax res : ℤ) = maxRun (isLoss res) ∧
    (∃ found : List (ℕ × ℕ),
      lossStreakLengths res = found.map (·.2) ∧
      (∀ i n, (i, n) ∈ found ↔ MaximalRun (isLoss res) i n) ∧
      found.Pairwise fun a b => a.1 + a.2 < b.1) ∧
    (lossStreakLengths res).sum = res.count .L ∧
    ∀ idx, streakNull res idx = obsMax (takeIdx res idx) := by
  refine ⟨(maxRun_isLoss res).symm, ⟨runs (isLoss res), lossStreakLengths_eq res,
    fun _ _ => mem_runs, pairwise_runs _⟩, ?_, fun idx => ?_⟩
  · rw [lossStreakLengths_eq, sum_runs, count_isLoss]
  · rw [streakNull, ← isLoss_takeIdx, maxRun_isLoss]

example : lossStreakLengths [.L, .L, .W, .L, .B, .B, .L, .L, .L] = [2, 1, 3] ∧
    maxRun (isLoss [.L, .L, .W, .L, .B, .B, .L, .L, .L]) = 3 := by
  decide

/-! ## Drawdown -/

/-- `np.cumsum`. -/
def cumsum (xs : List ℚ) : List ℚ := (xs.scanl (· + ·) 0).tail

/-- `np.maximum.accumulate`. -/
def maximumAccumulate : List ℚ → List ℚ
  | [] => []
  | x :: xs => xs.scanl max x

/-- `_max_dd`: `min()` of an empty array raises. -/
def maxDd (rArr : List ℚ) : Option ℚ :=
  let eq := cumsum rArr
  let peak := maximumAccumulate eq
  (List.zipWith (· - ·) eq peak).min?

theorem tail_scanl_cons {α β : Type*} (f : β → α → β) (b : β) (x : α) (xs : List α) :
    ((x :: xs).scanl f b).tail = f b x :: (xs.scanl f (f b x)).tail := by
  cases xs <;> simp [List.scanl_cons]

theorem neg_fall_move (c : Curve ℚ) (x : ℚ) :
    -(c.move x).fall = min (-c.fall) (c.level + x - max c.peak (c.level + x)) := by
  show -max c.fall (max c.peak (c.level + x) - (c.level + x)) = _
  rw [← min_neg_neg, neg_sub]

/-- The points of a curve below its peaks, from any level and peak. -/
theorem foldl_min_drawdowns (xs : List ℚ) (c : Curve ℚ) :
    (List.zipWith (· - ·) (xs.scanl (· + ·) c.level).tail
      ((xs.scanl (· + ·) c.level).tail.scanl max c.peak).tail).foldl min (-c.fall) =
      -(xs.foldl Curve.move c).fall := by
  induction xs generalizing c with
  | nil => simp
  | cons x xs ih =>
      rw [List.foldl_cons, ← ih (c.move x), tail_scanl_cons, tail_scanl_cons,
        List.zipWith_cons_cons, List.foldl_cons, neg_fall_move]
      rfl

/-- The first trade only sets the level the curve starts from. -/
theorem maxDd_cons (r : ℚ) (rs : List ℚ) :
    maxDd (r :: rs) = some (-(rs.foldl Curve.move (Curve.start r)).fall) := by
  have hcum : cumsum (r :: rs) = r :: (rs.scanl (· + ·) r).tail := by
    rw [cumsum, tail_scanl_cons, zero_add]
  have hacc : maximumAccumulate (r :: (rs.scanl (· + ·) r).tail) =
      r :: ((rs.scanl (· + ·) r).tail.scanl max r).tail := by
    rw [maximumAccumulate]
    cases (rs.scanl (· + ·) r).tail <;> simp [List.scanl_cons]
  rw [maxDd, hcum, hacc, List.zipWith_cons_cons, List.min?_cons', sub_self,
    ← foldl_min_drawdowns]
  rw [show -(Curve.start r).fall = 0 from neg_zero]
  rfl

/-- `_max_dd` is the largest fall over the trades after the first. -/
theorem isGreatest_maxDd (r : ℚ) (rs : List ℚ) :
    ∃ d, maxDd (r :: rs) = some d ∧ IsGreatest (Falls rs) (-d) :=
  ⟨_, maxDd_cons r rs, by rw [neg_neg]; exact isGreatest_fall r rs⟩

/-! ## The drawdown of the account -/

/-- Fixed risk and no kill limits. -/
structure FlatRisk (ru : RiskRules) : Prop where
  fixed : ru.riskType = .fixed
  noTrailing : ru.maxTrailingDdPct = none
  noTotal : ru.maxTotalLossPct = none

/-- The amount risked on each trade of an account in fixed mode. -/
def RiskRules.riskAmount (ru : RiskRules) : ℚ := ru.startBalance * (ru.riskPercent / 100)

/-- The account is the start balance and the curve in R, scaled by the amount risked. -/
structure Tracks (ru : RiskRules) (c : Curve ℚ) (st : AccountState) : Prop where
  balance : st.balance = ru.startBalance + ru.riskAmount * c.level
  peak : st.peak = ru.startBalance + ru.riskAmount * c.peak
  maxDd : st.maxDd = ru.riskAmount * c.fall

variable {ru : RiskRules}

theorem FlatRisk.killCheck (h : FlatRisk ru) (idx : ℕ) (date : Option ℤ) (acct : TradeAccounting) :
    killCheck ru idx date acct = none := by
  simp [SignalEngine.killCheck, h.noTrailing, h.noTotal]

theorem tracks_opening (ru : RiskRules) : Tracks ru (Curve.start 0) (AccountState.opening ru) where
  balance := by simp [Curve.start, AccountState.opening]
  peak := by simp [Curve.start, AccountState.opening]
  maxDd := by simp [Curve.start, AccountState.opening]

/-- One trade moves the curve by its R. -/
theorem Tracks.bookTrade {c : Curve ℚ} {st : AccountState} (h : Tracks ru c st)
    (hflat : FlatRisk ru) (hrisk : 0 ≤ ru.riskAmount) (idx : ℕ) (date : Option ℤ)
    (r : BacktestResult) :
    Tracks ru (c.move r.realizedRr) (bookTrade ru st idx date r) := by
  have hbalance : (SignalEngine.bookTrade ru st idx date r).balance =
      ru.startBalance + ru.riskAmount * (c.level + r.realizedRr) := by
    show st.balance + r.realizedRr * (ru.fixedBasis.getD st.balance * (ru.riskPercent / 100)) = _
    rw [h.balance, RiskRules.fixedBasis, if_pos hflat.fixed, Option.getD_some]
    unfold RiskRules.riskAmount
    ring
  have hpeak : (SignalEngine.bookTrade ru st idx date r).peak =
      ru.startBalance + ru.riskAmount * max c.peak (c.level + r.realizedRr) := by
    show max st.peak (SignalEngine.bookTrade ru st idx date r).balance = _
    rw [hbalance, h.peak, max_add_add_left, ← mul_max_of_nonneg _ _ hrisk]
  refine ⟨hbalance, hpeak, ?_⟩
  show max st.maxDd ((SignalEngine.bookTrade ru st idx date r).peak -
    (SignalEngine.bookTrade ru st idx date r).balance) = _
  rw [hbalance, hpeak, h.maxDd, add_sub_add_left_eq_sub, ← mul_sub,
    ← mul_max_of_nonneg _ _ hrisk]
  rfl

theorem Tracks.bookTrades {c : Curve ℚ} {st st' : AccountState} {idx : ℕ}
    {rest : List BacktestResult} (h : Tracks ru c st) (hflat : FlatRisk ru)
    (hrisk : 0 ≤ ru.riskAmount) (hrun : bookTrades ru st idx rest = .ok st') :
    Tracks ru ((rest.map (·.realizedRr)).foldl Curve.move c) st' := by
  induction rest generalizing c st idx with
  | nil =>
      cases hrun
      exact h
  | cons r rs ih =>
      unfold SignalEngine.bookTrades at hrun
      split at hrun
      · cases hrun
      · rename_i date _
        rw [hflat.killCheck] at hrun
        exact ih (h.bookTrade hflat hrisk idx date r) hrun

/-- The drawdown of the summary is the largest fall of the whole curve. -/
theorem isGreatest_maxDrawdown {rep : BacktestReport} {results : List BacktestResult}
    {riskPercent : Option ℚ} {riskType : Option RiskType}
    {maxTrailingDdPct maxTotalLossPct : Option ℚ} {out : List TradeRow × AccountSummary}
    (hru : rep.rules riskPercent riskType maxTrailingDdPct maxTotalLossPct = ru)
    (hflat : FlatRisk ru) (hrisk : 0 < ru.riskAmount)
    (h : rep.computeAccounting results riskPercent riskType maxTrailingDdPct maxTotalLossPct =
      .ok out) :
    IsGreatest (Falls (results.map (·.realizedRr))) (out.2.maxDrawdown / ru.riskAmount) := by
  unfold BacktestReport.computeAccounting at h
  dsimp only at h
  rw [hru] at h
  split at h
  · cases h
  · rename_i st hst
    cases h
    have htracks := (tracks_opening ru).bookTrades hflat hrisk.le hst
    have hfall : st.maxDd / ru.riskAmount =
        ((results.map (·.realizedRr)).foldl Curve.move (Curve.start 0)).fall := by
      rw [htracks.maxDd, mul_div_cancel_left₀ _ hrisk.ne']
    rw [show (summarize ru st).maxDrawdown = st.maxDd from rfl, hfall]
    exact isGreatest_fall 0 _

/-- No opening run of trades loses more than some run that leaves the first trade out. -/
def OpeningLossesMatched (rArr : List ℚ) : Prop :=
  ∀ opening, opening <+: rArr → ∃ run, run <:+: rArr.tail ∧ run.sum ≤ opening.sum

/-- The two drawdowns agree where the losses from the start are matched later. -/
theorem maxDd_eq_maxDrawdown_iff (rep : BacktestReport) (results : List BacktestResult)
    (riskPercent : Option ℚ) (riskType : Option RiskType)
    (maxTrailingDdPct maxTotalLossPct : Option ℚ) (ru : RiskRules)
    (hru : rep.rules riskPercent riskType maxTrailingDdPct maxTotalLossPct = ru)
    (hflat : FlatRisk ru) (hrisk : 0 < ru.riskAmount) (hne : results ≠ []) :
    (∀ out, rep.computeAccounting results riskPercent riskType maxTrailingDdPct maxTotalLossPct =
        .ok out →
      ∃ d, maxDd (results.map (·.realizedRr)) = some d ∧
        (-d = out.2.maxDrawdown / ru.riskAmount ↔
          OpeningLossesMatched (results.map (·.realizedRr)))) ∧
    ((∀ r ∈ results, DatedClose r) → ∃ out,
      rep.computeAccounting results riskPercent riskType maxTrailingDdPct maxTotalLossPct =
        .ok out) := by
  refine ⟨fun out hout => ?_, fun hdated => exists_computeAccounting rep _ _ _ _ hdated⟩
  obtain ⟨r, rs, rfl⟩ := List.exists_cons_of_ne_nil hne
  obtain ⟨d, hd, hlater⟩ := isGreatest_maxDd r.realizedRr (rs.map (·.realizedRr))
  exact ⟨d, hd, greatest_falls_eq_iff hlater (isGreatest_maxDrawdown hru hflat hrisk hout)⟩

/-- The trades of `sampleReport`, with fixed risk. -/
def flatReport : BacktestReport := { sampleReport with riskType := .fixed }

theorem maxDd_eq_maxDrawdown_flat :
    ∃ out d, flatReport.computeAccounting flatReport.results none none none none = .ok out ∧
      maxDd (flatReport.results.map (·.realizedRr)) = some d ∧
      (-d = out.2.maxDrawdown / 50 ↔
        OpeningLossesMatched (flatReport.results.map (·.realizedRr))) := by
  have hrisk : (flatReport.rules none none none none).riskAmount = 50 := by decide +kernel
  have hlaws := maxDd_eq_maxDrawdown_iff flatReport flatReport.results none none none none _ rfl
    ⟨rfl, rfl, rfl⟩ (by rw [hrisk]; norm_num) (by simp [flatReport, sampleReport])
  obtain ⟨out, hout⟩ := hlaws.2 (by
    intro r hr ts hts _
    simp only [flatReport, sampleReport, List.mem_map] at hr
    obtain ⟨rr, -, rfl⟩ := hr
    cases hts
    decide)
  obtain ⟨d, hd, hiff⟩ := hlaws.1 out hout
  rw [hrisk] at hiff
  exact ⟨out, d, hout, hd, hiff⟩

/-- A loss first, then a gain: `_max_dd` reports no drawdown at all. -/
theorem maxDd_ne_maxDrawdown :
    ∃ out, flatReport.computeAccounting (flatReport.results.take 2) none none none none =
        .ok out ∧
      out.2.maxDrawdown / (flatReport.rules none none none none).riskAmount = 1 ∧
      maxDd ((flatReport.results.take 2).map (·.realizedRr)) = some 0 := by
  refine ⟨_, rfl, ?_, ?_⟩ <;> decide +kernel

end SignalEngine
