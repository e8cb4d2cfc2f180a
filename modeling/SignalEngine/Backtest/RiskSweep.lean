/-
  Risk sweep: one list of trades booked at several risk levels.

  Model. `riskSweep` is `print_risk_sweep` up to the printing: a `SweepRow` for each line of the
  table, its colours left out, and `first_blown`. `ledger` is the balance and the peak after some
  trades, killed or not; the loop of `_compute_accounting` stops at the first trade after which it
  is below a floor.

  Proved: `blown_no_later`: more risk and tighter kill limits blow an account no later, in both
  modes; and `riskSweep_blown_iff`: over ascending levels, the levels from `first_blown` on are
  those that blow, after no more trades each time. The inequality is that of `Lib.Growth`.
-/
import SignalEngine.Backtest.Accounting
import SignalEngine.Lib.Growth

namespace SignalEngine

open Lib

/-! ## The table -/

/-- `SWEEP_RISK_LEVELS`. -/
def sweepRiskLevels : List ℚ := [1 / 4, 1 / 2, 3 / 4, 1, 5 / 4, 3 / 2, 2, 5 / 2, 3, 5]

structure SweepRow where
  riskPercent : ℚ
  finalBalance : ℚ
  netPnlPct : ℚ
  maxDrawdown : ℚ
  maxDrawdownPct : ℚ
  tradesRun : ℕ
  /-- the trade date of the status "BLOWN", `none` for "SURVIVED" -/
  status : Option (Option ℤ)
  current : Bool
  deriving DecidableEq, Repr

structure RiskSweep where
  rows : List SweepRow
  firstBlown : Option ℚ
  deriving DecidableEq, Repr

/-- The body of the loop. -/
def BacktestReport.sweepRow (rep : BacktestReport) (rp : ℚ) (acct : AccountSummary) : SweepRow where
  riskPercent := rp
  finalBalance := acct.finalBalance
  netPnlPct := acct.netPnlPct
  maxDrawdown := acct.maxDrawdown
  maxDrawdownPct := acct.maxDrawdownPct
  tradesRun := acct.blown.elim rep.results.length fun blown => blown.tradeIndex + 1
  status := acct.blown.map BlownInfo.tradeDate
  current := decide (|rp - rep.riskPercent| < 1 / 1000)

/-- The loop. -/
def BacktestReport.sweepRows (rep : BacktestReport) (maxTrailingDdPct maxTotalLossPct : Option ℚ) :
    List ℚ → Except AccountingError (List SweepRow)
  | [] => .ok []
  | rp :: rest =>
      match rep.computeAccounting rep.results (some rp) none maxTrailingDdPct maxTotalLossPct with
      | .error e => .error e
      | .ok out =>
          (rep.sweepRows maxTrailingDdPct maxTotalLossPct rest).map
            fun rows => rep.sweepRow rp out.2 :: rows

/-- `levels or SWEEP_RISK_LEVELS`. -/
def sweepLevels (levels : List ℚ) : List ℚ := if levels = [] then sweepRiskLevels else levels

/-- `print_risk_sweep`; without results it prints nothing. -/
def BacktestReport.riskSweep (rep : BacktestReport) (levels : List ℚ)
    (maxTrailingDdPct maxTotalLossPct : Option ℚ) : Except AccountingError (Option RiskSweep) :=
  if rep.results = [] then .ok none
  else
    (rep.sweepRows maxTrailingDdPct maxTotalLossPct (sweepLevels levels)).map fun rows =>
      some { rows := rows
             firstBlown := (rows.find? fun row => row.status.isSome).map SweepRow.riskPercent }

/-! ## The ledger -/

/-- Balance and peak after one trade. -/
def ledgerStep (ru : RiskRules) (bp : ℚ × ℚ) (r : BacktestResult) : ℚ × ℚ :=
  ((accountingOf ru bp.1 bp.2 r).balanceAfter, (accountingOf ru bp.1 bp.2 r).peakBalanceAfter)

def ledger (ru : RiskRules) (bp : ℚ × ℚ) (rs : List BacktestResult) : ℚ × ℚ :=
  rs.foldl (ledgerStep ru) bp

/-- The ledger is below a floor after trade `n`. -/
def BelowAt (ru : RiskRules) (bp : ℚ × ℚ) (rs : List BacktestResult) (n : ℕ) : Prop :=
  BelowFloor ru (ledger ru bp (rs.take (n + 1))).1 (ledger ru bp (rs.take (n + 1))).2

/-- `n` is the first trade after which it is. -/
def FirstBelow (ru : RiskRules) (bp : ℚ × ℚ) (rs : List BacktestResult) (n : ℕ) : Prop :=
  n < rs.length ∧ BelowAt ru bp rs n ∧ ∀ k < n, ¬ BelowAt ru bp rs k

/-- The second rules risk at least as much, and their limits are at least as tight. -/
structure Tighter (ru ru' : RiskRules) : Prop where
  start_eq : ru'.startBalance = ru.startBalance
  type_eq : ru'.riskType = ru.riskType
  risk_le : ru.riskPercent ≤ ru'.riskPercent
  trailing : ∀ m ∈ ru.maxTrailingDdPct, ∃ m' ∈ ru'.maxTrailingDdPct, m' ≤ m
  total : ∀ m ∈ ru.maxTotalLossPct, ∃ m' ∈ ru'.maxTotalLossPct, m' ≤ m

/-- Money to lose, a risk and limits that are percentages. -/
structure SoundRules (ru : RiskRules) : Prop where
  start_pos : 0 < ru.startBalance
  risk_pos : 0 < ru.riskPercent
  risk_le : ru.riskPercent ≤ 100
  trailing : ∀ m ∈ ru.maxTrailingDdPct, 0 ≤ m ∧ m ≤ 100
  total : ∀ m ∈ ru.maxTotalLossPct, 0 ≤ m ∧ m ≤ 100

variable {ru ru' : RiskRules} {rs : List BacktestResult} {bp : ℚ × ℚ} {n : ℕ}
  {st st' : AccountState} {idx : ℕ}

theorem ledger_append (ru : RiskRules) (bp : ℚ × ℚ) (rs ss : List BacktestResult) :
    ledger ru bp (rs ++ ss) = ledger ru (ledger ru bp rs) ss :=
  List.foldl_append

theorem killCheck_tradeIndex {date : Option ℤ} {acct : TradeAccounting} {info : BlownInfo}
    (h : killCheck ru idx date acct = some info) : info.tradeIndex = idx := by
  unfold killCheck at h
  grind

/-- The loop stops at the first trade after which the ledger is below a floor. -/
theorem firstBelow_bookTrades (h : bookTrades ru st idx rs = .ok st')
    (hopen : st.blownInfo = none) :
    (∀ info ∈ st'.blownInfo, ∃ n, info.tradeIndex = idx + n ∧
      FirstBelow ru (st.balance, st.peak) rs n) ∧
    (st'.blownInfo = none → ∀ n < rs.length, ¬ BelowAt ru (st.balance, st.peak) rs n) := by
  induction rs generalizing st idx with
  | nil =>
      cases h
      rw [hopen]
      exact ⟨(fun _ hinfo => by cases hinfo), fun _ n hn => absurd hn (Nat.not_lt_zero n)⟩
  | cons r rs ih =>
      unfold bookTrades at h
      split at h
      · cases h
      next date _ =>
      have hzero : BelowAt ru (st.balance, st.peak) (r :: rs) 0 ↔
          (killCheck ru idx date (accountingOf ru st.balance st.peak r)).isSome = true :=
        (killCheck_isSome ru idx date _).symm
      have hsucc : ∀ n, BelowAt ru (st.balance, st.peak) (r :: rs) (n + 1) ↔
          BelowAt ru ((bookTrade ru st idx date r).balance, (bookTrade ru st idx date r).peak) rs
            n := fun _ => Iff.rfl
      dsimp only at h
      split at h
      · next hkill =>
          obtain ⟨info, hinfo⟩ := Option.isSome_iff_exists.mp hkill
          have hlast : st'.blownInfo = some info := by
            cases h
            rw [bookTrade, hinfo]
            rfl
          rw [hlast]
          refine ⟨fun info' hinfo' => ⟨0, ?_, ?_⟩, fun hnone => by cases hnone⟩
          · obtain rfl := Option.some.inj hinfo'
            exact killCheck_tradeIndex hinfo
          · exact ⟨Nat.succ_pos _, hzero.mpr hkill, fun k hk => absurd hk (Nat.not_lt_zero k)⟩
      · next hkill =>
          have hfree : (bookTrade ru st idx date r).blownInfo = none := by
            rw [bookTrade, Option.not_isSome_iff_eq_none.mp hkill, hopen]
            rfl
          obtain ⟨hblown, hnone⟩ := ih h hfree
          refine ⟨fun info hinfo => ?_, fun hfinal n hn => ?_⟩
          · obtain ⟨n, hn, hlt, hbelow, hbefore⟩ := hblown info hinfo
            refine ⟨n + 1, by omega, Nat.succ_lt_succ hlt, (hsucc n).mpr hbelow, fun k hk => ?_⟩
            cases k with
            | zero => exact hzero.not.mpr hkill
            | succ k => exact (hsucc k).not.mpr (hbefore k (by omega))
          · cases n with
            | zero => exact hzero.not.mpr hkill
            | succ n => exact (hsucc n).not.mpr (hnone hfinal n (Nat.lt_of_succ_lt_succ hn))

/-- It books a row for each trade up to that one. -/
theorem length_bookTrades (h : bookTrades ru st idx rs = .ok st') (hopen : st.blownInfo = none) :
    st'.perTrade.length = st.perTrade.length +
      st'.blownInfo.elim rs.length fun info => info.tradeIndex + 1 - idx := by
  induction rs generalizing st idx with
  | nil =>
      cases h
      rw [hopen]
      rfl
  | cons r rs ih =>
      unfold bookTrades at h
      split at h
      · cases h
      next date _ =>
      have hrow : (bookTrade ru st idx date r).perTrade.length = st.perTrade.length + 1 := by
        rw [bookTrade, List.length_append, List.length_singleton]
      dsimp only at h
      split at h
      · next hkill =>
          obtain ⟨info, hinfo⟩ := Option.isSome_iff_exists.mp hkill
          have hlast : st'.blownInfo = some info := by
            cases h
            rw [bookTrade, hinfo]
            rfl
          rw [hlast, Option.elim_some, killCheck_tradeIndex hinfo]
          cases h
          rw [hrow]
          omega
      · next hkill =>
          have hfree : (bookTrade ru st idx date r).blownInfo = none := by
            rw [bookTrade, Option.not_isSome_iff_eq_none.mp hkill, hopen]
            rfl
          rw [ih h hfree, hrow]
          cases hblown : st'.blownInfo with
          | none =>
              rw [Option.elim_none, Option.elim_none, List.length_cons]
              omega
          | some info =>
              obtain ⟨n, hn, -⟩ := (firstBelow_bookTrades h hfree).1 info hblown
              rw [Option.elim_some, Option.elim_some]
              omega

/-! ## Balances and peaks -/

theorem ledger_compound (hmode : ru.riskType = .compound) (bp : ℚ × ℚ)
    (rs : List BacktestResult) :
    (ledger ru bp rs).1 = bp.1 * growth (ru.riskPercent / 100) (rs.map (·.realizedRr)) := by
  induction rs generalizing bp with
  | nil => exact (mul_one _).symm
  | cons r rs ih =>
      have hstep : (ledgerStep ru bp r).1 = bp.1 * (1 + ru.riskPercent / 100 * r.realizedRr) := by
        simp only [ledgerStep, accountingOf, calculateTradeAccounting, RiskRules.fixedBasis, hmode]
        simp only [reduceCtorEq, if_false, Option.getD_none]
        ring
      rw [ledger, List.foldl_cons, ← ledger, ih, hstep, List.map_cons, growth_cons, mul_assoc]

theorem ledger_fixed (hmode : ru.riskType = .fixed) (bp : ℚ × ℚ) (rs : List BacktestResult) :
    (ledger ru bp rs).1 =
      bp.1 + ru.startBalance * (ru.riskPercent / 100) * (rs.map (·.realizedRr)).sum := by
  induction rs generalizing bp with
  | nil => simp [ledger]
  | cons r rs ih =>
      have hstep : (ledgerStep ru bp r).1 =
          bp.1 + ru.startBalance * (ru.riskPercent / 100) * r.realizedRr := by
        simp only [ledgerStep, accountingOf, calculateTradeAccounting, RiskRules.fixedBasis, hmode]
        simp only [if_true, Option.getD_some]
        ring
      rw [ledger, List.foldl_cons, ← ledger, ih, hstep, List.map_cons, List.sum_cons]
      ring

/-- The ledger of an account from its opening. -/
def openLedger (ru : RiskRules) (rs : List BacktestResult) : ℚ × ℚ :=
  ledger ru (ru.startBalance, ru.startBalance) rs

/-- The peak is the balance of some moment, and no balance is above it. -/
theorem openLedger_peak (ru : RiskRules) (rs : List BacktestResult) :
    (∃ i ≤ rs.length, (openLedger ru rs).2 = (openLedger ru (rs.take i)).1) ∧
      ∀ i, (openLedger ru (rs.take i)).1 ≤ (openLedger ru rs).2 := by
  induction rs using List.reverseRecOn with
  | nil =>
      refine ⟨⟨0, le_rfl, rfl⟩, fun i => ?_⟩
      rw [List.take_nil]
      exact le_rfl
  | append_singleton rs r ih =>
      obtain ⟨⟨i, hi, hpeak⟩, hle⟩ := ih
      have hstep : openLedger ru (rs ++ [r]) = ledgerStep ru (openLedger ru rs) r :=
        ledger_append ru _ rs [r]
      have hmax : (openLedger ru (rs ++ [r])).2 =
          max (openLedger ru rs).2 (openLedger ru (rs ++ [r])).1 := by
        rw [hstep]
        rfl
      constructor
      · rcases max_choice (openLedger ru rs).2 (openLedger ru (rs ++ [r])).1 with h | h
        · refine ⟨i, hi.trans (by simp), ?_⟩
          rw [hmax, h, hpeak, List.take_append_of_le_length hi]
        · exact ⟨(rs ++ [r]).length, le_rfl, by rw [hmax, h, List.take_length]⟩
      · intro i
        rw [hmax]
        by_cases hi : i ≤ rs.length
        · rw [List.take_append_of_le_length hi]
          exact le_max_of_le_left (hle i)
        · rw [List.take_of_length_le (by simp; omega)]
          exact le_max_right _ _

/-- The account is below a floor after these trades. -/
def Below (ru : RiskRules) (rs : List BacktestResult) : Prop :=
  BelowFloor ru (openLedger ru rs).1 (openLedger ru rs).2

theorem peak_ge_start (ru : RiskRules) (rs : List BacktestResult) :
    ru.startBalance ≤ (openLedger ru rs).2 :=
  (openLedger_peak ru rs).2 0

/-- A balance below a share of an earlier one is below a trailing floor as tight. -/
theorem below_of_trailing (hs : SoundRules ru) (ht : Tighter ru ru') {m : ℚ}
    (hm : m ∈ ru.maxTrailingDdPct) {i : ℕ}
    (h : (openLedger ru' rs).1 < (openLedger ru' (rs.take i)).1 * (1 - m / 100)) :
    Below ru' rs := by
  obtain ⟨m', hm', hle⟩ := ht.trailing m hm
  have hpeak := (openLedger_peak ru' rs).2 i
  have hstart : 0 < (openLedger ru' rs).2 := by
    have hge := peak_ge_start ru' rs
    rw [ht.start_eq] at hge
    exact hs.start_pos.trans_le hge
  obtain ⟨-, hhundred⟩ := hs.trailing m hm
  refine Or.inl ⟨m', hm', h.trans_le ?_⟩
  calc (openLedger ru' (rs.take i)).1 * (1 - m / 100)
      ≤ (openLedger ru' rs).2 * (1 - m / 100) :=
        mul_le_mul_of_nonneg_right hpeak (by linarith)
    _ ≤ (openLedger ru' rs).2 * (1 - m' / 100) :=
        mul_le_mul_of_nonneg_left (by linarith) hstart.le

theorem below_of_total (hs : SoundRules ru) (ht : Tighter ru ru') {m : ℚ}
    (hm : m ∈ ru.maxTotalLossPct)
    (h : (openLedger ru' rs).1 < ru.startBalance * (1 - m / 100)) : Below ru' rs := by
  obtain ⟨m', hm', hle⟩ := ht.total m hm
  refine Or.inr ⟨m', hm', h.trans_le ?_⟩
  rw [ht.start_eq]
  exact mul_le_mul_of_nonneg_left (by linarith) hs.start_pos.le

/-! ## More risk, in either mode -/

theorem openLedger_segment (hmode : ru.riskType = .compound) (rs : List BacktestResult) (i : ℕ) :
    (openLedger ru rs).1 = (openLedger ru (rs.take i)).1 *
      growth (ru.riskPercent / 100) ((rs.drop i).map (·.realizedRr)) := by
  rw [openLedger, ← List.take_append_drop i rs, ledger_append, ledger_compound hmode]
  simp only [List.take_append_drop]
  rfl

theorem openLedger_nonneg (hmode : ru.riskType = .compound) (hs : SoundRules ru)
    (hr : ∀ r ∈ rs, -1 ≤ r.realizedRr) : 0 ≤ (openLedger ru rs).1 := by
  rw [openLedger, ledger_compound hmode]
  have hpos := hs.risk_pos
  have hle := hs.risk_le
  refine mul_nonneg hs.start_pos.le (growth_nonneg (by linarith) (by linarith) fun x hx => ?_)
  obtain ⟨r, hmem, rfl⟩ := List.mem_map.mp hx
  exact hr r hmem

theorem below_compound (hmode : ru.riskType = .compound) (hs : SoundRules ru)
    (hs' : SoundRules ru') (ht : Tighter ru ru') (hr : ∀ r ∈ rs, -1 ≤ r.realizedRr)
    (h : Below ru rs) : ∃ i ≤ rs.length, Below ru' (rs.take i) := by
  have hmode' : ru'.riskType = .compound := ht.type_eq.trans hmode
  have hpos := hs.risk_pos
  have hle := ht.risk_le
  have hhundred := hs'.risk_le
  -- a stretch of trades that loses more than a share, loses it at the higher risk too
  have hgrowth : ∀ i c, c ≤ 1 →
      growth (ru.riskPercent / 100) ((rs.drop i).map (·.realizedRr)) < c →
      growth (ru'.riskPercent / 100) ((rs.drop i).map (·.realizedRr)) < c := by
    intro i c hc
    refine growth_lt_of_le (by linarith) (by linarith) (by linarith) (fun x hx => ?_) hc
    obtain ⟨r, hmem, rfl⟩ := List.mem_map.mp hx
    exact hr r (List.mem_of_mem_drop hmem)
  have htake : ∀ i, ∀ r ∈ rs.take i, -1 ≤ r.realizedRr :=
    fun i r hmem => hr r (List.mem_of_mem_take hmem)
  rcases h with ⟨m, hm, hfloor⟩ | ⟨m, hm, hfloor⟩
  · obtain ⟨i, hi, hpeak⟩ := (openLedger_peak ru rs).1
    obtain ⟨hzero, -⟩ := hs.trailing m hm
    rw [hpeak, openLedger_segment hmode rs i] at hfloor
    have hbal : 0 < (openLedger ru (rs.take i)).1 := by
      refine (openLedger_nonneg hmode hs (htake i)).lt_of_ne fun heq => ?_
      rw [← heq, zero_mul, zero_mul] at hfloor
      exact lt_irrefl _ hfloor
    have hseg := hgrowth i (1 - m / 100) (by linarith) (lt_of_mul_lt_mul_left hfloor hbal.le)
    rcases (openLedger_nonneg hmode' hs' (htake i)).eq_or_lt with heq | hbal'
    · -- nothing is left at the higher risk: the account was blown by then
      refine ⟨i, hi, below_of_trailing hs ht hm (i := 0) ?_⟩
      have hstart : (openLedger ru' ((rs.take i).take 0)).1 = ru.startBalance := ht.start_eq
      rw [← heq, hstart]
      refine mul_pos hs.start_pos (lt_of_le_of_lt ?_ hseg)
      refine growth_nonneg (by linarith) (by linarith) fun x hx => ?_
      obtain ⟨r, hmem, rfl⟩ := List.mem_map.mp hx
      exact hr r (List.mem_of_mem_drop hmem)
    · refine ⟨rs.length, le_rfl, ?_⟩
      rw [List.take_length]
      refine below_of_trailing hs ht hm (i := i) ?_
      rw [openLedger_segment hmode' rs i]
      exact mul_lt_mul_of_pos_left hseg hbal'
  · obtain ⟨hzero, -⟩ := hs.total m hm
    have hstart := hs.start_pos
    rw [openLedger_segment hmode rs 0] at hfloor
    have hseg := hgrowth 0 (1 - m / 100) (by linarith) (lt_of_mul_lt_mul_left hfloor hstart.le)
    refine ⟨rs.length, le_rfl, ?_⟩
    rw [List.take_length]
    refine below_of_total hs ht hm ?_
    rw [openLedger_segment hmode' rs 0]
    have hopen : (openLedger ru' (rs.take 0)).1 = ru.startBalance := ht.start_eq
    rw [hopen]
    exact mul_lt_mul_of_pos_left hseg hstart

theorem below_fixed (hmode : ru.riskType = .fixed) (hs : SoundRules ru) (ht : Tighter ru ru')
    (h : Below ru rs) : Below ru' rs := by
  have hmode' : ru'.riskType = .fixed := ht.type_eq.trans hmode
  have hpos := hs.risk_pos
  have hle := ht.risk_le
  have hstart := hs.start_pos
  have hbal : ∀ xs, (openLedger ru xs).1 =
      ru.startBalance * (1 + ru.riskPercent / 100 * (xs.map (·.realizedRr)).sum) := by
    intro xs
    rw [openLedger, ledger_fixed hmode]
    ring
  have hbal' : ∀ xs, (openLedger ru' xs).1 =
      ru.startBalance * (1 + ru'.riskPercent / 100 * (xs.map (·.realizedRr)).sum) := by
    intro xs
    rw [openLedger, ledger_fixed hmode', ht.start_eq]
    ring
  -- a loss of more than a share, in units of the amount risked, is larger at the higher risk
  have hscale : ∀ x m : ℚ, 0 ≤ m → ru.riskPercent / 100 * x < -(m / 100) →
      ru'.riskPercent / 100 * x < -(m / 100) := by
    intro x m hm hx
    have hneg : x < 0 := by
      by_contra hx'
      have := mul_nonneg (show 0 ≤ ru.riskPercent / 100 by linarith) (not_lt.mp hx')
      linarith
    refine (mul_le_mul_of_nonpos_right ?_ hneg.le).trans_lt hx
    linarith
  rcases h with ⟨m, hm, hfloor⟩ | ⟨m, hm, hfloor⟩
  · obtain ⟨i, -, hpeak⟩ := (openLedger_peak ru rs).1
    obtain ⟨hzero, -⟩ := hs.trailing m hm
    refine below_of_trailing hs ht hm (i := i) ?_
    rw [hpeak, hbal, hbal, mul_assoc] at hfloor
    have hunit := lt_of_mul_lt_mul_left hfloor hstart.le
    have hloss := hscale ((rs.map (·.realizedRr)).sum -
      ((rs.take i).map (·.realizedRr)).sum * (1 - m / 100)) m hzero (by linarith)
    rw [hbal', hbal', mul_assoc]
    refine mul_lt_mul_of_pos_left ?_ hstart
    linarith
  · obtain ⟨hzero, -⟩ := hs.total m hm
    refine below_of_total hs ht hm ?_
    rw [hbal] at hfloor
    have hunit := lt_of_mul_lt_mul_left hfloor hstart.le
    have hloss := hscale ((rs.map (·.realizedRr)).sum) m hzero (by linarith)
    rw [hbal']
    refine mul_lt_mul_of_pos_left ?_ hstart
    linarith

/-! ## No later -/

theorem not_below_nil (hs : SoundRules ru) : ¬ Below ru [] := by
  have hstart := hs.start_pos
  rintro (⟨m, hm, hfloor⟩ | ⟨m, hm, hfloor⟩)
  · obtain ⟨hzero, -⟩ := hs.trailing m hm
    have hopen : ru.startBalance < ru.startBalance * (1 - m / 100) := hfloor
    nlinarith
  · obtain ⟨hzero, -⟩ := hs.total m hm
    have hopen : ru.startBalance < ru.startBalance * (1 - m / 100) := hfloor
    nlinarith

theorem belowAt_of_tighter (hs : SoundRules ru) (hs' : SoundRules ru') (ht : Tighter ru ru')
    (hr : ru.riskType = .compound → ∀ r ∈ rs, -1 ≤ r.realizedRr)
    (h : BelowAt ru (ru.startBalance, ru.startBalance) rs n) :
    ∃ k ≤ n, BelowAt ru' (ru'.startBalance, ru'.startBalance) rs k := by
  have hbelow : ∃ i ≤ (rs.take (n + 1)).length, Below ru' ((rs.take (n + 1)).take i) := by
    cases hmode : ru.riskType with
    | compound =>
        exact below_compound hmode hs hs' ht (fun r hmem => hr hmode r (List.mem_of_mem_take hmem))
          h
    | fixed =>
        refine ⟨(rs.take (n + 1)).length, le_rfl, ?_⟩
        rw [List.take_length]
        exact below_fixed hmode hs ht h
  obtain ⟨i, hi, hbelow⟩ := hbelow
  rw [List.length_take] at hi
  cases i with
  | zero => exact absurd hbelow (not_below_nil hs')
  | succ k =>
      refine ⟨k, by omega, ?_⟩
      rw [List.take_take, min_eq_left (by omega)] at hbelow
      exact hbelow

variable {rep : BacktestReport} {results : List BacktestResult} {risk risk' : Option ℚ}
  {mode mode' : Option RiskType} {trailing trailing' total total' : Option ℚ}
  {perTrade perTrade' : List TradeRow} {summary summary' : AccountSummary}

/-- The trade that a summary says blew the account, and the rows up to it. -/
theorem firstBelow_of_ok
    (h : rep.computeAccounting results risk mode trailing total = .ok (perTrade, summary)) :
    (∀ info ∈ summary.blown, FirstBelow (rep.rules risk mode trailing total)
      (rep.startBalance, rep.startBalance) results info.tradeIndex) ∧
    (summary.blown = none → ∀ n < results.length, ¬ BelowAt (rep.rules risk mode trailing total)
      (rep.startBalance, rep.startBalance) results n) ∧
    perTrade.length = summary.blown.elim results.length fun info => info.tradeIndex + 1 := by
  unfold BacktestReport.computeAccounting at h
  dsimp only at h
  split at h
  · cases h
  · next st hst =>
      cases h
      obtain ⟨hblown, hnone⟩ := firstBelow_bookTrades hst rfl
      refine ⟨fun info hinfo => ?_, hnone, ?_⟩
      · obtain ⟨n, hn, hfirst⟩ := hblown info hinfo
        rw [hn, Nat.zero_add]
        exact hfirst
      · exact (length_bookTrades hst rfl).trans (Nat.zero_add _)

theorem blown_of_tighter (hs : SoundRules (rep.rules risk mode trailing total))
    (hs' : SoundRules (rep.rules risk' mode' trailing' total'))
    (ht : Tighter (rep.rules risk mode trailing total) (rep.rules risk' mode' trailing' total'))
    (hr : (rep.rules risk mode trailing total).riskType = .compound →
      ∀ r ∈ results, -1 ≤ r.realizedRr)
    (h : rep.computeAccounting results risk mode trailing total = .ok (perTrade, summary))
    (h' : rep.computeAccounting results risk' mode' trailing' total' = .ok (perTrade', summary')) :
    ∀ info ∈ summary.blown, ∃ info' ∈ summary'.blown, info'.tradeIndex ≤ info.tradeIndex := by
  intro info hinfo
  obtain ⟨hlt, hbelow, -⟩ := (firstBelow_of_ok h).1 info hinfo
  obtain ⟨k, hk, hbelow'⟩ := belowAt_of_tighter hs hs' ht hr hbelow
  obtain ⟨hblown, hnone, -⟩ := firstBelow_of_ok h'
  cases hinfo' : summary'.blown with
  | none => exact absurd hbelow' (hnone hinfo' k (hk.trans_lt hlt))
  | some info' =>
      obtain ⟨-, -, hfirst⟩ := hblown info' hinfo'
      refine ⟨info', rfl, ?_⟩
      by_contra hlater
      exact hfirst k (by omega) hbelow'

/-- So it books no more trades. -/
theorem length_le_of_tighter (hs : SoundRules (rep.rules risk mode trailing total))
    (hs' : SoundRules (rep.rules risk' mode' trailing' total'))
    (ht : Tighter (rep.rules risk mode trailing total) (rep.rules risk' mode' trailing' total'))
    (hr : (rep.rules risk mode trailing total).riskType = .compound →
      ∀ r ∈ results, -1 ≤ r.realizedRr)
    (h : rep.computeAccounting results risk mode trailing total = .ok (perTrade, summary))
    (h' : rep.computeAccounting results risk' mode' trailing' total' = .ok (perTrade', summary')) :
    perTrade'.length ≤ perTrade.length := by
  obtain ⟨-, -, hlength⟩ := firstBelow_of_ok h
  obtain ⟨hblown', -, hlength'⟩ := firstBelow_of_ok h'
  rw [hlength, hlength']
  cases hinfo : summary.blown with
  | some info =>
      obtain ⟨info', hinfo', hle⟩ := blown_of_tighter hs hs' ht hr h h' info hinfo
      rw [Option.mem_def.mp hinfo', Option.elim_some, Option.elim_some]
      omega
  | none =>
      rw [Option.elim_none]
      cases hinfo' : summary'.blown with
      | none => exact le_rfl
      | some info' => exact (hblown' info' hinfo').1

/-- **More risk, no longer life**: with a higher risk percentage or tighter kill limits, an account
    books no more trades, and one that was blown is blown by the same trade or an earlier one. -/
theorem blown_no_later (hs : SoundRules (rep.rules risk mode trailing total))
    (hs' : SoundRules (rep.rules risk' mode' trailing' total'))
    (ht : Tighter (rep.rules risk mode trailing total) (rep.rules risk' mode' trailing' total'))
    (hr : (rep.rules risk mode trailing total).riskType = .compound →
      ∀ r ∈ results, -1 ≤ r.realizedRr)
    (h : rep.computeAccounting results risk mode trailing total = .ok (perTrade, summary))
    (h' : rep.computeAccounting results risk' mode' trailing' total' = .ok (perTrade', summary')) :
    perTrade'.length ≤ perTrade.length ∧
      ∀ info ∈ summary.blown, ∃ info' ∈ summary'.blown, info'.tradeIndex ≤ info.tradeIndex :=
  ⟨length_le_of_tighter hs hs' ht hr h h', blown_of_tighter hs hs' ht hr h h'⟩

theorem soundRules_sample {p : ℚ} (hpos : 0 < p) (hle : p ≤ 100) :
    SoundRules (sampleReport.rules (some p) none (some 5) none) := by
  have hstart : 0 < sampleReport.startBalance := by decide +kernel
  refine ⟨hstart, hpos, hle, fun m hm => ?_, fun m hm => by cases hm⟩
  obtain rfl := Option.some.inj hm
  norm_num

theorem ok_of_map {ε α β : Type} {x : Except ε α} {f : α → β} {b : β} (h : x.map f = .ok b) :
    ∃ a, x = .ok a ∧ f a = b := by
  cases x with
  | error e => cases h
  | ok a => exact ⟨a, rfl, Except.ok.inj h⟩

theorem realizedRr_sample : ∀ r ∈ sampleReport.results, -1 ≤ r.realizedRr := by decide +kernel

/-- At one percent the account lives, at ten it is blown by the first trade. -/
theorem sampleReport_no_later :
    ∃ out out', sampleReport.computeAccounting sampleReport.results (some 1) none (some 5) none =
        .ok out ∧
      sampleReport.computeAccounting sampleReport.results (some 10) none (some 5) none =
        .ok out' ∧
      out.1.length = 4 ∧ out'.1.length = 1 ∧ out'.1.length ≤ out.1.length := by
  obtain ⟨out, hout, hfour⟩ := ok_of_map (show (sampleReport.computeAccounting sampleReport.results
    (some 1) none (some 5) none).map (fun out => out.1.length) = .ok 4 by decide +kernel)
  obtain ⟨out', hout', hone⟩ := ok_of_map (show (sampleReport.computeAccounting
    sampleReport.results (some 10) none (some 5) none).map (fun out => out.1.length) = .ok 1 by
      decide +kernel)
  refine ⟨out, out', hout, hout', hfour, hone,
    (blown_no_later (soundRules_sample (by norm_num) (by norm_num))
      (soundRules_sample (by norm_num) (by norm_num)) ?_ (fun _ => realizedRr_sample) hout
      hout').1⟩
  exact ⟨rfl, rfl, by decide +kernel, fun m hm => ⟨m, hm, le_rfl⟩, fun m hm => ⟨m, hm, le_rfl⟩⟩

/-! ## The sweep -/

/-- The row of a level. -/
def RowAt (rep : BacktestReport) (trailing total : Option ℚ) (row : SweepRow) : Prop :=
  ∃ out, rep.computeAccounting rep.results (some row.riskPercent) none trailing total = .ok out ∧
    row = rep.sweepRow row.riskPercent out.2

theorem rowAt_sweepRows {levels : List ℚ} {rows : List SweepRow}
    (h : rep.sweepRows trailing total levels = .ok rows) :
    rows.map SweepRow.riskPercent = levels ∧ ∀ row ∈ rows, RowAt rep trailing total row := by
  induction levels generalizing rows with
  | nil =>
      cases h
      exact ⟨rfl, fun row hrow => absurd hrow List.not_mem_nil⟩
  | cons rp rest ih =>
      unfold BacktestReport.sweepRows at h
      split at h
      · cases h
      next out hout =>
      cases hrest : rep.sweepRows trailing total rest with
      | error e => rw [hrest] at h; cases h
      | ok more =>
          rw [hrest] at h
          cases h
          obtain ⟨hlevels, hrows⟩ := ih hrest
          refine ⟨congrArg (rp :: ·) hlevels, fun row hrow => ?_⟩
          rcases List.mem_cons.mp hrow with rfl | hrow
          · exact ⟨out, hout, rfl⟩
          · exact hrows row hrow

/-- The rules at a lower level are those at a higher one with less risk. -/
theorem tighter_of_level (rep : BacktestReport) {p q : ℚ} (hpq : p ≤ q)
    (trailing total : Option ℚ) :
    Tighter (rep.rules (some p) none trailing total) (rep.rules (some q) none trailing total) :=
  ⟨rfl, rfl, hpq, fun m hm => ⟨m, hm, le_rfl⟩, fun m hm => ⟨m, hm, le_rfl⟩⟩

theorem RowAt.tighter {row row' : SweepRow} (h : RowAt rep trailing total row)
    (h' : RowAt rep trailing total row') (hle : row.riskPercent ≤ row'.riskPercent)
    (hs : SoundRules (rep.rules (some row.riskPercent) none trailing total))
    (hs' : SoundRules (rep.rules (some row'.riskPercent) none trailing total))
    (hr : rep.riskType = .compound → ∀ r ∈ rep.results, -1 ≤ r.realizedRr) :
    (row.status.isSome = true → row'.status.isSome = true) ∧ row'.tradesRun ≤ row.tradesRun := by
  obtain ⟨⟨perTrade, summary⟩, hout, hrow⟩ := h
  obtain ⟨⟨perTrade', summary'⟩, hout', hrow'⟩ := h'
  have ht := tighter_of_level rep hle trailing total
  constructor
  · intro hblown
    rw [hrow, BacktestReport.sweepRow, Option.isSome_map] at hblown
    obtain ⟨info, hinfo⟩ := Option.isSome_iff_exists.mp hblown
    obtain ⟨info', hinfo', -⟩ := blown_of_tighter hs hs' ht hr hout hout' info hinfo
    rw [hrow', BacktestReport.sweepRow, Option.isSome_map, Option.mem_def.mp hinfo']
    rfl
  · have hlength := (firstBelow_of_ok hout).2.2
    have hlength' := (firstBelow_of_ok hout').2.2
    rw [hrow, hrow']
    exact hlength'.symm.trans_le ((length_le_of_tighter hs hs' ht hr hout hout').trans_eq hlength)

/-- **First blow**: over ascending levels, those that blow the account are the ones from
    `first_blown` on, and no level runs more trades than one before it. -/
theorem riskSweep_blown_iff {levels : List ℚ} {sweep : RiskSweep}
    (hsorted : (sweepLevels levels).Pairwise (· ≤ ·))
    (hsound : ∀ p ∈ sweepLevels levels, SoundRules (rep.rules (some p) none trailing total))
    (hr : rep.riskType = .compound → ∀ r ∈ rep.results, -1 ≤ r.realizedRr)
    (h : rep.riskSweep levels trailing total = .ok (some sweep)) :
    sweep.rows.map SweepRow.riskPercent = sweepLevels levels ∧
      (∀ row ∈ sweep.rows, row.status.isSome = true ↔
        ∃ p ∈ sweep.firstBlown, p ≤ row.riskPercent) ∧
      sweep.rows.Pairwise fun row row' => row'.tradesRun ≤ row.tradesRun := by
  unfold BacktestReport.riskSweep at h
  split at h
  · cases h
  cases hrows : rep.sweepRows trailing total (sweepLevels levels) with
  | error e => rw [hrows] at h; cases h
  | ok rows =>
      rw [hrows] at h
      cases h
      obtain ⟨hlevels, hrowAt⟩ := rowAt_sweepRows hrows
      have hmem : ∀ row ∈ rows, row.riskPercent ∈ sweepLevels levels := by
        intro row hrow
        rw [← hlevels]
        exact List.mem_map_of_mem hrow
      have htighter : ∀ row ∈ rows, ∀ row' ∈ rows, row.riskPercent ≤ row'.riskPercent →
          (row.status.isSome = true → row'.status.isSome = true) ∧
            row'.tradesRun ≤ row.tradesRun :=
        fun row hrow row' hrow' hle => (hrowAt row hrow).tighter (hrowAt row' hrow') hle
          (hsound _ (hmem row hrow)) (hsound _ (hmem row' hrow')) hr
      have hascending : rows.Pairwise fun row row' => row.riskPercent ≤ row'.riskPercent := by
        rw [← hlevels, List.pairwise_map] at hsorted
        exact hsorted
      refine ⟨hlevels, fun row hrow => ⟨fun hblown => ?_, ?_⟩, ?_⟩
      · obtain ⟨first, hfirst⟩ := Option.isSome_iff_exists.mp
          ((List.find?_isSome (p := fun row : SweepRow => row.status.isSome)).mpr
            ⟨row, hrow, hblown⟩)
        refine ⟨first.riskPercent, ?_, ?_⟩
        · dsimp only
          rw [hfirst]
          rfl
        · obtain ⟨-, before, after, rfl, hbefore⟩ := List.find?_eq_some_iff_append.mp hfirst
          rcases List.mem_append.mp hrow with hrow | hrow
          · have := hbefore row hrow
            rw [hblown] at this
            cases this
          · rcases List.mem_cons.mp hrow with rfl | hrow
            · exact le_rfl
            · exact (List.pairwise_cons.mp (List.pairwise_append.mp hascending).2.1).1 row hrow
      · rintro ⟨p, hp, hle⟩
        obtain ⟨first, hfirst, rfl⟩ := Option.map_eq_some_iff.mp hp
        exact (htighter first (List.mem_of_find?_eq_some hfirst) row hrow hle).1
          (List.find?_some (p := fun row : SweepRow => row.status.isSome) hfirst)
      · exact hascending.imp_of_mem fun hrow hrow' hle => (htighter _ hrow _ hrow' hle).2

theorem sampleReport_sweep :
    ∃ sweep, sampleReport.riskSweep [1, 5, 10, 20] (some 5) none = .ok (some sweep) ∧
      sweep.firstBlown = some 10 ∧
      ∀ row ∈ sweep.rows, row.status.isSome = true ↔
        ∃ p ∈ sweep.firstBlown, p ≤ row.riskPercent := by
  obtain ⟨found, hsweep, hfirst⟩ := ok_of_map (show (sampleReport.riskSweep [1, 5, 10, 20] (some 5)
    none).map (fun sweep => sweep.map RiskSweep.firstBlown) = .ok (some (some 10)) by
      decide +kernel)
  obtain ⟨sweep, rfl, hten⟩ := Option.map_eq_some_iff.mp hfirst
  refine ⟨sweep, hsweep, hten, ?_⟩
  have hlevels : sweepLevels [1, 5, 10, 20] = [1, 5, 10, 20] := rfl
  refine (riskSweep_blown_iff (by rw [hlevels]; decide +kernel) (fun p hp => ?_)
    (fun _ => realizedRr_sample) hsweep).2.1
  rw [hlevels] at hp
  have hrange : ∀ p ∈ ([1, 5, 10, 20] : List ℚ), 0 < p ∧ p ≤ 100 := by decide +kernel
  exact soundRules_sample (hrange p hp).1 (hrange p hp).2

end SignalEngine
