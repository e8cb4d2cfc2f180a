/-
  Accounting: the account a backtest report books its trades to.

  Model. `bookTrade` is the body of the loop of `_compute_accounting` and `bookTrades` the loop:
  it stops after a trade that blew the account, and it raises where the closing time of a trade
  is not a `datetime`. A row of `per_trade` is a `TradeRow`; the report's `reason` texts are the
  constructors of `BlowReason`, and a trade date is the number of its UTC day.

  Proved: what a ledger holds after any number of trades (`Booked`: rows chained by their
  balances, each peak the highest balance so far, the largest drawdown over all prefixes, no row
  but the last blown), by one trade (`Booked.step`) and then by induction on the results
  (`booked_bookTrades`); the sums of the summary against the rows.
-/
import SignalEngine.Backtest.Simulate
import SignalEngine.Persistence.ClosedColumns

namespace SignalEngine

/-! ## The report -/

inductive RiskType where
  | compound
  | fixed
  deriving DecidableEq, Repr

structure BacktestReport where
  results : List BacktestResult
  startBalance : ℚ := 5000
  riskPercent : ℚ := 1
  riskType : RiskType := .compound
  maxTrailingDdPct : Option ℚ := none
  maxTotalLossPct : Option ℚ := none

/-- What `calculate_trade_accounting` returns. -/
structure TradeAccounting where
  riskAmount : ℚ
  pnl : ℚ
  balanceAfter : ℚ
  peakBalanceAfter : ℚ
  drawdownAfter : ℚ
  drawdownPctAfter : ℚ
  deriving DecidableEq, Repr

/-- `calculate_trade_accounting`: a `risk_basis` takes the place of the balance. -/
def calculateTradeAccounting (balanceBefore resultR riskPercent peakBalanceBefore : ℚ)
    (riskBasis : Option ℚ) : TradeAccounting :=
  let riskAmount := riskBasis.getD balanceBefore * (riskPercent / 100)
  let pnl := resultR * riskAmount
  let balanceAfter := balanceBefore + pnl
  let peakBalanceAfter := max peakBalanceBefore balanceAfter
  let drawdownAfter := peakBalanceAfter - balanceAfter
  { riskAmount := riskAmount
    pnl := pnl
    balanceAfter := balanceAfter
    peakBalanceAfter := peakBalanceAfter
    drawdownAfter := drawdownAfter
    drawdownPctAfter :=
      if 0 < peakBalanceAfter then drawdownAfter / peakBalanceAfter * 100 else 0 }

/-- A row of `per_trade`. -/
structure TradeRow extends TradeAccounting where
  balanceBefore : ℚ
  theoreticalRr : ℚ
  executedRr : ℚ
  rawEntryPrice : ℚ
  executedEntryPrice : ℚ
  rawExitPrice : ℚ
  executedExitPrice : ℚ
  blown : Bool
  deriving DecidableEq, Repr

/-- `trailing DD >{mtr}%` and `total loss >{mtl}%`. -/
inductive BlowReason where
  | trailingDd (mtr : ℚ)
  | totalLoss (mtl : ℚ)
  deriving DecidableEq, Repr

structure BlownInfo where
  reason : BlowReason
  tradeIndex : ℕ
  tradeDate : Option ℤ
  balanceAtBlow : ℚ
  floor : ℚ
  peakAtBlow : ℚ
  deriving DecidableEq, Repr

structure AccountSummary where
  startBalance : ℚ
  finalBalance : ℚ
  netPnl : ℚ
  netPnlPct : ℚ
  maxDrawdown : ℚ
  maxDrawdownPct : ℚ
  grossProfit : ℚ
  grossLoss : ℚ
  profitFactorDollar : Option ℚ
  avgPnl : ℚ
  avgWinPnl : ℚ
  avgLossPnl : ℚ
  bestTradePnl : ℚ
  worstTradePnl : ℚ
  blown : Option BlownInfo
  deriving DecidableEq, Repr

/-- The parameters of one accounting, overrides applied. -/
structure RiskRules where
  startBalance : ℚ
  riskPercent : ℚ
  riskType : RiskType
  maxTrailingDdPct : Option ℚ
  maxTotalLossPct : Option ℚ

def RiskRules.fixedBasis (ru : RiskRules) : Option ℚ :=
  if ru.riskType = .fixed then some ru.startBalance else none

def RiskRules.totalFloor (ru : RiskRules) : Option ℚ :=
  ru.maxTotalLossPct.map fun mtl => ru.startBalance * (1 - mtl / 100)

/-- The variables of the loop. -/
structure AccountState where
  balance : ℚ
  peak : ℚ
  maxDd : ℚ := 0
  maxDdPct : ℚ := 0
  blownInfo : Option BlownInfo := none
  perTrade : List TradeRow := []

/-- The ledger before the first trade. -/
def AccountState.opening (ru : RiskRules) : AccountState where
  balance := ru.startBalance
  peak := ru.startBalance

inductive AccountingError where
  | timestampOutOfRange
  deriving DecidableEq, Repr

/-- `_trade_date`: the UTC day of the close, `none` for `"?"`. -/
def tradeDate (r : BacktestResult) : Except AccountingError (Option ℤ) :=
  match r.closeTs with
  | none => .ok none
  | some ts =>
      if ts = 0 then .ok none
      else if IsDatetime ts then .ok (some (ts / 86400000))
      else .error .timestampOutOfRange

/-- The kill conditions, the trailing one first. -/
def killCheck (ru : RiskRules) (idx : ℕ) (date : Option ℤ) (acct : TradeAccounting) :
    Option BlownInfo :=
  let trailing : Option BlownInfo :=
    match ru.maxTrailingDdPct with
    | none => none
    | some mtr =>
        let trailingFloor := acct.peakBalanceAfter * (1 - mtr / 100)
        if acct.balanceAfter < trailingFloor then
          some ⟨.trailingDd mtr, idx, date, acct.balanceAfter, trailingFloor,
            acct.peakBalanceAfter⟩
        else none
  match trailing with
  | some info => some info
  | none =>
      match ru.maxTotalLossPct, ru.totalFloor with
      | some mtl, some totalFloor =>
          if acct.balanceAfter < totalFloor then
            some ⟨.totalLoss mtl, idx, date, acct.balanceAfter, totalFloor,
              acct.peakBalanceAfter⟩
          else none
      | _, _ => none

/-- The accounting of a result on the balance and the peak before it. -/
def accountingOf (ru : RiskRules) (balance peak : ℚ) (r : BacktestResult) : TradeAccounting :=
  calculateTradeAccounting balance r.realizedRr ru.riskPercent peak ru.fixedBasis

/-- `close_price or entry`. -/
def exitPx (r : BacktestResult) : ℚ := pyOr r.closePrice r.signal.entryPrice

def rowOf (ru : RiskRules) (balance peak : ℚ) (r : BacktestResult) (blown : Bool) : TradeRow :=
  { accountingOf ru balance peak r with
    balanceBefore := balance
    theoreticalRr := r.realizedRr
    executedRr := r.realizedRr
    rawEntryPrice := r.signal.entryPrice
    executedEntryPrice := r.signal.entryPrice
    rawExitPrice := exitPx r
    executedExitPrice := exitPx r
    blown := blown }

/-- The body of the loop. -/
def bookTrade (ru : RiskRules) (st : AccountState) (idx : ℕ) (date : Option ℤ)
    (r : BacktestResult) :
    AccountState :=
  let acct := accountingOf ru st.balance st.peak r
  let killed := killCheck ru idx date acct
  { balance := acct.balanceAfter
    peak := acct.peakBalanceAfter
    maxDd := max st.maxDd acct.drawdownAfter
    maxDdPct := max st.maxDdPct acct.drawdownPctAfter
    blownInfo := killed.orElse fun _ => st.blownInfo
    perTrade := st.perTrade ++ [rowOf ru st.balance st.peak r killed.isSome] }

/-- The loop: no trade is booked after the one that blew the account. -/
def bookTrades (ru : RiskRules) : AccountState → ℕ → List BacktestResult →
    Except AccountingError AccountState
  | st, _, [] => .ok st
  | st, idx, r :: rs =>
      match tradeDate r with
      | .error e => .error e
      | .ok date =>
          let st' := bookTrade ru st idx date r
          if (killCheck ru idx date (accountingOf ru st.balance st.peak r)).isSome then .ok st'
          else bookTrades ru st' (idx + 1) rs

def mean (xs : List ℚ) : ℚ := if xs = [] then 0 else xs.sum / xs.length

/-- What is computed from the ledger after the loop. -/
def summarize (ru : RiskRules) (st : AccountState) : AccountSummary :=
  let netPnl := st.balance - ru.startBalance
  let pnls := st.perTrade.map (·.pnl)
  let winsPnl := pnls.filter fun p => decide (0 < p)
  let lossesPnl := pnls.filter fun p => decide (p < 0)
  let grossProfit := winsPnl.sum
  let grossLoss := |lossesPnl.sum|
  { startBalance := ru.startBalance
    finalBalance := st.balance
    netPnl := netPnl
    netPnlPct := if 0 < ru.startBalance then netPnl / ru.startBalance * 100 else 0
    maxDrawdown := st.maxDd
    maxDrawdownPct := st.maxDdPct
    grossProfit := grossProfit
    grossLoss := grossLoss
    profitFactorDollar := if 0 < grossLoss then some (grossProfit / grossLoss) else none
    avgPnl := mean pnls
    avgWinPnl := mean winsPnl
    avgLossPnl := mean lossesPnl
    bestTradePnl := pnls.max?.getD 0
    worstTradePnl := pnls.min?.getD 0
    blown := st.blownInfo }

/-- The rules of one call: an override that is given takes the report's place. -/
def BacktestReport.rules (rep : BacktestReport) (riskPercent : Option ℚ)
    (riskType : Option RiskType) (maxTrailingDdPct maxTotalLossPct : Option ℚ) : RiskRules where
  startBalance := rep.startBalance
  riskPercent := riskPercent.getD rep.riskPercent
  riskType := riskType.getD rep.riskType
  maxTrailingDdPct := maxTrailingDdPct.orElse fun _ => rep.maxTrailingDdPct
  maxTotalLossPct := maxTotalLossPct.orElse fun _ => rep.maxTotalLossPct

/-- `_compute_accounting`. -/
def BacktestReport.computeAccounting (rep : BacktestReport) (results : List BacktestResult)
    (riskPercent : Option ℚ := none) (riskType : Option RiskType := none)
    (maxTrailingDdPct maxTotalLossPct : Option ℚ := none) :
    Except AccountingError (List TradeRow × AccountSummary) :=
  let ru := rep.rules riskPercent riskType maxTrailingDdPct maxTotalLossPct
  match bookTrades ru (AccountState.opening ru) 0 results with
  | .error e => .error e
  | .ok st => .ok (st.perTrade, summarize ru st)

/-- A point of the equity curve; its time is in seconds, `none` for the empty text. -/
structure EquityPoint where
  time : Option ℤ
  balance : ℚ
  pnl : ℚ
  resultR : ℚ
  drawdown : ℚ
  drawdownPct : ℚ
  deriving DecidableEq, Repr

/-- `_fmt`, the text cut to whole seconds. -/
def fmtSeconds (ms : Option ℤ) : Option ℤ := (ms.filter fun t => decide (t ≠ 0)).map (· / 1000)

def equityPoint (r : BacktestResult) (a : TradeRow) : EquityPoint where
  time := fmtSeconds r.closeTs
  balance := pyRoundTo a.balanceAfter 2
  pnl := pyRoundTo a.pnl 2
  resultR := pyRoundTo r.realizedRr 4
  drawdown := pyRoundTo a.drawdownAfter 2
  drawdownPct := pyRoundTo a.drawdownPctAfter 4

/-- `_build_equity_curve`. -/
def BacktestReport.buildEquityCurve (rep : BacktestReport) (results : List BacktestResult)
    (perTrade : List TradeRow) : List EquityPoint :=
  ⟨none, rep.startBalance, 0, 0, 0, 0⟩ :: List.zipWith equityPoint results perTrade

/-! ## Balances and peaks of a list of rows -/

def balanceOf (start : ℚ) (rows : List TradeRow) : ℚ :=
  (rows.getLast?.map (·.balanceAfter)).getD start

def peakOf (start : ℚ) (rows : List TradeRow) : ℚ :=
  (rows.map (·.balanceAfter)).foldl max start

@[simp] theorem balanceOf_nil (start : ℚ) : balanceOf start [] = start := rfl

@[simp] theorem balanceOf_concat (start : ℚ) (rows : List TradeRow) (row : TradeRow) :
    balanceOf start (rows ++ [row]) = row.balanceAfter := by
  simp [balanceOf]

@[simp] theorem peakOf_nil (start : ℚ) : peakOf start [] = start := rfl

@[simp] theorem peakOf_concat (start : ℚ) (rows : List TradeRow) (row : TradeRow) :
    peakOf start (rows ++ [row]) = max (peakOf start rows) row.balanceAfter := by
  simp [peakOf]

/-- The peak is the largest of the start and the balances. -/
theorem isGreatest_peakOf (start : ℚ) (rows : List TradeRow) :
    IsGreatest {b | b = start ∨ ∃ row ∈ rows, b = row.balanceAfter} (peakOf start rows) := by
  induction rows using List.reverseRecOn with
  | nil =>
      refine ⟨Or.inl rfl, ?_⟩
      rintro b (rfl | ⟨row, hrow, -⟩)
      · exact le_rfl
      · simp at hrow
  | append_singleton rows row ih =>
      rw [peakOf_concat]
      constructor
      · rcases max_choice (peakOf start rows) row.balanceAfter with h | h
        · rw [h]
          rcases ih.1 with hs | ⟨old, hold, hb⟩
          · exact Or.inl hs
          · exact Or.inr ⟨old, List.mem_append_left _ hold, hb⟩
        · rw [h]
          exact Or.inr ⟨row, by simp, rfl⟩
      · rintro b (rfl | ⟨old, hold, rfl⟩)
        · exact le_max_of_le_left (ih.2 (Or.inl rfl))
        · rcases List.mem_append.mp hold with hold | hold
          · exact le_max_of_le_left (ih.2 (Or.inr ⟨old, hold, rfl⟩))
          · rw [List.mem_singleton.mp hold]
            exact le_max_right _ _

/-- The drawdown after a list of rows. -/
def drawdownOf (start : ℚ) (rows : List TradeRow) : ℚ := peakOf start rows - balanceOf start rows

@[simp] theorem drawdownOf_nil (start : ℚ) : drawdownOf start [] = 0 := by simp [drawdownOf]

/-! ## The kill conditions -/

/-- A balance below its trailing floor or below the total floor. -/
def BelowFloor (ru : RiskRules) (balanceAfter peakAfter : ℚ) : Prop :=
  (∃ mtr, ru.maxTrailingDdPct = some mtr ∧ balanceAfter < peakAfter * (1 - mtr / 100)) ∨
    ∃ mtl, ru.maxTotalLossPct = some mtl ∧ balanceAfter < ru.startBalance * (1 - mtl / 100)

theorem killCheck_isSome (ru : RiskRules) (idx : ℕ) (date : Option ℤ) (acct : TradeAccounting) :
    (killCheck ru idx date acct).isSome = true ↔
      BelowFloor ru acct.balanceAfter acct.peakBalanceAfter := by
  unfold killCheck BelowFloor RiskRules.totalFloor
  cases ru.maxTrailingDdPct <;> cases ru.maxTotalLossPct <;> simp <;> split_ifs <;> simp_all

/-- Whether a trade blows the account depends neither on its number nor on its date. -/
theorem killCheck_isSome_congr (ru : RiskRules) (idx : ℕ) (date : Option ℤ)
    (acct : TradeAccounting) :
    (killCheck ru idx date acct).isSome = (killCheck ru 0 none acct).isSome := by
  rw [Bool.eq_iff_iff, killCheck_isSome, killCheck_isSome]

/-! ## What the loop has booked -/

/-- The row of a result on the rows before it. -/
def nextRow (ru : RiskRules) (rows : List TradeRow) (r : BacktestResult) : TradeRow :=
  rowOf ru (balanceOf ru.startBalance rows) (peakOf ru.startBalance rows) r
    (killCheck ru 0 none
      (accountingOf ru (balanceOf ru.startBalance rows) (peakOf ru.startBalance rows) r)).isSome

/-- The ledger after the trades `done`. -/
structure Booked (ru : RiskRules) (done : List BacktestResult) (st : AccountState) : Prop where
  rows_length : st.perTrade.length = done.length
  row_of : ∀ rows row, rows ++ [row] <+: st.perTrade →
    ∃ r, done[rows.length]? = some r ∧ row = nextRow ru rows r
  balance_eq : st.balance = balanceOf ru.startBalance st.perTrade
  peak_eq : st.peak = peakOf ru.startBalance st.perTrade
  funds : st.balance = ru.startBalance + (st.perTrade.map (·.pnl)).sum
  maxDd_greatest :
    IsGreatest {d | ∃ rows, rows <+: st.perTrade ∧ d = drawdownOf ru.startBalance rows} st.maxDd
  maxDdPct_greatest :
    IsGreatest {d | d = 0 ∨ ∃ row ∈ st.perTrade, d = row.drawdownPctAfter} st.maxDdPct

/-- A statement about the last row of every prefix: the old prefixes, and the new row. -/
theorem forall_concat_prefix {rows : List TradeRow} {new : TradeRow}
    {P : List TradeRow → TradeRow → Prop} (hold : ∀ pre row, pre ++ [row] <+: rows → P pre row)
    (hnew : P rows new) : ∀ pre row, pre ++ [row] <+: rows ++ [new] → P pre row := by
  intro pre row h
  rcases List.prefix_concat_iff.mp h with heq | h
  · obtain ⟨rfl, hrow⟩ := List.append_inj' heq rfl
    cases hrow
    exact hnew
  · exact hold pre row h

theorem isGreatest_insert_max {s t : Set ℚ} {a b : ℚ} (h : IsGreatest s a)
    (ht : ∀ d, d ∈ t ↔ d = b ∨ d ∈ s) : IsGreatest t (max a b) := by
  constructor
  · rcases max_choice a b with hm | hm
    · rw [hm]
      exact (ht a).mpr (Or.inr h.1)
    · rw [hm]
      exact (ht b).mpr (Or.inl rfl)
  · intro d hd
    rcases (ht d).mp hd with rfl | hd
    · exact le_max_right _ _
    · exact le_max_of_le_left (h.2 hd)

variable {ru : RiskRules} {done : List BacktestResult} {st : AccountState}

@[simp] theorem nextRow_balanceAfter (rows : List TradeRow) (r : BacktestResult) :
    (nextRow ru rows r).balanceAfter =
      balanceOf ru.startBalance rows + (nextRow ru rows r).pnl := rfl

theorem nextRow_peak (rows : List TradeRow) (r : BacktestResult) :
    (nextRow ru rows r).peakBalanceAfter =
      peakOf ru.startBalance (rows ++ [nextRow ru rows r]) := by
  rw [peakOf_concat]
  rfl

theorem nextRow_drawdown (rows : List TradeRow) (r : BacktestResult) :
    (nextRow ru rows r).drawdownAfter =
      drawdownOf ru.startBalance (rows ++ [nextRow ru rows r]) := by
  unfold drawdownOf
  rw [← nextRow_peak, balanceOf_concat]
  rfl

theorem nextRow_blown (rows : List TradeRow) (r : BacktestResult) :
    (nextRow ru rows r).blown = true ↔
      BelowFloor ru (nextRow ru rows r).balanceAfter (nextRow ru rows r).peakBalanceAfter :=
  killCheck_isSome ru 0 none _

/-- The body of the loop appends the row of the result. -/
theorem Booked.perTrade_bookTrade (h : Booked ru done st) (idx : ℕ) (date : Option ℤ)
    (r : BacktestResult) :
    (bookTrade ru st idx date r).perTrade = st.perTrade ++ [nextRow ru st.perTrade r] := by
  unfold bookTrade nextRow
  simp only [killCheck_isSome_congr ru idx date, h.balance_eq, h.peak_eq]

/-- One trade more. -/
theorem Booked.step (h : Booked ru done st) (idx : ℕ) (date : Option ℤ) (r : BacktestResult) :
    Booked ru (done ++ [r]) (bookTrade ru st idx date r) := by
  have hrows := h.perTrade_bookTrade idx date r
  set new := nextRow ru st.perTrade r with hnew
  have hacct : accountingOf ru st.balance st.peak r = new.toTradeAccounting := by
    rw [hnew, h.balance_eq, h.peak_eq]
    rfl
  have hbal : (bookTrade ru st idx date r).balance = new.balanceAfter := by
    rw [← hacct]
    rfl
  refine
    { rows_length := by rw [hrows]; simp [h.rows_length]
      row_of := ?_
      balance_eq := by rw [hrows, balanceOf_concat, hbal]
      peak_eq := ?_
      funds := ?_
      maxDd_greatest := ?_
      maxDdPct_greatest := ?_ }
  · rw [hrows]
    refine forall_concat_prefix (fun pre row hpre => ?_) ⟨r, by simp [h.rows_length], hnew⟩
    obtain ⟨r', hr', hrow⟩ := h.row_of pre row hpre
    exact ⟨r', by rw [List.getElem?_append_left (List.getElem?_eq_some_iff.mp hr').1, hr'], hrow⟩
  · rw [hrows, ← nextRow_peak, ← hnew, ← hacct]
    rfl
  · rw [hbal, hrows, nextRow_balanceAfter, ← h.balance_eq, h.funds]
    simp [hnew, add_assoc]
  · rw [hrows]
    have hdd : (bookTrade ru st idx date r).maxDd =
        max st.maxDd (drawdownOf ru.startBalance (st.perTrade ++ [new])) := by
      rw [hnew, ← nextRow_drawdown, ← hnew, ← hacct]
      rfl
    rw [hdd]
    refine isGreatest_insert_max h.maxDd_greatest fun d => ?_
    simp only [Set.mem_ofPred_eq, List.prefix_concat_iff, or_and_right, exists_or, exists_eq_left]
  · rw [hrows]
    have hdd : (bookTrade ru st idx date r).maxDdPct = max st.maxDdPct new.drawdownPctAfter := by
      rw [← hacct]
      rfl
    rw [hdd]
    refine isGreatest_insert_max h.maxDdPct_greatest fun d => ?_
    simp only [Set.mem_ofPred_eq, List.mem_append, List.mem_singleton, or_and_right, exists_or,
      exists_eq_left]
    exact or_rotate.symm

theorem booked_opening (ru : RiskRules) : Booked ru [] (AccountState.opening ru) where
  rows_length := rfl
  row_of := by
    intro rows row h
    simp [AccountState.opening] at h
  balance_eq := rfl
  peak_eq := rfl
  funds := by simp [AccountState.opening]
  maxDd_greatest :=
    ⟨⟨[], List.nil_prefix, by simp [AccountState.opening]⟩, by
      rintro d ⟨rows, hrows, rfl⟩
      rw [List.prefix_nil.mp hrows]
      simp [AccountState.opening]⟩
  maxDdPct_greatest :=
    ⟨Or.inl rfl, by
      rintro d (rfl | ⟨row, hrow, -⟩)
      · exact le_rfl
      · simp [AccountState.opening] at hrow⟩

/-- Only the last row may be blown. -/
def StopsAtBlown (rows : List TradeRow) : Prop :=
  ∀ pre row, pre ++ [row] <+: rows → row.blown = true → pre ++ [row] = rows

/-- A run of the loop books a part of the results, all of them if no row is blown. -/
theorem booked_bookTrades (hb : Booked ru done st) (hopen : ∀ row ∈ st.perTrade, row.blown = false)
    {idx : ℕ} {rest : List BacktestResult} {st' : AccountState}
    (h : bookTrades ru st idx rest = .ok st') :
    ∃ now later, rest = now ++ later ∧ Booked ru (done ++ now) st' ∧
      StopsAtBlown st'.perTrade ∧ ((∀ row ∈ st'.perTrade, row.blown = false) → later = []) := by
  induction rest generalizing done st idx with
  | nil =>
      cases h
      refine ⟨[], [], rfl, by simpa using hb, fun pre row hpre hblown => ?_, fun _ => rfl⟩
      rw [hopen row (hpre.subset (List.mem_append_right pre List.mem_cons_self))] at hblown
      cases hblown
  | cons r rs ih =>
      unfold bookTrades at h
      split at h
      · cases h
      · rename_i date _
        have hstep := hb.step idx date r
        have hrows := hb.perTrade_bookTrade idx date r
        have hlast : (nextRow ru st.perTrade r).blown =
            (killCheck ru idx date (accountingOf ru st.balance st.peak r)).isSome := by
          rw [killCheck_isSome_congr ru idx date, hb.balance_eq, hb.peak_eq]
          rfl
        by_cases hk :
            (killCheck ru idx date (accountingOf ru st.balance st.peak r)).isSome = true
        · rw [if_pos hk] at h
          cases h
          refine ⟨[r], rs, rfl, hstep, ?_, fun hall => ?_⟩
          · unfold StopsAtBlown
            rw [hrows]
            refine forall_concat_prefix (fun pre row hpre hblown => ?_) fun _ => rfl
            rw [hopen row (hpre.subset (by simp))] at hblown
            cases hblown
          · have := hall (nextRow ru st.perTrade r) (by rw [hrows]; simp)
            rw [hlast, hk] at this
            cases this
        · rw [if_neg hk] at h
          obtain ⟨now, later, hrest, hbooked, hstops, hall⟩ := ih hstep (by
            intro row hrow
            rw [hrows] at hrow
            rcases List.mem_append.mp hrow with hrow | hrow
            · exact hopen row hrow
            · rw [List.mem_singleton.mp hrow, hlast]
              simpa using hk) h
          exact ⟨r :: now, later, by rw [hrest]; rfl, by simpa using hbooked, hstops, hall⟩

/-! ## Results whose closing time can be written -/

/-- The close is absent, zero or a time `datetime` takes. -/
def DatedClose (r : BacktestResult) : Prop := ∀ ts, r.closeTs = some ts → ts ≠ 0 → IsDatetime ts

theorem tradeDate_of_dated {r : BacktestResult} (h : DatedClose r) :
    ∃ date, tradeDate r = .ok date := by
  unfold tradeDate
  cases hts : r.closeTs with
  | none => exact ⟨none, rfl⟩
  | some ts =>
      by_cases h0 : ts = 0
      · exact ⟨none, by simp [h0]⟩
      · exact ⟨some (ts / 86400000), by simp [h0, h ts hts h0]⟩

theorem exists_bookTrades (ru : RiskRules) {rest : List BacktestResult}
    (h : ∀ r ∈ rest, DatedClose r) (st : AccountState) (idx : ℕ) :
    ∃ st', bookTrades ru st idx rest = .ok st' := by
  induction rest generalizing st idx with
  | nil => exact ⟨st, rfl⟩
  | cons r rs ih =>
      obtain ⟨date, hdate⟩ := tradeDate_of_dated (h r List.mem_cons_self)
      simp only [bookTrades, hdate]
      split_ifs
      · exact ⟨_, rfl⟩
      · exact ih (fun r' hr' => h r' (List.mem_cons_of_mem _ hr')) _ _

/-! ## The sums of the summary -/

theorem sum_wins_add_sum_losses (pnls : List ℚ) :
    (pnls.filter fun p => decide (0 < p)).sum + (pnls.filter fun p => decide (p < 0)).sum =
      pnls.sum := by
  induction pnls with
  | nil => simp
  | cons p pnls ih =>
      rw [List.sum_cons, ← ih]
      rcases lt_trichotomy p 0 with h | rfl | h
      · simp [h, h.le]
        ring
      · simp
      · simp [h, h.le]
        ring

theorem sum_losses_nonpos (pnls : List ℚ) :
    (pnls.filter fun p => decide (p < 0)).sum ≤ 0 := by
  induction pnls with
  | nil => simp
  | cons p pnls ih =>
      by_cases h : p < 0
      · simp only [h, decide_true, List.filter_cons_of_pos, List.sum_cons]
        linarith
      · simpa [h] using ih

/-- Gross profit less gross loss is what the account gained. -/
theorem Booked.gross (h : Booked ru done st) :
    (summarize ru st).grossProfit - (summarize ru st).grossLoss = (summarize ru st).netPnl := by
  have hsum := sum_wins_add_sum_losses (st.perTrade.map (·.pnl))
  have hloss := sum_losses_nonpos (st.perTrade.map (·.pnl))
  have hfunds := h.funds
  simp only [summarize]
  rw [abs_of_nonpos hloss]
  linarith

/-! ## Solvency -/

/-- A compounding account does not go below zero on losses of at most one R. -/
theorem balanceOf_nonneg (hstart : 0 < ru.startBalance) (hpos : 0 < ru.riskPercent)
    (hle : ru.riskPercent ≤ 100) (hmode : ru.riskType = .compound)
    (hrr : ∀ r ∈ done, -1 ≤ r.realizedRr) (h : Booked ru done st) :
    ∀ rows, rows <+: st.perTrade → 0 ≤ balanceOf ru.startBalance rows := by
  intro rows
  induction rows using List.reverseRecOn with
  | nil => exact fun _ => hstart.le
  | append_singleton rows row ih =>
      intro hpre
      have hbefore := ih ((List.prefix_append rows [row]).trans hpre)
      obtain ⟨r, hr, rfl⟩ := h.row_of rows row hpre
      have hlow : -1 ≤ r.realizedRr := hrr r (List.mem_of_getElem? hr)
      have hpnl : (nextRow ru rows r).pnl =
          r.realizedRr * (balanceOf ru.startBalance rows * (ru.riskPercent / 100)) := by
        simp [nextRow, rowOf, accountingOf, calculateTradeAccounting, RiskRules.fixedBasis, hmode]
      have hrisk : 0 ≤ balanceOf ru.startBalance rows * (ru.riskPercent / 100) := by positivity
      have hcap : balanceOf ru.startBalance rows * (ru.riskPercent / 100) ≤
          balanceOf ru.startBalance rows := by
        have : ru.riskPercent / 100 ≤ 1 := by linarith
        exact mul_le_of_le_one_right hbefore this
      rw [balanceOf_concat, nextRow_balanceAfter, hpnl]
      nlinarith

theorem nextRow_drawdownPct_le {rows : List TradeRow} {r : BacktestResult}
    (h : 0 ≤ (nextRow ru rows r).balanceAfter) : (nextRow ru rows r).drawdownPctAfter ≤ 100 := by
  have hpct : (nextRow ru rows r).drawdownPctAfter =
      if 0 < (nextRow ru rows r).peakBalanceAfter then
        ((nextRow ru rows r).peakBalanceAfter - (nextRow ru rows r).balanceAfter) /
          (nextRow ru rows r).peakBalanceAfter * 100
      else 0 := rfl
  rw [hpct]
  split_ifs with hpeak
  · have : ((nextRow ru rows r).peakBalanceAfter - (nextRow ru rows r).balanceAfter) /
        (nextRow ru rows r).peakBalanceAfter ≤ 1 := by
      rw [div_le_one hpeak]
      linarith
    linarith
  · norm_num

theorem exists_concat_prefix {rows : List TradeRow} {row : TradeRow} (h : row ∈ rows) :
    ∃ pre, pre ++ [row] <+: rows := by
  obtain ⟨pre, post, rfl⟩ := List.append_of_mem h
  exact ⟨pre, post, by simp⟩

/-! ## The invariants -/

/-- What the rows and the summary of one accounting satisfy. -/
structure AccountsFor (ru : RiskRules) (results : List BacktestResult) (perTrade : List TradeRow)
    (summary : AccountSummary) : Prop where
  /-- The rows are those of the results, in their order. -/
  row_of : ∀ rows row, rows ++ [row] <+: perTrade →
    ∃ r, results[rows.length]? = some r ∧ row = nextRow ru rows r
  /-- The first row starts from the start balance, every other one from the row before it. -/
  chained : ∀ rows row, rows ++ [row] <+: perTrade →
    row.balanceBefore = balanceOf ru.startBalance rows
  final : summary.finalBalance = ru.startBalance + (perTrade.map (·.pnl)).sum
  gross : summary.grossProfit - summary.grossLoss = summary.netPnl
  net : summary.netPnl = summary.finalBalance - ru.startBalance
  peaks : ∀ rows row, rows ++ [row] <+: perTrade →
    IsGreatest {b | b = ru.startBalance ∨ ∃ old ∈ rows ++ [row], b = old.balanceAfter}
      row.peakBalanceAfter
  drawdown : IsGreatest {d | ∃ rows, rows <+: perTrade ∧ d = drawdownOf ru.startBalance rows}
    summary.maxDrawdown
  /-- Nothing is booked after a balance below a floor. -/
  stops : ∀ rows row, rows ++ [row] <+: perTrade →
    BelowFloor ru row.balanceAfter row.peakBalanceAfter → rows ++ [row] = perTrade
  covers : (∀ row ∈ perTrade, ¬ BelowFloor ru row.balanceAfter row.peakBalanceAfter) →
    perTrade.length = results.length
  solvent : ru.riskType = .compound → (∀ r ∈ results, -1 ≤ r.realizedRr) →
    (∀ row ∈ perTrade, 0 ≤ row.balanceBefore ∧ 0 ≤ row.balanceAfter ∧
      row.drawdownPctAfter ≤ 100) ∧
      0 ≤ summary.finalBalance ∧ summary.maxDrawdownPct ≤ 100

variable {rep : BacktestReport} {results : List BacktestResult} {riskPercent : Option ℚ}
  {riskType : Option RiskType} {maxTrailingDdPct maxTotalLossPct : Option ℚ}
  {perTrade : List TradeRow} {summary : AccountSummary}

theorem AccountsFor.of_booked {now later : List BacktestResult} (hresults : results = now ++ later)
    (hb : Booked ru now st) (hstops : StopsAtBlown st.perTrade)
    (hall : (∀ row ∈ st.perTrade, row.blown = false) → later = [])
    (hstart : 0 < ru.startBalance) (hpos : 0 < ru.riskPercent) (hle : ru.riskPercent ≤ 100) :
    AccountsFor ru results st.perTrade (summarize ru st) := by
  have hblown : ∀ rows row, rows ++ [row] <+: st.perTrade →
      (row.blown = true ↔ BelowFloor ru row.balanceAfter row.peakBalanceAfter) := by
    intro rows row hpre
    obtain ⟨r, -, rfl⟩ := hb.row_of rows row hpre
    exact nextRow_blown rows r
  refine
    { row_of := fun rows row hpre => ?_
      chained := fun rows row hpre => ?_
      final := hb.funds
      gross := hb.gross
      net := rfl
      peaks := fun rows row hpre => ?_
      drawdown := hb.maxDd_greatest
      stops := fun rows row hpre hbelow =>
        hstops rows row hpre ((hblown rows row hpre).mpr hbelow)
      covers := fun hnone => ?_
      solvent := fun hmode hrr => ?_ }
  · obtain ⟨r, hr, hrow⟩ := hb.row_of rows row hpre
    refine ⟨r, ?_, hrow⟩
    rw [hresults, List.getElem?_append_left (List.getElem?_eq_some_iff.mp hr).1, hr]
  · obtain ⟨r, -, rfl⟩ := hb.row_of rows row hpre
    rfl
  · obtain ⟨r, -, rfl⟩ := hb.row_of rows row hpre
    rw [nextRow_peak]
    exact isGreatest_peakOf _ _
  · have hlater : later = [] := hall fun row hrow => by
      obtain ⟨pre, hpre⟩ := exists_concat_prefix hrow
      rw [Bool.eq_false_iff, ne_eq, hblown pre row hpre]
      exact hnone row hrow
    rw [hb.rows_length, hresults, hlater, List.append_nil]
  · have hnonneg := balanceOf_nonneg hstart hpos hle hmode
      (fun r hr => hrr r (by rw [hresults]; exact List.mem_append_left _ hr)) hb
    have hrow : ∀ row ∈ st.perTrade, 0 ≤ row.balanceBefore ∧ 0 ≤ row.balanceAfter ∧
        row.drawdownPctAfter ≤ 100 := by
      intro row hrow
      obtain ⟨pre, hpre⟩ := exists_concat_prefix hrow
      obtain ⟨r, -, rfl⟩ := hb.row_of pre row hpre
      have hafter := hnonneg _ hpre
      rw [balanceOf_concat] at hafter
      exact ⟨hnonneg pre ((List.prefix_append _ _).trans hpre), hafter,
        nextRow_drawdownPct_le hafter⟩
    refine ⟨hrow, (hnonneg _ List.prefix_rfl).trans_eq hb.balance_eq.symm, ?_⟩
    rcases hb.maxDdPct_greatest.1 with h0 | ⟨row, hmem, hpct⟩
    · exact h0.le.trans (by norm_num)
    · exact hpct.le.trans (hrow row hmem).2.2

theorem accountsFor_of_ok (hstart : 0 < rep.startBalance)
    (hpos : 0 < riskPercent.getD rep.riskPercent) (hle : riskPercent.getD rep.riskPercent ≤ 100)
    (h : rep.computeAccounting results riskPercent riskType maxTrailingDdPct maxTotalLossPct =
      .ok (perTrade, summary)) :
    AccountsFor (rep.rules riskPercent riskType maxTrailingDdPct maxTotalLossPct) results perTrade
      summary := by
  unfold BacktestReport.computeAccounting at h
  dsimp only at h
  split at h
  · cases h
  · rename_i st hst
    cases h
    obtain ⟨now, later, hresults, hb, hstops, hall⟩ :=
      booked_bookTrades (booked_opening _) (by simp [AccountState.opening]) hst
    exact .of_booked hresults hb hstops hall hstart hpos hle

theorem exists_computeAccounting (rep : BacktestReport) (riskPercent : Option ℚ)
    (riskType : Option RiskType) (maxTrailingDdPct maxTotalLossPct : Option ℚ)
    (h : ∀ r ∈ results, DatedClose r) :
    ∃ out, rep.computeAccounting results riskPercent riskType maxTrailingDdPct maxTotalLossPct =
      .ok out := by
  set ru := rep.rules riskPercent riskType maxTrailingDdPct maxTotalLossPct with hru
  obtain ⟨st, hst⟩ := exists_bookTrades ru h (AccountState.opening ru) 0
  refine ⟨(st.perTrade, summarize ru st), ?_⟩
  simp only [BacktestReport.computeAccounting, ← hru, hst]

/-- The rows are booked without a gap and the summary adds them up, whatever the kill limits. -/
theorem computeAccounting_accountsFor (rep : BacktestReport) (results : List BacktestResult)
    (riskPercent : Option ℚ) (riskType : Option RiskType) (maxTrailingDdPct : Option ℚ)
    (maxTotalLossPct : Option ℚ) (hstart : 0 < rep.startBalance)
    (hpos : 0 < riskPercent.getD rep.riskPercent) (hle : riskPercent.getD rep.riskPercent ≤ 100) :
    (∀ perTrade summary,
      rep.computeAccounting results riskPercent riskType maxTrailingDdPct maxTotalLossPct =
        .ok (perTrade, summary) →
      AccountsFor (rep.rules riskPercent riskType maxTrailingDdPct maxTotalLossPct) results
        perTrade summary) ∧
    ((∀ r ∈ results, DatedClose r) → ∃ out,
      rep.computeAccounting results riskPercent riskType maxTrailingDdPct maxTotalLossPct =
        .ok out) :=
  ⟨fun _ _ h => accountsFor_of_ok hstart hpos hle h,
    fun hdated => exists_computeAccounting rep riskPercent riskType _ _ hdated⟩

/-- Four trades of `-1`, `2`, `-1` and `3` R. -/
def sampleReport : BacktestReport where
  results := [-1, 2, -1, 3].map fun rr => ⟨sampleSignal, .loss, rr, some 600000, none, false, none,
    none, 0⟩

theorem computeAccounting_accountsFor_sample :
    ∃ out, sampleReport.computeAccounting sampleReport.results none none (some 5) none = .ok out ∧
      AccountsFor (sampleReport.rules none none (some 5) none) sampleReport.results out.1
        out.2 := by
  have hlaws := computeAccounting_accountsFor sampleReport sampleReport.results none none (some 5)
    none (by decide +kernel) (by decide +kernel) (by decide +kernel)
  obtain ⟨⟨perTrade, summary⟩, hout⟩ := hlaws.2 (by
    intro r hr ts hts _
    simp only [sampleReport, List.mem_map] at hr
    obtain ⟨rr, -, rfl⟩ := hr
    cases hts
    decide)
  exact ⟨(perTrade, summary), hout, hlaws.1 perTrade summary hout⟩

example : (sampleReport.computeAccounting sampleReport.results).toOption.map
    (fun out => (out.1.map (·.balanceAfter), out.2.netPnl)) =
      some ([4950, 5049, 499851 / 100, 51484653 / 10000], 1484653 / 10000) := by
  decide +kernel

end SignalEngine
