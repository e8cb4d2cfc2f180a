/-
  Chronology: in which order the backtest books its trades.

  Model. The report of a run accounts `self.results`, the trades in the order of their emission.
  A trade is entered at `triggered_at`; `streak_analysis` reads both times of a trade alike.

  A trade is emitted with its outcome, which lies in the future, so two trades that overlap are
  booked in the order of emission and the second is sized on the PnL of a trade that is still
  open (`overlapping_trades`).

  Proved: where each trade is emitted after all the trades before it have closed, the accounts
  are in the order of the closes and each trade is sized on closed trades
  (`chronological_of_settled`). The induction is on the operations of the run and its invariant
  is `InSequence`, a relation of each two emissions.
-/
import SignalEngine.Backtest.Accounting
import SignalEngine.Backtest.Backtester

namespace SignalEngine

variable {b : Backtest} {D : History} {p : AssetProfile} {pct : ℚ} {s : TradeSignal}
  {F : List Candle} {r : BacktestResult}

/-! ## The times of a trade -/

/-- `entry_ms`. -/
def BacktestResult.entryMs (r : BacktestResult) : ℤ := pyOr r.signal.triggeredAt 0

/-- The trade has closed by `t`. -/
def BacktestResult.ClosedBy (r : BacktestResult) (t : ℤ) : Prop :=
  ∃ ts, r.closeTs = some ts ∧ ts ≤ t

instance (r : BacktestResult) (t : ℤ) : Decidable (r.ClosedBy t) :=
  decidable_of_iff (r.closeTs.any fun ts => decide (ts ≤ t)) (by
    simp [BacktestResult.ClosedBy, Option.any_eq_true])

/-- A trade closes at a candle it is played out on. -/
theorem closeTs_mem (h : Running s) (hr : simulate p pct s F = .ok r) {ts : ℤ}
    (hts : r.closeTs = some ts) : ∃ c ∈ F, ts = c.timestamp := by
  rcases simulate_append (F := []) h hr with ⟨c, hc, -⟩ | ⟨-, hlater⟩
  · cases hc
  · exact hlater ts hts

theorem trailLoop_realizedRr (st : TrailState) (h : (trailLoop p pct st F).closeTs = none) :
    (trailLoop p pct st F).realizedRr = 0 := by
  induction F generalizing st with
  | nil => rfl
  | cons c cs ih =>
      rw [trailLoop] at h ⊢
      rcases trailStep_cases p pct st c with ⟨r, hr, -, hts⟩ | ⟨st', hst, -⟩
      · rw [hr] at h
        dsimp only at h
        rw [hts] at h
        cases h
      · rw [hst] at h ⊢
        exact ih st' h

theorem simulateReplay_realizedRr (h : Running s) (hr : simulateReplay p s F = .ok r)
    (hopen : r.closeTs = none) : r.realizedRr = 0 := by
  induction F generalizing s with
  | nil =>
      rw [simulateReplay_nil h] at hr
      cases hr
      rfl
  | cons c cs ih =>
      rcases simulateReplay_cons (p := p) h c with ⟨e, he⟩ | ⟨r', hr', hts'⟩ | ⟨s', h', hs'⟩
      · rw [he] at hr
        cases hr
      · rw [hr'] at hr
        cases hr
        rw [hts'] at hopen
        cases hopen
      · rw [hs'] at hr
        exact ih h' hr

/-- A trade that never closes is booked with no result. -/
theorem realizedRr_of_open (h : Running s) (hr : simulate p pct s F = .ok r)
    (hopen : r.closeTs = none) : r.realizedRr = 0 := by
  unfold simulate at hr
  split at hr
  · cases hr
    rfl
  split at hr
  · cases hr
    exact trailLoop_realizedRr _ hopen
  · exact simulateReplay_realizedRr h hr hopen

/-! ## Emissions in sequence -/

/-- `self.results`. -/
def BacktestState.trades (st : BacktestState) : List BacktestResult := st.results.map (·.result)

/-- The trade `r` is over before `r'` is entered and before `r'` closes. -/
def InSequence (r r' : BacktestResult) : Prop :=
  ∀ ts, r.closeTs = some ts → ts ≤ r'.entryMs ∧ ∀ ts', r'.closeTs = some ts' → ts ≤ ts'

/-- What a visit emits is entered after the trades emitted so far have closed, and so are the
    candles it is played out on. -/
def Backtest.EmitsSettled (b : Backtest) (D : History) (c : Candle) (pair : Interval × Interval)
    (st : BacktestState) : Prop :=
  ∀ st' z s, b.scan D (b.analysisClose c) pair st = .ok (st', some (z, s)) →
    ∀ r ∈ st.trades, ∀ ts, r.closeTs = some ts →
      ts ≤ pyOr s.triggeredAt 0 ∧
        ∀ f ∈ backtestFeed pair.2 (D.ltfCandles pair.2) (b.analysisClose c), ts ≤ f.timestamp

/-- Each two trades are in sequence, and one that is never over has no result. -/
structure Settled (results : List BacktestResult) : Prop where
  inSequence : results.Pairwise InSequence
  open_zero : ∀ r ∈ results, r.closeTs = none → r.realizedRr = 0

theorem trades_of_onlyCaches {st st' : BacktestState} (h : OnlyCaches st st') :
    st'.trades = st.trades := congrArg (List.map Emission.result) h.results_eq

theorem trades_record (analysisClose : ℤ) (pair : Interval × Interval) (z : HtfRange)
    (st : BacktestState) : (b.record analysisClose pair z s r st).trades = st.trades ++ [r] := by
  simp [BacktestState.trades, Backtest.record]

theorem Settled.visit {c : Candle} {pair : Interval × Interval} {st st' : BacktestState}
    (h : Settled st.trades) (hemit : b.EmitsSettled D c pair st)
    (hv : b.visit D (b.analysisClose c) pair st = .ok st') : Settled st'.trades := by
  rcases visit_cases hv with hscan | ⟨st₁, z, s, r, hscan, hsim, rfl⟩
  · rw [trades_of_onlyCaches (scan_onlyCaches hscan)]
    exact h
  · obtain ⟨-, hrun⟩ := scan_signal hscan
    have hentry : r.entryMs = pyOr s.triggeredAt 0 := by
      unfold BacktestResult.entryMs
      rw [(sameTrade_simulate hsim).triggeredAt_eq]
    rw [trades_record, trades_of_onlyCaches (scan_onlyCaches hscan)]
    refine ⟨?_, fun old hold hopen => ?_⟩
    · refine List.pairwise_append.mpr
        ⟨h.inSequence, List.pairwise_singleton _ _, fun old hold new hnew ts hts => ?_⟩
      rw [List.mem_singleton.mp hnew]
      obtain ⟨hentered, hfeed⟩ := hemit _ z s hscan old hold ts hts
      refine ⟨hentered.trans_eq hentry.symm, fun ts' hts' => ?_⟩
      obtain ⟨f, hf, rfl⟩ := closeTs_mem hrun hsim hts'
      exact hfeed f hf
    · rcases List.mem_append.mp hold with hold | hold
      · exact h.open_zero old hold hopen
      · rw [List.mem_singleton.mp hold] at hopen ⊢
        exact realizedRr_of_open hrun hsim hopen

/-- A run whose visits emit settled keeps its trades in sequence. -/
theorem settled_runOps {ops : List BacktestOp} {st : BacktestState}
    (hrun : b.runOps D ops = .ok st)
    (hemit : ∀ pre c pair stPre, pre ++ [.visit c pair] <+: ops →
      b.runOps D pre = .ok stPre → b.EmitsSettled D c pair stPre) : Settled st.trades := by
  induction ops using List.reverseRecOn generalizing st with
  | nil =>
      cases hrun
      exact ⟨List.Pairwise.nil, fun r hr => by cases hr⟩
  | append_singleton ops op ih =>
      obtain ⟨stPre, hpre, happly⟩ := runOps_append_singleton hrun
      have hsettled := ih hpre fun pre c pair st' h =>
        hemit pre c pair st' (h.trans (List.prefix_append _ _))
      cases op with
      | expireLocks c =>
          cases happly
          exact hsettled
      | visit c pair =>
          exact hsettled.visit (hemit ops c pair stPre List.prefix_rfl hpre) happly

/-! ## The accounts of trades in sequence -/

/-- The trades are accounted in the order of their closes, and a compounding account sizes each
    trade on the PnL of trades that have closed by its entry. -/
structure ChronologicalAccounts (rep : BacktestReport) (ru : RiskRules)
    (results : List BacktestResult)
    (perTrade : List TradeRow) : Prop where
  closes : ((results.take perTrade.length).filterMap (·.closeTs)).Pairwise (· ≤ ·)
  curve : ((rep.buildEquityCurve results perTrade).filterMap (·.time)).Pairwise (· ≤ ·)
  sized : ru.riskType = .compound → ∀ rows row r, rows ++ [row] <+: perTrade →
    results[rows.length]? = some r →
      row.riskAmount = row.balanceBefore * (ru.riskPercent / 100) ∧
      row.balanceBefore = ru.startBalance +
        (((results.zip rows).filter fun e => decide (e.1.ClosedBy r.entryMs)).map
          (·.2.pnl)).sum ∧
      ∀ e ∈ results.zip rows, e.2.pnl ≠ 0 → e.1.ClosedBy r.entryMs

theorem fmtSeconds_eq_some {o : Option ℤ} {t : ℤ} (h : fmtSeconds o = some t) :
    ∃ ts, o = some ts ∧ t = ts / 1000 := by
  obtain ⟨ts, hts, rfl⟩ := Option.map_eq_some_iff.mp h
  exact ⟨ts, (Option.filter_eq_some_iff.mp hts).1, rfl⟩

theorem times_buildEquityCurve (rep : BacktestReport) (results : List BacktestResult)
    (perTrade : List TradeRow) :
    (rep.buildEquityCurve results perTrade).filterMap (·.time) =
      (results.take perTrade.length).filterMap fun r => fmtSeconds r.closeTs := by
  unfold BacktestReport.buildEquityCurve
  rw [List.filterMap_cons_none rfl]
  induction results generalizing perTrade with
  | nil => simp
  | cons r rs ih =>
      cases perTrade with
      | nil => rfl
      | cons a rows =>
          rw [List.zipWith_cons_cons, List.length_cons, List.take_succ_cons,
            List.filterMap_cons, List.filterMap_cons, ih]
          rfl

theorem sum_map_filter_of_zero {α : Type} {P : α → Bool} {f : α → ℚ} {xs : List α}
    (h : ∀ x ∈ xs, P x = false → f x = 0) : ((xs.filter P).map f).sum = (xs.map f).sum := by
  induction xs with
  | nil => rfl
  | cons x xs ih =>
      have hxs := ih fun y hy => h y (List.mem_cons_of_mem _ hy)
      cases hx : P x with
      | true => simp [hx, hxs]
      | false => simp [hx, hxs, h x List.mem_cons_self hx]

variable {rep : BacktestReport} {ru : RiskRules} {results : List BacktestResult}
  {perTrade : List TradeRow} {summary : AccountSummary}

/-- An earlier trade of the account, with its row. -/
theorem AccountsFor.pnl_of_mem (h : AccountsFor ru results perTrade summary)
    {rows : List TradeRow} (hpre : rows <+: perTrade) {e : BacktestResult × TradeRow}
    (he : e ∈ results.zip rows) :
    ∃ i, i < rows.length ∧ results[i]? = some e.1 ∧ ∃ risk, e.2.pnl = e.1.realizedRr * risk := by
  obtain ⟨i, hi⟩ := List.mem_iff_getElem?.mp he
  obtain ⟨hr, hrow⟩ := List.getElem?_zip_eq_some.mp hi
  have hlt : i < rows.length := (List.getElem?_eq_some_iff.mp hrow).1
  have htake : rows.take i ++ [e.2] = rows.take (i + 1) := by
    rw [List.take_add_one, hrow]
    rfl
  obtain ⟨r, hr', hnext⟩ := h.row_of (rows.take i) e.2
    (by rw [htake]; exact (List.take_prefix _ _).trans hpre)
  rw [List.length_take_of_le hlt.le, hr] at hr'
  cases hr'
  exact ⟨i, hlt, hr, _, by rw [hnext]; rfl⟩

theorem AccountsFor.balanceOf_eq (h : AccountsFor ru results perTrade summary) :
    ∀ rows, rows <+: perTrade →
      balanceOf ru.startBalance rows = ru.startBalance + (rows.map (·.pnl)).sum := by
  intro rows
  induction rows using List.reverseRecOn with
  | nil => simp
  | append_singleton rows row ih =>
      intro hpre
      obtain ⟨r, -, rfl⟩ := h.row_of rows row hpre
      rw [balanceOf_concat, nextRow_balanceAfter, ih ((List.prefix_append _ _).trans hpre)]
      simp [add_assoc]

theorem AccountsFor.length_le (h : AccountsFor ru results perTrade summary) :
    perTrade.length ≤ results.length := by
  rcases List.eq_nil_or_concat' perTrade with rfl | ⟨rows, row, rfl⟩
  · exact Nat.zero_le _
  · obtain ⟨r, hr, -⟩ := h.row_of rows row List.prefix_rfl
    rw [List.length_append]
    exact (List.getElem?_eq_some_iff.mp hr).1

/-- The accounts of settled trades are chronological. -/
theorem AccountsFor.chronological (h : AccountsFor ru results perTrade summary)
    (hs : Settled results) : ChronologicalAccounts rep ru results perTrade where
  closes := by
    rw [List.pairwise_filterMap]
    exact (hs.inSequence.sublist (List.take_sublist _ _)).imp
      fun hseq ts hts ts' hts' => (hseq ts hts).2 ts' hts'
  curve := by
    rw [times_buildEquityCurve, List.pairwise_filterMap]
    refine (hs.inSequence.sublist (List.take_sublist _ _)).imp fun hseq t ht t' ht' => ?_
    obtain ⟨ts, hts, rfl⟩ := fmtSeconds_eq_some ht
    obtain ⟨ts', hts', rfl⟩ := fmtSeconds_eq_some ht'
    exact Int.ediv_le_ediv (by norm_num) ((hseq ts hts).2 ts' hts')
  sized := by
    intro hmode rows row r hpre hr
    have hrows : rows <+: perTrade := (List.prefix_append _ _).trans hpre
    -- an earlier trade has closed by the entry, or never closes and carries no PnL
    have hclosed : ∀ e ∈ results.zip rows, ¬ e.1.ClosedBy r.entryMs → e.2.pnl = 0 := by
      intro e he hnot
      obtain ⟨i, hi, hei, risk, hpnl⟩ := h.pnl_of_mem hrows he
      cases hts : e.1.closeTs with
      | none =>
          rw [hpnl, hs.open_zero e.1 (List.mem_of_getElem? hei) hts, zero_mul]
      | some ts =>
          obtain ⟨hi', hei'⟩ := List.getElem?_eq_some_iff.mp hei
          obtain ⟨hr', her'⟩ := List.getElem?_eq_some_iff.mp hr
          have hseq := List.pairwise_iff_getElem.mp hs.inSequence i rows.length hi' hr' hi
          rw [hei', her'] at hseq
          exact absurd ⟨ts, hts, (hseq ts hts).1⟩ hnot
    have hle : rows.length ≤ results.length := hrows.length_le.trans h.length_le
    refine ⟨?_, ?_, fun e he hne => ?_⟩
    · obtain ⟨r', -, rfl⟩ := h.row_of rows row hpre
      simp [nextRow, rowOf, accountingOf, calculateTradeAccounting, RiskRules.fixedBasis, hmode]
    · rw [h.chained rows row hpre, h.balanceOf_eq rows hrows,
        sum_map_filter_of_zero fun e he hnot => hclosed e he (of_decide_eq_false hnot)]
      conv_lhs => rw [← List.map_snd_zip hle, List.map_map]
      rfl
    · by_contra hnot
      exact hne (hclosed e he hnot)

/-- A run that emits a trade only after those before it have closed is accounted
    chronologically, under any rules. -/
theorem chronological_of_settled (b : Backtest) (D : History) {ops : List BacktestOp}
    {st : BacktestState} (hrun : b.runOps D ops = .ok st)
    (hemit : ∀ pre c pair stPre, pre ++ [.visit c pair] <+: ops →
      b.runOps D pre = .ok stPre → b.EmitsSettled D c pair stPre)
    (rep : BacktestReport) (riskPercent : Option ℚ) (riskType : Option RiskType)
    (maxTrailingDdPct maxTotalLossPct : Option ℚ) (hstart : 0 < rep.startBalance)
    (hpos : 0 < riskPercent.getD rep.riskPercent)
    (hle : riskPercent.getD rep.riskPercent ≤ 100) :
    (∀ perTrade summary,
      rep.computeAccounting st.trades riskPercent riskType maxTrailingDdPct maxTotalLossPct =
        .ok (perTrade, summary) →
      ChronologicalAccounts rep (rep.rules riskPercent riskType maxTrailingDdPct maxTotalLossPct)
        st.trades perTrade) ∧
    ((∀ r ∈ st.trades, DatedClose r) → ∃ out,
      rep.computeAccounting st.trades riskPercent riskType maxTrailingDdPct maxTotalLossPct =
        .ok out) :=
  ⟨fun _ _ h => (accountsFor_of_ok hstart hpos hle h).chronological (settled_runOps hrun hemit),
    fun hdated => exists_computeAccounting rep riskPercent riskType _ _ hdated⟩

theorem ok_of_toOption {ε α : Type} {x : Except ε α} {a : α} (h : x.toOption = some a) :
    x = .ok a := by
  cases x with
  | error e => cases h
  | ok a' => cases h; rfl

/-! ## Checking a run -/

/-- The condition of an operation, evaluated. -/
def Backtest.settlesAt (b : Backtest) (D : History) (op : BacktestOp) (st : BacktestState) :
    Bool :=
  match op with
  | .expireLocks _ => true
  | .visit c pair =>
      match b.scan D (b.analysisClose c) pair st with
      | .ok (_, some (_, s)) =>
          st.trades.all fun r => r.closeTs.all fun ts =>
            decide (ts ≤ pyOr s.triggeredAt 0) &&
              (backtestFeed pair.2 (D.ltfCandles pair.2) (b.analysisClose c)).all fun f =>
                decide (ts ≤ f.timestamp)
      | _ => true

theorem emitsSettled_of_settlesAt {c : Candle} {pair : Interval × Interval} {st : BacktestState}
    (h : b.settlesAt D (.visit c pair) st = true) : b.EmitsSettled D c pair st := by
  intro st' z s hscan r hr ts hts
  dsimp only [Backtest.settlesAt] at h
  rw [hscan] at h
  have hclosed := List.all_eq_true.mp h r hr
  rw [hts, Option.all_some, Bool.and_eq_true, List.all_eq_true] at hclosed
  exact ⟨of_decide_eq_true hclosed.1, fun f hf => of_decide_eq_true (hclosed.2 f hf)⟩

/-! ## Two trades, one after the other -/

/-- The report of a run with the default account. -/
def BacktestState.report (st : BacktestState) : BacktestReport where
  results := st.trades

/-- The second entry is left downward. -/
def twiceEnded : History := twiceData [quietCandle 31200000, fallCandle 31500000]

/-- What the run trades, with the rows of its account. -/
theorem twiceRun_accounts :
    (twiceBacktest.runOps twiceEnded (twiceBacktest.schedule twiceEnded)).map
      (fun st => (st.trades.map (fun r => (r.entryMs, r.closeTs, r.realizedRr)),
        (st.report.computeAccounting st.trades).toOption.map (fun out =>
          out.1.map (fun a => (a.balanceBefore, a.pnl))))) =
      .ok ([(30300000, some 30600000, 2500 / 1347), (31200000, some 31500000, -1)],
        some [(5000, 125000 / 1347), (6860000 / 1347, -(68600 / 1347))]) := by
  decide +kernel

/-- Two trades of a run, the second sized on the win of the first. -/
theorem chronological_of_settled_sample :
    ∃ st perTrade summary,
      twiceBacktest.runOps twiceEnded (twiceBacktest.schedule twiceEnded) = .ok st ∧
      st.trades.map (fun r => (r.entryMs, r.closeTs, r.realizedRr)) =
        [(30300000, some 30600000, 2500 / 1347), (31200000, some 31500000, -1)] ∧
      st.report.computeAccounting st.trades = .ok (perTrade, summary) ∧
      perTrade.map (fun a => (a.balanceBefore, a.pnl)) =
        [(5000, 125000 / 1347), (6860000 / 1347, -(68600 / 1347))] ∧
      ChronologicalAccounts st.report (st.report.rules none none none none) st.trades perTrade := by
  obtain ⟨st, hrun, heq⟩ := runOps_of_map twiceRun_accounts
  obtain ⟨htrades, haccounts⟩ := Prod.mk.inj heq
  obtain ⟨⟨perTrade, summary⟩, hout, hrows⟩ := Option.map_eq_some_iff.mp haccounts
  have hsettles : twiceBacktest.everyOp twiceEnded (twiceBacktest.settlesAt twiceEnded)
      (twiceBacktest.schedule twiceEnded) = true := by decide +kernel
  have hlaws := chronological_of_settled twiceBacktest twiceEnded hrun
    (fun _ _ _ _ hpre hrun => emitsSettled_of_settlesAt (test_of_everyOp hsettles hpre hrun))
    st.report none none none none
    (by norm_num [BacktestState.report]) (by norm_num [BacktestState.report])
    (by norm_num [BacktestState.report])
  have hok := ok_of_toOption hout
  exact ⟨st, perTrade, summary, hrun, htrades, hok, hrows, hlaws.1 perTrade summary hok⟩

/-! ## Two trades that overlap -/

/-- One zone entered on 5-minute and on 15-minute candles, each with its own lock. -/
def overlapBacktest : Backtest where
  cfg := sampleSettings
  symbol := "XAUUSD"
  pairs := [(oneHour, fiveMin), (oneHour, fifteenMin)]
  pairs_ne := by simp
  profileOf := fun _ _ => sampleProfile
  htfLookback := some 6

def overlapFive : List Candle :=
  (List.range 96).map (fun i => quietCandle (i * 300000)) ++
    [quietCandle 28800000, quietCandle 29100000, quietCandle 29400000,
      quietCandle 29700000 (82 / 10), quietCandle 30000000, quietCandle 30300000,
      quietCandle 30600000, quietCandle 30900000, fallCandle 31200000]

/-- The same hours in 15-minute candles. -/
def overlapFifteen : List Candle :=
  (List.range 32).map (fun i => quietCandle (i * 900000)) ++
    [quietCandle 28800000, quietCandle 29700000 (82 / 10), fallCandle 30600000]

def overlapData : History where
  htfCandles := fun _ => sampleHourly
  ltfCandles := fun ltf =>
    if ltf = fiveMin then overlapFive else if ltf = fifteenMin then overlapFifteen else []

/-- The entries and closes of the sample run, with the rows of its account and the times of its
    equity curve. -/
theorem overlapRun_accounts :
    (overlapBacktest.runOps overlapData (overlapBacktest.schedule overlapData)).map
      (fun st => (st.trades.map (fun r => (r.entryMs, r.closeTs)),
        (st.report.computeAccounting st.trades).toOption.map (fun out =>
          (out.1.map (fun a => (a.balanceBefore, a.pnl)),
            (st.report.buildEquityCurve st.trades out.1).filterMap (·.time))))) =
      .ok ([(30000000, some 31200000), (30600000, some 30600000)],
        some ([(5000, -50), (4950, -(99 / 2))], [31200, 30600])) := by
  decide +kernel

/-- The trade that closes last is accounted first, and the other one is sized on its loss. -/
theorem overlapping_trades :
    ∃ st perTrade summary,
      overlapBacktest.runOps overlapData (overlapBacktest.schedule overlapData) = .ok st ∧
      st.report.computeAccounting st.trades = .ok (perTrade, summary) ∧
      ¬ ((st.trades.take perTrade.length).filterMap (·.closeTs)).Pairwise (· ≤ ·) ∧
      ¬ ((st.report.buildEquityCurve st.trades perTrade).filterMap (·.time)).Pairwise
        (· ≤ ·) ∧
      ∃ r₁ r₂ a₁ a₂, st.trades = [r₁, r₂] ∧ perTrade = [a₁, a₂] ∧ ¬ r₁.ClosedBy r₂.entryMs ∧
        a₁.pnl = -50 ∧ a₂.balanceBefore = st.report.startBalance + a₁.pnl := by
  obtain ⟨st, hrun, heq⟩ := runOps_of_map overlapRun_accounts
  obtain ⟨htrades, haccounts⟩ := Prod.mk.injEq _ _ _ _ ▸ heq
  obtain ⟨⟨perTrade, summary⟩, hout, hrows⟩ := Option.map_eq_some_iff.mp haccounts
  obtain ⟨hmap, htimes⟩ := Prod.mk.injEq _ _ _ _ ▸ hrows
  obtain ⟨r₁, rest, hst, hr₁, hrest⟩ := List.map_eq_cons_iff.mp htrades
  obtain ⟨r₂, rest', rfl, hr₂, hnil⟩ := List.map_eq_cons_iff.mp hrest
  obtain ⟨a₁, rows, hper, ha₁, hrows'⟩ := List.map_eq_cons_iff.mp hmap
  obtain ⟨a₂, rows', rfl, ha₂, hnil'⟩ := List.map_eq_cons_iff.mp hrows'
  cases List.map_eq_nil_iff.mp hnil
  cases List.map_eq_nil_iff.mp hnil'
  dsimp only at hper
  simp only [Prod.mk.injEq] at hr₁ hr₂ ha₁ ha₂
  refine ⟨st, perTrade, summary, hrun, ok_of_toOption hout, ?_, ?_, r₁, r₂, a₁, a₂,
    hst, hper, ?_, ha₁.2, ?_⟩
  · rw [hst, hper]
    simp [hr₁.2, hr₂.2]
  · rw [htimes]
    decide
  · rintro ⟨ts, hts, hle⟩
    rw [hr₁.2] at hts
    cases hts
    rw [hr₂.1] at hle
    exact absurd hle (by decide)
  · rw [ha₁.2, ha₂.1]
    norm_num [BacktestState.report]

end SignalEngine
