/-
  Parity check: the trace rows of a live engine and of a backtest, and their comparison.

  Model. The live side writes a row for every event whose payload nests the signal under
  `signal`: TP1 and the close do, `signal.triggered` is the signal itself and `signal.pending`
  has none. The backtest writes a row for every trade. `config_hash` is a parameter. A timestamp
  text is its time; the JSON of a row reads back as the row. A mismatch is kept as its data.

  Proved: `compareTraces_eq_none_iff`: live rows know no account and backtest rows always do, so
  the comparison accepts only two empty traces, and `parity_accepts_iff`: of two runs that
  behave alike it accepts those that emitted no signal.
-/
import SignalEngine.Backtest.Simulate
import SignalEngine.Persistence.ClosedColumns
import SignalEngine.Persistence.WireFormat
import SignalEngine.Services.SignalService

namespace SignalEngine

/-! ## Rows -/

/-- `ParityTraceRecord`. -/
structure ParityTraceRecord where
  mode : String
  symbol : String
  timeframe : Interval
  timestamp : ℤ
  strategy : String
  signal : SignalDirection
  entry : Option ℚ
  stopLoss : Option ℚ
  takeProfit : Option ℚ
  rr : Option ℚ
  riskAmount : Option ℚ
  positionSize : Option ℚ
  decisionReason : String
  blockedReason : Option String
  accountBalance : Option ℚ
  dailyBudget : Option ℚ
  riskPerTrade : Option ℚ
  configHash : String
  tradeOutcome : Option SignalOutcome := none
  pnl : Option ℚ := none
  deriving DecidableEq, Repr

/-- `_iso_ms` raises outside of `datetime`'s years. -/
inductive TraceError where
  | timestampOutOfRange
  deriving DecidableEq, Repr

/-- `trace_from_signal`. -/
def traceFromSignal (configHash : Settings → String) (mode : String) (s : TradeSignal)
    (cfg : Settings) (decisionReason : String) (blockedReason : Option String)
    (accountBalance riskPercent : Option ℚ) (outcome : Option SignalOutcome) :
    Except TraceError ParityTraceRecord :=
  let riskAmount :=
    match accountBalance, riskPercent with
    | some balance, some percent => some (balance * (percent / 100))
    | _, _ => none
  let timestamp := pyOr s.triggeredAt s.createdAt
  if IsDatetime timestamp then
    .ok
      { mode := mode
        symbol := s.symbol
        timeframe := s.ltfInterval
        timestamp := timestamp
        strategy := "shared_decision_engine"
        signal := s.direction
        entry := some s.entryPrice
        stopLoss := some s.stopLoss
        takeProfit := some s.tp2
        rr := some s.riskRewardRatio
        riskAmount := riskAmount
        positionSize := none
        decisionReason := decisionReason
        blockedReason := blockedReason
        accountBalance := accountBalance
        dailyBudget := riskAmount
        riskPerTrade := riskAmount
        configHash := configHash cfg
        tradeOutcome := outcome.or s.outcome }
  else .error .timestampOutOfRange

/-! ## The two writers -/

/-- `payload.get("signal")`. -/
def ServiceEvent.nestedSignal : ServiceEvent → Option TradeSignal
  | .updated _ _ _ s => some s
  | .pending _ _ _ | .triggered _ => none

/-- The row `_on_signal_event` writes for an event; what raises is logged and writes none. -/
def liveRow (configHash : Settings → String) (cfg : Settings) (e : ServiceEvent) :
    Option ParityTraceRecord :=
  match e.nestedSignal with
  | none => none
  | some s =>
      match TradeSignal.fromDict s.toWireDict with
      | .error _ => none
      | .ok signal =>
          (traceFromSignal configHash "live" signal cfg "valid_signal" none none none
            signal.outcome).toOption

def liveTrace (configHash : Settings → String) (cfg : Settings) (events : List ServiceEvent) :
    List ParityTraceRecord :=
  events.filterMap (liveRow configHash cfg)

/-- The account of `MultiPairBacktester`, as its constructor checks it. -/
structure BacktestAccount where
  startBalance : ℚ
  riskPercent : ℚ
  startBalance_pos : 0 < startBalance
  riskPercent_pos : 0 < riskPercent
  riskPercent_le : riskPercent ≤ 100

/-- The row of a trade: the decision that emitted it and what became of it. -/
def backtestRow (configHash : Settings → String) (cfg : Settings) (account : BacktestAccount)
    (trade : Decision × BacktestResult) : Except TraceError ParityTraceRecord :=
  traceFromSignal configHash "backtest" trade.2.signal cfg trade.1.decisionReason
    trade.1.blockedReason (some account.startBalance) (some account.riskPercent)
    (some trade.2.outcome)

/-- The rows of a run; a row that raises ends it. -/
def backtestTrace (configHash : Settings → String) (cfg : Settings) (account : BacktestAccount) :
    List (Decision × BacktestResult) → Except TraceError (List ParityTraceRecord)
  | [] => .ok []
  | trade :: trades =>
      match backtestRow configHash cfg account trade with
      | .error e => .error e
      | .ok row => (backtestTrace configHash cfg account trades).map (row :: ·)

/-! ## `compare_traces` -/

/-- `FIELDS`. -/
inductive TraceField where
  | symbol | timeframe | timestamp | signal | strategy | entry | stopLoss | takeProfit | rr
  | riskAmount | positionSize | blockedReason | tradeOutcome | pnl
  deriving DecidableEq, Repr

def traceFields : List TraceField :=
  [.symbol, .timeframe, .timestamp, .signal, .strategy, .entry, .stopLoss, .takeProfit, .rr,
    .riskAmount, .positionSize, .blockedReason, .tradeOutcome, .pnl]

inductive TraceValue where
  | null
  | text (s : String)
  | timeframe (i : Interval)
  | time (ms : ℤ)
  | direction (d : SignalDirection)
  | outcome (o : SignalOutcome)
  | num (q : ℚ)
  deriving DecidableEq, Repr

/-- `row.get(field)`. -/
def ParityTraceRecord.get (row : ParityTraceRecord) : TraceField → TraceValue
  | .symbol => .text row.symbol
  | .timeframe => .timeframe row.timeframe
  | .timestamp => .time row.timestamp
  | .signal => .direction row.signal
  | .strategy => .text row.strategy
  | .entry => row.entry.elim .null .num
  | .stopLoss => row.stopLoss.elim .null .num
  | .takeProfit => row.takeProfit.elim .null .num
  | .rr => row.rr.elim .null .num
  | .riskAmount => row.riskAmount.elim .null .num
  | .positionSize => row.positionSize.elim .null .num
  | .blockedReason => row.blockedReason.elim .null .text
  | .tradeOutcome => row.tradeOutcome.elim .null .outcome
  | .pnl => row.pnl.elim .null .num

/-- `MONEY_TOLERANCE` on money, else `PRICE_TOLERANCE`. -/
def tolerance : TraceField → ℚ
  | .riskAmount | .pnl => 1 / 100
  | _ => 1 / 1000000

/-- `_same`. A field holds numbers or texts, never both. -/
def same (a b : TraceValue) (field : TraceField) : Bool :=
  match a, b with
  | .num x, .num y => decide (|x - y| ≤ tolerance field)
  | a, b => decide (a = b)

inductive Mismatch where
  | length (live backtest : ℕ)
  | configHash (live backtest : String)
  | field (timestamp : ℤ) (symbol : String) (timeframe : Interval) (field : TraceField)
      (live backtest : TraceValue)
  deriving DecidableEq, Repr

/-- The first field of two rows that differs. -/
def rowMismatch (live backtest : ParityTraceRecord) : Option Mismatch :=
  (traceFields.find? fun f => !same (live.get f) (backtest.get f) f).map fun f =>
    .field live.timestamp live.symbol live.timeframe f (live.get f) (backtest.get f)

/-- `compare_traces`. -/
def compareTraces (live backtest : List ParityTraceRecord) : Option Mismatch :=
  match live, backtest with
  | [], [] => none
  | [], _ :: _ | _ :: _, [] => some (.length live.length backtest.length)
  | l :: _, b :: _ =>
      if l.configHash ≠ b.configHash then some (.configHash l.configHash b.configHash)
      else if live.length ≠ backtest.length then some (.length live.length backtest.length)
      else (live.zip backtest).findSome? fun x => rowMismatch x.1 x.2

/-! ## What a row knows of the account -/

variable {configHash : Settings → String} {cfg : Settings} {account : BacktestAccount}
  {events : List ServiceEvent} {trades : List (Decision × BacktestResult)}
  {live backtest : List ParityTraceRecord} {l b : ParityTraceRecord}

theorem riskAmount_traceFromSignal {mode reason : String} {s : TradeSignal}
    {blocked : Option String} {balance percent : Option ℚ} {outcome : Option SignalOutcome}
    (h : traceFromSignal configHash mode s cfg reason blocked balance percent outcome = .ok l) :
    l.riskAmount = none ↔ balance = none ∨ percent = none := by
  unfold traceFromSignal at h
  dsimp only at h
  split at h
  · cases h
    cases balance <;> cases percent <;> simp
  · cases h

/-- A live row knows no account. -/
theorem riskAmount_liveTrace (h : l ∈ liveTrace configHash cfg events) : l.riskAmount = none := by
  obtain ⟨e, -, he⟩ := List.mem_filterMap.mp h
  unfold liveRow at he
  split at he
  · cases he
  split at he
  · cases he
  next signal hsignal =>
    cases hrow : traceFromSignal configHash "live" signal cfg "valid_signal" none none none
      signal.outcome with
    | error e => rw [hrow] at he; cases he
    | ok row =>
        rw [hrow] at he
        obtain rfl := Option.some.inj he
        exact (riskAmount_traceFromSignal hrow).mpr (Or.inl rfl)

/-- A trade more is a row more, with the account. -/
theorem backtestTrace_cons_eq_ok {trade : Decision × BacktestResult}
    (h : backtestTrace configHash cfg account (trade :: trades) = .ok backtest) :
    ∃ row rows, backtest = row :: rows ∧ row.riskAmount ≠ none := by
  rw [backtestTrace] at h
  cases hrow : backtestRow configHash cfg account trade with
  | error e => rw [hrow] at h; cases h
  | ok row =>
      rw [hrow] at h
      cases hrows : backtestTrace configHash cfg account trades with
      | error e => rw [hrows] at h; cases h
      | ok rows =>
          rw [hrows] at h
          refine ⟨row, rows, (Except.ok.inj h).symm, fun hnone => ?_⟩
          rcases (riskAmount_traceFromSignal hrow).mp hnone with h | h
          · cases h
          · cases h

/-- Of an amount and none the comparison tells. -/
theorem rowMismatch_ne_none (hl : l.riskAmount = none) (hb : b.riskAmount ≠ none) :
    rowMismatch l b ≠ none := by
  have hdiffer : same (l.get .riskAmount) (b.get .riskAmount) .riskAmount = false := by
    obtain ⟨q, hq⟩ := Option.ne_none_iff_exists'.mp hb
    rw [ParityTraceRecord.get, ParityTraceRecord.get, hl, hq]
    rfl
  intro hnone
  have hall := List.find?_eq_none.mp (Option.map_eq_none_iff.mp hnone) .riskAmount (by decide)
  rw [hdiffer] at hall
  exact hall rfl

/-- **The comparison.** A live trace and the trace of a backtest compare equal exactly when both
    are empty. -/
theorem compareTraces_eq_none_iff
    (hrows : backtestTrace configHash cfg account trades = .ok backtest) :
    compareTraces (liveTrace configHash cfg events) backtest = none ↔
      liveTrace configHash cfg events = [] ∧ trades = [] := by
  have hlive := @riskAmount_liveTrace configHash cfg events
  generalize liveTrace configHash cfg events = live at hlive
  cases trades with
  | nil =>
      obtain rfl := Except.ok.inj hrows
      cases live with
      | nil => exact iff_of_true rfl ⟨rfl, rfl⟩
      | cons l ls => exact iff_of_false (Option.some_ne_none _) (fun h => by cases h.1)
  | cons trade trades =>
      obtain ⟨b, bs, rfl, hb⟩ := backtestTrace_cons_eq_ok hrows
      refine iff_of_false ?_ (fun h => by cases h.2)
      cases live with
      | nil => exact Option.some_ne_none _
      | cons l ls =>
          have hrow := rowMismatch_ne_none (hlive List.mem_cons_self) hb
          rw [compareTraces]
          split
          · exact Option.some_ne_none _
          split
          · exact Option.some_ne_none _
          · intro hnone
            rw [List.zip_cons_cons] at hnone
            exact hrow (List.findSome?_eq_none_iff.mp hnone (l, b) List.mem_cons_self)

/-! ## Two runs that behave alike -/

/-- The signals the live engine has emitted. -/
def liveEmitted (events : List ServiceEvent) : List TradeSignal :=
  events.filterMap fun
    | .triggered s => some s
    | .pending _ _ _ | .updated _ _ _ _ => none

/-- The closes it has told of, with their outcomes. -/
def liveClosings (events : List ServiceEvent) : List (SignalId × Option SignalOutcome) :=
  events.filterMap fun
    | .updated _ _ _ s => if s.status.isOpen then none else some (s.id, s.outcome)
    | .pending _ _ _ | .triggered _ => none

/-- Both sides emit the same trades in the same order, and close them with the same outcomes in
    the same order; the live engine tells only of what it has emitted. -/
structure SameBehaviour (events : List ServiceEvent) (trades : List (Decision × BacktestResult)) :
    Prop where
  emitted : List.Forall₂ SameTrade (liveEmitted events) (trades.map fun x => x.2.signal)
  closed : liveClosings events = trades.map fun x => (x.2.signal.id, some x.2.outcome)
  told : ∀ e ∈ events, ∀ s, e.nestedSignal = some s →
    s.id ∈ (liveEmitted events).map TradeSignal.id

/-- The rows of both sides are written and compare equal. -/
def ParityAccepts (configHash : Settings → String) (cfg : Settings) (account : BacktestAccount)
    (events : List ServiceEvent) (trades : List (Decision × BacktestResult)) : Prop :=
  ∃ backtest, backtestTrace configHash cfg account trades = .ok backtest ∧
    compareTraces (liveTrace configHash cfg events) backtest = none

/-- Without an emission there is nothing to tell. -/
theorem liveTrace_eq_nil (htold : ∀ e ∈ events, ∀ s, e.nestedSignal = some s →
    s.id ∈ (liveEmitted events).map TradeSignal.id) (hnone : liveEmitted events = []) :
    liveTrace configHash cfg events = [] := by
  refine List.filterMap_eq_nil_iff.mpr fun e he => ?_
  rw [liveRow]
  cases hs : e.nestedSignal with
  | none => rfl
  | some s =>
      have hmem := htold e he s hs
      rw [hnone] at hmem
      exact absurd hmem List.not_mem_nil

/-- **The parity check.** Of two runs that behave alike it accepts exactly those that emitted no
    signal. -/
theorem parity_accepts_iff (configHash : Settings → String) (cfg : Settings)
    (account : BacktestAccount) (hsame : SameBehaviour events trades) :
    ParityAccepts configHash cfg account events trades ↔ liveEmitted events = [] := by
  have hnil : liveEmitted events = [] ↔ trades = [] := by
    have hlength := hsame.emitted.length_eq
    rw [List.length_map] at hlength
    rw [← List.length_eq_zero_iff, hlength, List.length_eq_zero_iff]
  constructor
  · rintro ⟨backtest, hrows, hnone⟩
    exact hnil.mpr ((compareTraces_eq_none_iff hrows).mp hnone).2
  · intro hemitted
    have htrades := hnil.mp hemitted
    subst htrades
    have hrows : backtestTrace configHash cfg account [] = .ok [] := rfl
    exact ⟨[], hrows, (compareTraces_eq_none_iff hrows).mpr
      ⟨liveTrace_eq_nil hsame.told hemitted, rfl⟩⟩

/-! ## Sample runs -/

def sampleAccount : BacktestAccount where
  startBalance := 10000
  riskPercent := 1
  startBalance_pos := by norm_num
  riskPercent_pos := by norm_num
  riskPercent_le := by norm_num

def emittedDecision : Decision := ⟨some sampleSignal, "valid_signal", none⟩

/-- The sample trade at its stop. -/
def stoppedSignal : TradeSignal := closeAtStop sampleSignal 7800000

/-- The sample trade at TP1, and back at its entry. -/
def protectedSignal : TradeSignal :=
  { sampleSignal with status := .tp1Hit, tp1HitAt := some 7800000 }

def breakevenSignal : TradeSignal := closeAtBreakeven protectedSignal sampleProfile 106 8100000

def stoppedEvents : List ServiceEvent :=
  [.triggered sampleSignal, .updated .signalSlHit .triggered stoppedSignal.closePrice stoppedSignal]

def stoppedTrades : List (Decision × BacktestResult) :=
  [(emittedDecision,
    ⟨stoppedSignal, .loss, -1, some 7800000, some (999 / 10), false, none, none, 0⟩)]

def breakevenEvents : List ServiceEvent :=
  [.triggered sampleSignal, .updated .signalTp1Hit .triggered (some 119) protectedSignal,
    .updated .signalSlHit .tp1Hit (some 106) breakevenSignal]

def breakevenTrades : List (Decision × BacktestResult) :=
  [(emittedDecision, ⟨breakevenSignal, .breakeven, protectedBeRr sampleSignal sampleProfile,
    some 8100000, some 106, false, none, none, 0⟩)]

theorem stopped_sameBehaviour : SameBehaviour stoppedEvents stoppedTrades where
  emitted := List.Forall₂.cons (by constructor <;> rfl) List.Forall₂.nil
  closed := rfl
  told := by
    intro e he s hs
    rcases List.mem_cons.mp he with rfl | he
    · cases hs
    · obtain rfl := List.mem_singleton.mp he
      obtain rfl := Option.some.inj hs
      exact List.mem_singleton.mpr rfl

/-- The two sides stop the sample trade out alike, and the check refuses it. -/
theorem stopped_refused :
    ¬ ParityAccepts (fun _ => "") sampleSettings sampleAccount stoppedEvents stoppedTrades :=
  fun h => List.cons_ne_nil _ _ ((parity_accepts_iff (fun _ => "") sampleSettings sampleAccount
    stopped_sameBehaviour).mp h)

theorem breakeven_sameBehaviour : SameBehaviour breakevenEvents breakevenTrades where
  emitted := List.Forall₂.cons (by constructor <;> rfl) List.Forall₂.nil
  closed := rfl
  told := by
    intro e he s hs
    rcases List.mem_cons.mp he with rfl | he
    · cases hs
    rcases List.mem_cons.mp he with rfl | he
    · obtain rfl := Option.some.inj hs
      exact List.mem_singleton.mpr rfl
    · obtain rfl := List.mem_singleton.mp he
      obtain rfl := Option.some.inj hs
      exact List.mem_singleton.mpr rfl

/-- One trade closed alike: stopped out at once it differs in the rounded ratio, and by way of TP1
    it has two live rows against one. -/
theorem parity_refuses_equal_runs :
    SameBehaviour stoppedEvents stoppedTrades ∧ SameBehaviour breakevenEvents breakevenTrades ∧
      (backtestTrace (fun _ => "") sampleSettings sampleAccount stoppedTrades).map
          (compareTraces (liveTrace (fun _ => "") sampleSettings stoppedEvents)) =
        .ok (some (.field 7500000 "XAUUSD" fiveMin .rr (.num (39344 / 10000))
          (.num (24 / (61 / 10))))) ∧
      (backtestTrace (fun _ => "") sampleSettings sampleAccount breakevenTrades).map
          (compareTraces (liveTrace (fun _ => "") sampleSettings breakevenEvents)) =
        .ok (some (.length 2 1)) :=
  ⟨stopped_sameBehaviour, breakeven_sameBehaviour, by decide +kernel, by decide +kernel⟩

end SignalEngine
