/-
  Entities: the value types of `domain/entities` and the settings they are read with.

  Model. Prices, R multiples and percentages are exact rationals; timestamps are integers
  (UTC ms). An `Interval` is a timeframe string such as `5min` or `1h`, split into its count
  and its unit, so that `interval_to_minutes` is total on it. A `SignalId` keeps the five
  parts of the id f-string apart. `chart_data` (a dict nobody reads) is kept as its text.
-/
import SignalEngine.Lib.Double

namespace SignalEngine

open Lib

/-! ## Numbers -/

/-- Python's `int(x)` on a number: truncation toward zero. -/
def pyInt (q : ℚ) : ℤ := if 0 ≤ q then ⌊q⌋ else ⌈q⌉

/-- Python's `round(x)`: to the nearest integer, ties to even. -/
def pyRound (q : ℚ) : ℤ := roundEven q

/-- Python's `round(x, digits)`, exactly. -/
def pyRoundTo (q : ℚ) (digits : ℕ) : ℚ := (pyRound (q * 10 ^ digits) : ℚ) / 10 ^ digits

/-- `round(x, 4)` is off by half of the fourth digit at most. -/
theorem abs_pyRoundTo_four_sub_le (q : ℚ) : |pyRoundTo q 4 - q| ≤ 1 / 20000 := by
  have h : |(pyRound (q * 10 ^ 4) : ℚ) - q * 10 ^ 4| ≤ 1 / 2 := abs_roundEven_sub_le _
  have heq : pyRoundTo q 4 - q = ((pyRound (q * 10 ^ 4) : ℚ) - q * 10 ^ 4) / 10000 := by
    unfold pyRoundTo
    ring
  rw [heq, abs_div, abs_of_pos (show (0 : ℚ) < 10000 by norm_num), div_le_iff₀ (by norm_num)]
  linarith

/-- Python's `a or b` on an optional number: zero counts as absent. -/
def pyOr {α : Type} [Zero α] [DecidableEq α] (a : Option α) (b : α) : α :=
  if a.getD 0 ≠ 0 then a.getD 0 else b

/-- `3_600_000`, the milliseconds of one hour. -/
def msPerHour : ℚ := 3600000

/-! ## Enumerations -/

inductive SignalDirection where
  | long
  | short
  deriving DecidableEq, Repr

inductive SignalStatus where
  | pending
  | triggered
  | tp1Hit
  | tp2Hit
  | slHit
  | invalidated
  | expired
  deriving DecidableEq, Repr

inductive SignalOutcome where
  | winFull
  | breakeven
  | loss
  | invalidated
  | expired
  deriving DecidableEq, Repr

inductive SignalEvent where
  | signalPending
  | signalTriggered
  | signalTp1Hit
  | signalTp2Hit
  | signalSlHit
  | signalInvalidated
  | signalExpired
  | signalUpdated
  deriving DecidableEq, Repr

inductive BosDirection where
  | bullish
  | bearish
  deriving DecidableEq, Repr

inductive CandlePattern where
  | shootingStar
  | hammer
  | crtSell
  | crtBuy
  deriving DecidableEq, Repr

inductive TrendBias where
  | long
  | short
  | neutral
  deriving DecidableEq, Repr

/-- `WIN_OUTCOMES`. -/
def SignalOutcome.isWin : SignalOutcome → Bool
  | .winFull | .breakeven => true
  | _ => false

/-- The statuses the watchlist manager keeps evaluating. -/
def SignalStatus.isOpen : SignalStatus → Bool
  | .triggered | .tp1Hit => true
  | _ => false

/-! ## Timeframes -/

inductive IntervalUnit where
  | min
  | h
  | day
  | week
  deriving DecidableEq, Repr

/-- A timeframe string `{count}{unit}` with a positive count. -/
structure Interval where
  count : ℕ
  unit : IntervalUnit
  count_pos : 0 < count
  deriving DecidableEq, Repr

/-- `interval_to_minutes`. -/
def intervalToMinutes (i : Interval) : ℕ :=
  match i.unit with
  | .min => i.count
  | .h => i.count * 60
  | .day => i.count * 60 * 24
  | .week => i.count * 60 * 24 * 7

/-- `interval_to_minutes(interval) * 60 * 1000`, also `_interval_to_ms` of the builder. -/
def intervalMs (i : Interval) : ℤ := (intervalToMinutes i : ℤ) * 60 * 1000

theorem intervalToMinutes_pos (i : Interval) : 0 < intervalToMinutes i := by
  have := i.count_pos
  unfold intervalToMinutes
  cases i.unit <;> dsimp only <;> omega

theorem intervalMs_pos (i : Interval) : 0 < intervalMs i := by
  have := intervalToMinutes_pos i
  unfold intervalMs
  omega

def fiveMin : Interval := ⟨5, .min, by decide⟩
def fifteenMin : Interval := ⟨15, .min, by decide⟩
def oneHour : Interval := ⟨1, .h, by decide⟩

/-! ## Market data -/

/-- `Candle`. -/
structure Candle where
  timestamp : ℤ
  openPrice : ℚ
  high : ℚ
  low : ℚ
  close : ℚ
  volume : ℚ := 0
  deriving DecidableEq, Repr

def Candle.totalRange (c : Candle) : ℚ := c.high - c.low

/-- Open and close lie between low and high. -/
structure Candle.OhlcConsistent (c : Candle) : Prop where
  low_le_open : c.low ≤ c.openPrice
  low_le_close : c.low ≤ c.close
  open_le_high : c.openPrice ≤ c.high
  close_le_high : c.close ≤ c.high

instance (c : Candle) : Decidable c.OhlcConsistent :=
  decidable_of_iff (c.low ≤ c.openPrice ∧ c.low ≤ c.close ∧ c.openPrice ≤ c.high ∧ c.close ≤ c.high)
    ⟨fun h => ⟨h.1, h.2.1, h.2.2.1, h.2.2.2⟩, fun h => ⟨h.1, h.2, h.3, h.4⟩⟩

/-- `HtfRange`. -/
structure HtfRange where
  rangeHigh : ℚ
  rangeLow : ℚ
  bosDirection : BosDirection
  timestamp : ℤ
  brokenAt : ℤ := 0
  tpLevel : ℚ := 0
  htfCandleOpen : ℤ := 0
  htfCandleClose : ℤ := 0
  deriving DecidableEq, Repr

def HtfRange.height (z : HtfRange) : ℚ := z.rangeHigh - z.rangeLow

def HtfRange.signalDirection (z : HtfRange) : SignalDirection :=
  if z.bosDirection = .bearish then .short else .long

/-- `htf_range.broken_at or htf_range.timestamp`. -/
def HtfRange.zoneStart (z : HtfRange) : ℤ :=
  if z.brokenAt ≠ 0 then z.brokenAt else z.timestamp

/-- `RejectionCandle`. -/
structure RejectionCandle where
  openPrice : ℚ
  high : ℚ
  low : ℚ
  close : ℚ
  timestamp : ℤ
  wickRatio : ℚ
  pattern : CandlePattern
  deriving DecidableEq, Repr

def RejectionCandle.wickTip (r : RejectionCandle) : ℚ :=
  match r.pattern with
  | .shootingStar | .crtSell => r.high
  | .hammer | .crtBuy => r.low

/-! ## Trades -/

/-- The parts of `f"{symbol}_{htf}_{ltf}_{rejection.timestamp}_{direction}"`. -/
structure SignalId where
  symbol : String
  htfInterval : Interval
  ltfInterval : Interval
  rejTs : ℤ
  direction : SignalDirection
  deriving DecidableEq, Repr

inductive PriceSource where
  | candleClose
  | liveBidask
  deriving DecidableEq, Repr

/-- `TradeSignal`. -/
structure TradeSignal where
  id : SignalId
  symbol : String
  direction : SignalDirection
  status : SignalStatus
  entryPrice : ℚ
  stopLoss : ℚ
  tp1 : ℚ
  tp2 : ℚ
  htfRange : HtfRange
  rejectionCandle : RejectionCandle
  riskRewardRatio : ℚ
  riskPips : ℚ
  htfInterval : Interval
  ltfInterval : Interval
  zoneAttempt : ℕ := 1
  broker : String := ""
  priceSourceUsed : PriceSource := .candleClose
  candleClosePrice : Option ℚ := none
  liveBidAtSignal : Option ℚ := none
  liveAskAtSignal : Option ℚ := none
  priceDrift : Option ℚ := none
  createdAt : ℤ := 0
  pendingAt : Option ℤ := none
  triggeredAt : Option ℤ := none
  setupCandleOpenAt : Option ℤ := none
  setupCandleCloseAt : Option ℤ := none
  detectedAt : Option ℤ := none
  emittedAt : Option ℤ := none
  tp1HitAt : Option ℤ := none
  tp2HitAt : Option ℤ := none
  slHitAt : Option ℤ := none
  invalidatedAt : Option ℤ := none
  expiredAt : Option ℤ := none
  closedAt : Option ℤ := none
  outcome : Option SignalOutcome := none
  realizedRr : Option ℚ := none
  closePrice : Option ℚ := none
  chartPath : Option String := none
  chartData : Option String := none
  deriving DecidableEq, Repr

/-- `ClosedSignalRecord`. -/
structure ClosedSignalRecord where
  signalId : SignalId
  symbol : String
  direction : SignalDirection
  outcome : SignalOutcome
  realizedRr : ℚ
  closedAt : ℤ
  htfTs : ℤ := 0
  ltfTs : ℤ := 0
  rejTs : ℤ := 0
  entryTs : ℤ := 0
  entry : ℚ := 0
  sl : ℚ := 0
  tp1 : ℚ := 0
  tp2 : ℚ := 0
  rr : ℚ := 0
  wickRatio : ℚ := 0
  pattern : Option CandlePattern := none
  htfInterval : Interval
  ltfInterval : Interval
  zoneAttempt : ℕ := 1
  htfHigh : ℚ := 0
  htfLow : ℚ := 0
  tpLevel : ℚ := 0
  ltfHigh : ℚ := 0
  ltfLow : ℚ := 0
  deriving DecidableEq, Repr

/-! ## Profiles -/

/-- One entry of `AssetProfile.sessions`; only the hours of `start` and `end` are read. -/
structure TradingSession where
  startHour : ℕ
  endHour : ℕ
  enabled : Bool
  blockedHours : List ℕ := []
  deriving DecidableEq, Repr

/-- `AssetProfile`. -/
structure AssetProfile where
  minRr : ℚ
  maxRr : ℚ
  useSessionFilter : Bool
  sessions : List TradingSession
  stopBufferPct : ℚ
  maxSlZoneMult : ℚ
  tp1TriggerPct : ℚ
  tp1ClosePct : ℚ
  moveSlToBeOnTp1 : Bool
  signalExpiryHours : ℚ
  useTrendFilter : Bool
  htfLookback : ℤ
  multiTfIndependentPositions : Bool
  signalPriceSource : PriceSource := .candleClose
  deriving DecidableEq, Repr

end SignalEngine
