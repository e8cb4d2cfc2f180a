/-
  Builder: `domain/signals/builder.py`, with `in_session` of `domain/assets/profiles.py` and
  the facade `DecisionEngine.evaluate_setup`.

  `buildSignal` runs its gates in the source's order and returns `none` at the first that
  fails. `buildSignal_eq_some` is its specification: what every emitted signal looks like.
-/
import SignalEngine.Domain.TradeManagement

namespace SignalEngine

/-- `1e-8`. -/
def minRisk : ℚ := 1 / 100000000

/-- The UTC hour of a timestamp. -/
def utcHour (ts : ℤ) : ℕ := (ts / 3600000 % 24).toNat

/-- One enabled session accepts the hour; a session ending at midnight runs to 24:00. -/
def TradingSession.accepts (s : TradingSession) (hour : ℕ) : Bool :=
  s.enabled && !s.blockedHours.contains hour &&
    (if s.endHour = 0 then decide (s.startHour ≤ hour)
     else decide (s.startHour ≤ hour ∧ hour < s.endHour))

def inSession (p : AssetProfile) (ts : ℤ) : Bool :=
  if !p.useSessionFilter then true else p.sessions.any (fun s => s.accepts (utcHour ts))

/-- The price `build_signal` enters at. -/
def entryFor (p : AssetProfile) (direction : SignalDirection) (rejection : RejectionCandle)
    (liveBid liveAsk : Option ℚ) : ℚ :=
  match p.signalPriceSource, direction, liveBid, liveAsk with
  | .liveBidask, .short, some bid, _ => bid
  | .liveBidask, .long, _, some ask => ask
  | _, _, _, _ => rejection.close

/-- The wick-based stop with its buffer. -/
def stopFor (p : AssetProfile) (direction : SignalDirection) (rejection : RejectionCandle) : ℚ :=
  let buffer := rejection.wickTip * p.stopBufferPct
  match direction with
  | .short => rejection.wickTip + buffer
  | .long => rejection.wickTip - buffer

/-- `sl` is not beyond `entry` (gate 1). -/
def slOnWrongSide (direction : SignalDirection) (sl entry : ℚ) : Bool :=
  match direction with
  | .short => decide (sl ≤ entry)
  | .long => decide (entry ≤ sl)

/-- `tp2` is not beyond `entry` (gate 3). -/
def tp2OnWrongSide (direction : SignalDirection) (tp2 entry : ℚ) : Bool :=
  match direction with
  | .short => decide (entry ≤ tp2)
  | .long => decide (tp2 ≤ entry)

/-- Gate 5: `(tp2, rr)` after the RR cap. -/
def capRr (p : AssetProfile) (direction : SignalDirection) (entry tp2 risk : ℚ) : ℚ × ℚ :=
  let rr := |tp2 - entry| / risk
  if 0 < p.maxRr ∧ p.maxRr < rr then
    let cappedReward := p.maxRr * risk
    (match direction with
      | .long => entry + cappedReward
      | .short => entry - cappedReward, p.maxRr)
  else (tp2, rr)

def buildSignal (symbol : String) (htfInterval ltfInterval : Interval) (htfRange : HtfRange)
    (rejection : RejectionCandle) (signalId : SignalId) (p : AssetProfile) (broker : String)
    (liveBid liveAsk : Option ℚ) : Option TradeSignal :=
  let direction := htfRange.signalDirection
  let entry := entryFor p direction rejection liveBid liveAsk
  let sl := stopFor p direction rejection
  let risk := |entry - sl|
  let tp2 := htfRange.tpLevel
  let capped := capRr p direction entry tp2 risk
  if slOnWrongSide direction sl entry then none
  else if risk < minRisk then none
  else if 0 < htfRange.height ∧ htfRange.height * p.maxSlZoneMult < risk then none
  else if tp2OnWrongSide direction tp2 entry then none
  else if |tp2 - entry| / risk < p.minRr then none
  else if !inSession p rejection.timestamp then none
  else
    some
      { id := signalId
        symbol := symbol
        direction := direction
        status := .triggered
        entryPrice := entry
        stopLoss := sl
        tp1 := tp1Level direction entry capped.1 p.tp1TriggerPct
        tp2 := capped.1
        htfRange := htfRange
        rejectionCandle := rejection
        riskRewardRatio := capped.2
        riskPips := risk
        htfInterval := htfInterval
        ltfInterval := ltfInterval
        broker := broker
        createdAt := rejection.timestamp
        triggeredAt := some (rejection.timestamp + intervalMs ltfInterval)
        setupCandleOpenAt := some rejection.timestamp
        priceSourceUsed := if entry ≠ rejection.close then .liveBidask else .candleClose
        candleClosePrice := some rejection.close
        liveBidAtSignal := liveBid
        liveAskAtSignal := liveAsk
        priceDrift := if entry ≠ rejection.close then some (entry - rejection.close) else none
        setupCandleCloseAt := some (rejection.timestamp + intervalMs ltfInterval) }

/-! ## What a built signal looks like -/

/-- A signal as `build_signal` hands it over: triggered, nothing recorded yet. -/
structure FreshSignal (s : TradeSignal) : Prop where
  status_eq : s.status = .triggered
  tp1HitAt_eq : s.tp1HitAt = none
  tp2HitAt_eq : s.tp2HitAt = none
  slHitAt_eq : s.slHitAt = none
  expiredAt_eq : s.expiredAt = none
  closedAt_eq : s.closedAt = none
  outcome_eq : s.outcome = none
  realizedRr_eq : s.realizedRr = none
  closePrice_eq : s.closePrice = none

variable {symbol : String} {htfInterval ltfInterval : Interval} {htfRange : HtfRange}
  {rejection : RejectionCandle} {signalId : SignalId} {p : AssetProfile} {broker : String}
  {liveBid liveAsk : Option ℚ} {s : TradeSignal}

/-- The gates a built signal has passed, and the trade it describes. -/
structure BuiltFrom (symbol : String) (htfInterval ltfInterval : Interval)
    (htfRange : HtfRange) (rejection : RejectionCandle) (signalId : SignalId)
    (p : AssetProfile) (liveBid liveAsk : Option ℚ) (s : TradeSignal) : Prop where
  fresh : FreshSignal s
  id_eq : s.id = signalId
  symbol_eq : s.symbol = symbol
  direction_eq : s.direction = htfRange.signalDirection
  htfRange_eq : s.htfRange = htfRange
  rejectionCandle_eq : s.rejectionCandle = rejection
  htfInterval_eq : s.htfInterval = htfInterval
  ltfInterval_eq : s.ltfInterval = ltfInterval
  createdAt_eq : s.createdAt = rejection.timestamp
  triggeredAt_eq : s.triggeredAt = some (rejection.timestamp + intervalMs ltfInterval)
  entryPrice_eq : s.entryPrice = entryFor p s.direction rejection liveBid liveAsk
  stopLoss_eq : s.stopLoss = stopFor p s.direction rejection
  riskPips_eq : s.riskPips = |s.entryPrice - s.stopLoss|
  minRisk_le : minRisk ≤ s.riskPips
  sl_side : slOnWrongSide s.direction s.stopLoss s.entryPrice = false
  tpLevel_side : tp2OnWrongSide s.direction htfRange.tpLevel s.entryPrice = false
  capped_eq : (s.tp2, s.riskRewardRatio) =
    capRr p s.direction s.entryPrice htfRange.tpLevel s.riskPips
  tp1_eq : s.tp1 = tp1Level s.direction s.entryPrice s.tp2 p.tp1TriggerPct
  in_session : inSession p rejection.timestamp = true

theorem buildSignal_eq_some
    (h : buildSignal symbol htfInterval ltfInterval htfRange rejection signalId p broker
      liveBid liveAsk = some s) :
    BuiltFrom symbol htfInterval ltfInterval htfRange rejection signalId p liveBid liveAsk s := by
  unfold buildSignal at h
  dsimp only at h
  split at h
  · cases h
  next hsl =>
  split at h
  · cases h
  next hrisk =>
  split at h
  · cases h
  split at h
  · cases h
  next htp =>
  split at h
  · cases h
  split at h
  · cases h
  next hsess =>
  cases h
  refine ⟨⟨rfl, rfl, rfl, rfl, rfl, rfl, rfl, rfl, rfl⟩, rfl, rfl, rfl, rfl, rfl, rfl, rfl, rfl,
    rfl, rfl, rfl, rfl, not_lt.mp hrisk, ?_, ?_, rfl, rfl, ?_⟩
  · simpa using hsl
  · simpa using htp
  · simpa using hsess

theorem minRisk_pos : 0 < minRisk := by
  norm_num [minRisk]

theorem BuiltFrom.riskPips_pos
    (h : BuiltFrom symbol htfInterval ltfInterval htfRange rejection signalId p liveBid liveAsk s) :
    0 < s.riskPips :=
  minRisk_pos.trans_le h.minRisk_le

theorem abs_sub_pos_of_side {direction : SignalDirection} {tp2 entry : ℚ}
    (h : tp2OnWrongSide direction tp2 entry = false) : 0 < |tp2 - entry| := by
  rw [abs_pos, sub_ne_zero]
  rintro rfl
  cases direction <;> simp [tp2OnWrongSide] at h

/-- A built signal's reward ratio is positive, capped or not. -/
theorem BuiltFrom.riskRewardRatio_pos
    (h : BuiltFrom symbol htfInterval ltfInterval htfRange rejection signalId p liveBid liveAsk s) :
    0 < s.riskRewardRatio := by
  have hrr : s.riskRewardRatio =
      (capRr p s.direction s.entryPrice htfRange.tpLevel s.riskPips).2 := by rw [← h.capped_eq]
  rw [hrr, capRr]
  split
  · next hcap => exact hcap.1
  · exact div_pos (abs_sub_pos_of_side h.tpLevel_side) h.riskPips_pos

/-! ## The decision facade -/

/-- `Decision`. -/
structure Decision where
  signal : Option TradeSignal
  decisionReason : String
  blockedReason : Option String := none
  deriving DecidableEq, Repr

/-- `DecisionEngine.evaluate_setup`; an empty `blocked_reason` counts as none. -/
def evaluateSetup (symbol : String) (htfInterval ltfInterval : Interval) (htfRange : HtfRange)
    (rejection : RejectionCandle) (signalId : SignalId) (p : AssetProfile)
    (broker : String := "") (blockedReason : Option String := none)
    (liveBid liveAsk : Option ℚ := none) : Decision :=
  if blockedReason.getD "" ≠ "" then ⟨none, "blocked", blockedReason⟩
  else
    match buildSignal symbol htfInterval ltfInterval htfRange rejection signalId p broker
        liveBid liveAsk with
    | none => ⟨none, "blocked", some "signal_quality_gate"⟩
    | some s => ⟨some s, "valid_signal", none⟩

/-- Without a blocking reason the facade passes the builder's answer on. -/
theorem evaluateSetup_signal (symbol : String) (htfInterval ltfInterval : Interval)
    (htfRange : HtfRange) (rejection : RejectionCandle) (signalId : SignalId)
    (p : AssetProfile) (broker : String) (liveBid liveAsk : Option ℚ) :
    (evaluateSetup symbol htfInterval ltfInterval htfRange rejection signalId p broker none
      liveBid liveAsk).signal =
    buildSignal symbol htfInterval ltfInterval htfRange rejection signalId p broker
      liveBid liveAsk := by
  have hnone : ¬ (none : Option String).getD "" ≠ "" := by simp
  rw [evaluateSetup, if_neg hnone]
  split
  · next h => rw [h]
  · next h => rw [h]

/-! ## A sample trade

A gold long on a bullish zone, with the profile it is built and managed by. -/

def sampleProfile : AssetProfile where
  minRr := 1
  maxRr := 5
  useSessionFilter := false
  sessions := []
  stopBufferPct := 1 / 1000
  maxSlZoneMult := 2
  tp1TriggerPct := 50
  tp1ClosePct := 50
  moveSlToBeOnTp1 := true
  signalExpiryHours := 48
  useTrendFilter := false
  htfLookback := 50
  multiTfIndependentPositions := true

def sampleRange : HtfRange where
  rangeHigh := 110
  rangeLow := 90
  bosDirection := .bullish
  timestamp := 0
  brokenAt := 3600000
  tpLevel := 130

def sampleRejection : RejectionCandle where
  openPrice := 105
  high := 107
  low := 100
  close := 106
  timestamp := 7200000
  wickRatio := 7 / 10
  pattern := .crtBuy

def sampleId : SignalId := ⟨"XAUUSD", oneHour, fiveMin, 7200000, .long⟩

def sampleSignal : TradeSignal where
  id := sampleId
  symbol := "XAUUSD"
  direction := .long
  status := .triggered
  entryPrice := 106
  stopLoss := 999 / 10
  tp1 := 118
  tp2 := 130
  htfRange := sampleRange
  rejectionCandle := sampleRejection
  riskRewardRatio := 24 / (61 / 10)
  riskPips := 61 / 10
  htfInterval := oneHour
  ltfInterval := fiveMin
  candleClosePrice := some 106
  createdAt := 7200000
  triggeredAt := some 7500000
  setupCandleOpenAt := some 7200000
  setupCandleCloseAt := some 7500000

theorem sampleSignal_built :
    buildSignal "XAUUSD" oneHour fiveMin sampleRange sampleRejection sampleId sampleProfile ""
      none none = some sampleSignal := by
  decide +kernel

theorem sampleProfile_pctInRange : sampleProfile.PctInRange := by
  constructor <;> norm_num [sampleProfile]

end SignalEngine
