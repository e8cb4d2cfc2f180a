/-
  Wire format: `TradeSignal.to_dict` and `from_dict`, key by key.

  Model. A dict is a partial function on the keys (`WireKey`); the value at `htfRange` and
  `rejectionCandle` is a dict again. `json.dumps` and `json.loads` are inverse on these values,
  so the text between them is left out. An interval string and an id string are single values,
  as everywhere. A value of the wrong type raises at once here, where Python would carry it on.

  `fromDict_toDict` says what comes back of any signal: `storedForm`. The five pricing
  diagnostics have no key, so a signal of `build_signal`, which always sets
  `candle_close_price`, never comes back whole (`roundTrip_loses_diagnostics`).
-/
import SignalEngine.Domain.Builder
import SignalEngine.Engine.Replay
import SignalEngine.Persistence.Store

namespace SignalEngine

open Lib

/-! ## Enumerations as strings -/

def SignalDirection.value : SignalDirection → String
  | .long => "LONG"
  | .short => "SHORT"

def SignalStatus.value : SignalStatus → String
  | .pending => "PENDING"
  | .triggered => "TRIGGERED"
  | .tp1Hit => "TP1_HIT"
  | .tp2Hit => "TP2_HIT"
  | .slHit => "SL_HIT"
  | .invalidated => "INVALIDATED"
  | .expired => "EXPIRED"

def SignalOutcome.value : SignalOutcome → String
  | .winFull => "WIN_FULL"
  | .breakeven => "BREAKEVEN"
  | .loss => "LOSS"
  | .invalidated => "INVALIDATED"
  | .expired => "EXPIRED"

def BosDirection.value : BosDirection → String
  | .bullish => "BULLISH"
  | .bearish => "BEARISH"

def CandlePattern.value : CandlePattern → String
  | .shootingStar => "SHOOTING_STAR"
  | .hammer => "HAMMER"
  | .crtSell => "CRT_SELL"
  | .crtBuy => "CRT_BUY"

/-! ## Dicts -/

inductive WireKey where
  | id | symbol | direction | status | entryPrice | stopLoss | tp1 | tp2
  | riskRewardRatio | riskPips | htfInterval | ltfInterval | zoneAttempt | broker
  | htfRange | rejectionCandle
  | createdAt | pendingAt | triggeredAt | setupCandleOpenAt | setupCandleCloseAt
  | detectedAt | emittedAt | rejectionCandleCloseAt
  | tp1HitAt | tp2HitAt | slHitAt | invalidatedAt | expiredAt | closedAt
  | outcome | realizedRR | closePrice | chartPath | chartData
  -- of `htfRange`
  | rangeHigh | rangeLow | bosDirection | timestamp | brokenAt | tpLevel | midpoint | height
  | htfCandleOpen | htfCandleClose
  -- of `rejectionCandle`; `openPrice` is the key "open"
  | openPrice | high | low | close | closeAt | wickRatio | pattern | wickTip
  deriving DecidableEq, Repr

inductive WireValue where
  | null
  | int (n : ℤ)
  | num (q : ℚ)
  | str (s : String)
  | interval (i : Interval)
  | signalId (id : SignalId)
  | dict (d : WireKey → Option WireValue)

abbrev WireDict := WireKey → Option WireValue

inductive WireError where
  | keyError (key : WireKey)
  | valueError (text : String)
  | typeError
  deriving DecidableEq, Repr

namespace WireDict

variable (d : WireDict) (k : WireKey)

/-- `d[k]`. -/
def item : Except WireError WireValue :=
  match d k with
  | some v => .ok v
  | none => .error (.keyError k)

/-- `d.get(k)`. -/
def get : WireValue := (d k).getD .null

end WireDict

namespace WireValue

def toNum : WireValue → Except WireError ℚ
  | .num q => .ok q
  | _ => .error .typeError

def toInt : WireValue → Except WireError ℤ
  | .int n => .ok n
  | _ => .error .typeError

def toNum? : WireValue → Except WireError (Option ℚ)
  | .null => .ok none
  | v => v.toNum.map some

def toInt? : WireValue → Except WireError (Option ℤ)
  | .null => .ok none
  | v => v.toInt.map some

def toText : WireValue → Except WireError String
  | .str s => .ok s
  | _ => .error .typeError

def toText? : WireValue → Except WireError (Option String)
  | .null => .ok none
  | v => v.toText.map some

def toInterval : WireValue → Except WireError Interval
  | .interval i => .ok i
  | _ => .error .typeError

def toSignalId : WireValue → Except WireError SignalId
  | .signalId id => .ok id
  | _ => .error .typeError

def toDict : WireValue → Except WireError WireDict
  | .dict d => .ok d
  | _ => .error .typeError

def ofNum? : Option ℚ → WireValue
  | none => .null
  | some q => .num q

def ofInt? : Option ℤ → WireValue
  | none => .null
  | some n => .int n

def ofText? : Option String → WireValue
  | none => .null
  | some s => .str s

/-- `Enum(v)`: the member with that value. -/
def toMember {ε : Type} (members : List ε) (value : ε → String) (v : WireValue) :
    Except WireError ε :=
  match v.toText with
  | .error e => .error e
  | .ok text =>
      match members.find? (fun m => value m == text) with
      | some m => .ok m
      | none => .error (.valueError text)

end WireValue

def toSignalDirection : WireValue → Except WireError SignalDirection :=
  WireValue.toMember [.long, .short] SignalDirection.value

def toSignalStatus : WireValue → Except WireError SignalStatus :=
  WireValue.toMember [.pending, .triggered, .tp1Hit, .tp2Hit, .slHit, .invalidated, .expired]
    SignalStatus.value

def toSignalOutcome : WireValue → Except WireError SignalOutcome :=
  WireValue.toMember [.winFull, .breakeven, .loss, .invalidated, .expired] SignalOutcome.value

def toBosDirection : WireValue → Except WireError BosDirection :=
  WireValue.toMember [.bullish, .bearish] BosDirection.value

def toCandlePattern : WireValue → Except WireError CandlePattern :=
  WireValue.toMember [.shootingStar, .hammer, .crtSell, .crtBuy] CandlePattern.value

/-! ## `to_dict` -/

def HtfRange.toWireDict (z : HtfRange) : WireDict
  | .rangeHigh => some (.num z.rangeHigh)
  | .rangeLow => some (.num z.rangeLow)
  | .bosDirection => some (.str z.bosDirection.value)
  | .timestamp => some (.int z.timestamp)
  | .brokenAt => some (.int z.brokenAt)
  | .tpLevel => some (.num z.tpLevel)
  | .midpoint => some (.num ((z.rangeHigh + z.rangeLow) / 2))
  | .height => some (.num (pyRoundTo z.height 6))
  | .htfCandleOpen => some (.int z.htfCandleOpen)
  | .htfCandleClose => some (.int z.htfCandleClose)
  | _ => none

def RejectionCandle.toWireDict (r : RejectionCandle) (closeAt : ℤ) : WireDict
  | .openPrice => some (.num r.openPrice)
  | .high => some (.num r.high)
  | .low => some (.num r.low)
  | .close => some (.num r.close)
  | .timestamp => some (.int r.timestamp)
  | .closeAt => some (.int closeAt)
  | .wickRatio => some (.num (pyRoundTo r.wickRatio 4))
  | .pattern => some (.str r.pattern.value)
  | .wickTip => some (.num r.wickTip)
  | _ => none

/-- `rejection_candle_close_at` of `to_dict`. -/
def TradeSignal.candleCloseAt (s : TradeSignal) : ℤ :=
  pyOr s.setupCandleCloseAt (s.rejectionCandle.timestamp + intervalMs s.ltfInterval)

/-- `to_dict`. -/
def TradeSignal.toWireDict (s : TradeSignal) : WireDict
  | .id => some (.signalId s.id)
  | .symbol => some (.str s.symbol)
  | .direction => some (.str s.direction.value)
  | .status => some (.str s.status.value)
  | .entryPrice => some (.num s.entryPrice)
  | .stopLoss => some (.num s.stopLoss)
  | .tp1 => some (.num s.tp1)
  | .tp2 => some (.num s.tp2)
  | .riskRewardRatio => some (.num (pyRoundTo s.riskRewardRatio 4))
  | .riskPips => some (.num (pyRoundTo s.riskPips 6))
  | .htfInterval => some (.interval s.htfInterval)
  | .ltfInterval => some (.interval s.ltfInterval)
  | .zoneAttempt => some (.int s.zoneAttempt)
  | .broker => some (.str s.broker)
  | .htfRange => some (.dict s.htfRange.toWireDict)
  | .rejectionCandle => some (.dict (s.rejectionCandle.toWireDict s.candleCloseAt))
  | .createdAt => some (.int s.createdAt)
  | .pendingAt => some (.ofInt? s.pendingAt)
  | .triggeredAt => some (.ofInt? s.triggeredAt)
  | .setupCandleOpenAt => some (.int (pyOr s.setupCandleOpenAt s.rejectionCandle.timestamp))
  | .setupCandleCloseAt => some (.int s.candleCloseAt)
  | .detectedAt => some (.ofInt? s.detectedAt)
  | .emittedAt => some (.ofInt? s.emittedAt)
  | .rejectionCandleCloseAt => some (.int s.candleCloseAt)
  | .tp1HitAt => some (.ofInt? s.tp1HitAt)
  | .tp2HitAt => some (.ofInt? s.tp2HitAt)
  | .slHitAt => some (.ofInt? s.slHitAt)
  | .invalidatedAt => some (.ofInt? s.invalidatedAt)
  | .expiredAt => some (.ofInt? s.expiredAt)
  | .closedAt => some (.ofInt? s.closedAt)
  | .outcome => some (.ofText? (s.outcome.map SignalOutcome.value))
  | .realizedRR => some (.ofNum? s.realizedRr)
  | .closePrice => some (.ofNum? s.closePrice)
  | .chartPath => some (.ofText? s.chartPath)
  | .chartData => some (.ofText? s.chartData)
  | _ => none

/-! ## `from_dict` -/

def HtfRange.fromDict (hr : WireDict) : Except WireError HtfRange := do
  return {
    rangeHigh := ← (← hr.item .rangeHigh).toNum
    rangeLow := ← (← hr.item .rangeLow).toNum
    bosDirection := ← toBosDirection (← hr.item .bosDirection)
    timestamp := ← (← hr.item .timestamp).toInt
    brokenAt := pyOr (← (hr.get .brokenAt).toInt?) 0
    tpLevel := pyOr (← (hr.get .tpLevel).toNum?) 0
    htfCandleOpen := pyOr (← (hr.get .htfCandleOpen).toInt?) 0
    htfCandleClose := pyOr (← (hr.get .htfCandleClose).toInt?) 0 }

def RejectionCandle.fromDict (rc : WireDict) : Except WireError RejectionCandle := do
  return {
    openPrice := ← (← rc.item .openPrice).toNum
    high := ← (← rc.item .high).toNum
    low := ← (← rc.item .low).toNum
    close := ← (← rc.item .close).toNum
    timestamp := ← (← rc.item .timestamp).toInt
    wickRatio := ← (← rc.item .wickRatio).toNum
    pattern := ← toCandlePattern (← rc.item .pattern) }

/-- `SignalOutcome(d["outcome"]) if d.get("outcome") else None`. -/
def outcomeOf (v : WireValue) : Except WireError (Option SignalOutcome) :=
  match v with
  | .null => .ok none
  | .str "" => .ok none
  | v => (toSignalOutcome v).map some

/-- `a or b`, both times or null. -/
def orTime (a b : Option ℤ) : Option ℤ :=
  if a.getD 0 ≠ 0 then a else b

/-- `from_dict`; the fields without a key take their defaults. -/
def TradeSignal.fromDict (d : WireDict) : Except WireError TradeSignal := do
  let hr ← (← d.item .htfRange).toDict
  let rc ← (← d.item .rejectionCandle).toDict
  return {
    id := ← (← d.item .id).toSignalId
    symbol := ← (← d.item .symbol).toText
    direction := ← toSignalDirection (← d.item .direction)
    status := ← toSignalStatus (← d.item .status)
    entryPrice := ← (← d.item .entryPrice).toNum
    stopLoss := ← (← d.item .stopLoss).toNum
    tp1 := ← (← d.item .tp1).toNum
    tp2 := ← (← d.item .tp2).toNum
    riskRewardRatio := ← (← d.item .riskRewardRatio).toNum
    riskPips := ← (← d.item .riskPips).toNum
    htfInterval := ← ((d .htfInterval).getD (.interval oneHour)).toInterval
    ltfInterval := ← ((d .ltfInterval).getD (.interval fiveMin)).toInterval
    zoneAttempt := (← ((d .zoneAttempt).getD (.int 1)).toInt).toNat
    broker := ← ((d .broker).getD (.str "")).toText
    htfRange := ← HtfRange.fromDict hr
    rejectionCandle := ← RejectionCandle.fromDict rc
    createdAt := ← (← d.item .createdAt).toInt
    pendingAt := ← (d.get .pendingAt).toInt?
    triggeredAt := ← (d.get .triggeredAt).toInt?
    setupCandleOpenAt := ← (d.get .setupCandleOpenAt).toInt?
    setupCandleCloseAt :=
      orTime (← (d.get .setupCandleCloseAt).toInt?) (← (d.get .rejectionCandleCloseAt).toInt?)
    detectedAt := ← (d.get .detectedAt).toInt?
    emittedAt := ← (d.get .emittedAt).toInt?
    tp1HitAt := ← (d.get .tp1HitAt).toInt?
    tp2HitAt := ← (d.get .tp2HitAt).toInt?
    slHitAt := ← (d.get .slHitAt).toInt?
    invalidatedAt := ← (d.get .invalidatedAt).toInt?
    expiredAt := ← (d.get .expiredAt).toInt?
    closedAt := ← (d.get .closedAt).toInt?
    outcome := ← outcomeOf (d.get .outcome)
    realizedRr := ← (d.get .realizedRR).toNum?
    closePrice := ← (d.get .closePrice).toNum?
    chartPath := ← (d.get .chartPath).toText?
    chartData := ← (d.get .chartData).toText? }

/-! ## The round trip -/

variable {s s' : TradeSignal}

@[simp] theorem toNum?_ofNum? (q : Option ℚ) : (WireValue.ofNum? q).toNum? = .ok q := by
  cases q <;> rfl

@[simp] theorem toInt?_ofInt? (n : Option ℤ) : (WireValue.ofInt? n).toInt? = .ok n := by
  cases n <;> rfl

theorem toInt?_int (n : ℤ) : (WireValue.int n).toInt? = .ok (some n) := rfl

@[simp] theorem toText?_ofText? (t : Option String) : (WireValue.ofText? t).toText? = .ok t := by
  cases t <;> rfl

@[simp] theorem toSignalDirection_value (x : SignalDirection) :
    toSignalDirection (.str x.value) = .ok x := by
  cases x <;> rfl

@[simp] theorem toSignalStatus_value (x : SignalStatus) :
    toSignalStatus (.str x.value) = .ok x := by
  cases x <;> rfl

@[simp] theorem toBosDirection_value (x : BosDirection) :
    toBosDirection (.str x.value) = .ok x := by
  cases x <;> rfl

@[simp] theorem toCandlePattern_value (x : CandlePattern) :
    toCandlePattern (.str x.value) = .ok x := by
  cases x <;> rfl

@[simp] theorem outcomeOf_ofText? (o : Option SignalOutcome) :
    outcomeOf (.ofText? (o.map SignalOutcome.value)) = .ok o := by
  rcases o with _ | (_ | _ | _ | _ | _) <;> rfl

theorem pyOr_zero {α : Type} [Zero α] [DecidableEq α] (x : α) : pyOr (some x) 0 = x := by
  unfold pyOr
  split
  · rfl
  · next h => exact (not_not.mp h).symm

theorem orTime_self (n : ℤ) : orTime (some n) (some n) = some n := ite_self _

@[simp] theorem ok_bind {α β : Type} (a : α) (f : α → Except WireError β) :
    (Except.ok a >>= f) = f a := rfl

/-- A zone comes back whole. -/
@[simp] theorem htfRange_fromDict (z : HtfRange) : HtfRange.fromDict z.toWireDict = .ok z := by
  simp only [HtfRange.fromDict, HtfRange.toWireDict, WireDict.item, WireDict.get, ok_bind,
    toBosDirection_value, WireValue.toNum, WireValue.toInt, WireValue.toNum?, WireValue.toInt?,
    Option.getD, Except.map, pyOr_zero]
  rfl

/-- A rejection comes back with its wick ratio rounded. -/
@[simp] theorem rejectionCandle_fromDict (r : RejectionCandle) (closeAt : ℤ) :
    RejectionCandle.fromDict (r.toWireDict closeAt) =
      .ok { r with wickRatio := pyRoundTo r.wickRatio 4 } := by
  simp only [RejectionCandle.fromDict, RejectionCandle.toWireDict, WireDict.item, ok_bind,
    toCandlePattern_value, WireValue.toNum, WireValue.toInt]
  rfl

/-- **What comes back.** Every signal comes back as its stored form. -/
theorem fromDict_toDict (s : TradeSignal) :
    TradeSignal.fromDict s.toWireDict = .ok (storedForm s) := by
  simp only [TradeSignal.fromDict, TradeSignal.toWireDict, WireDict.item, WireDict.get, ok_bind,
    Option.getD, WireValue.toDict, WireValue.toSignalId, WireValue.toText, WireValue.toNum,
    WireValue.toInterval, WireValue.toInt, toSignalDirection_value, toSignalStatus_value,
    htfRange_fromDict, rejectionCandle_fromDict, toInt?_ofInt?, toNum?_ofNum?, toText?_ofText?,
    outcomeOf_ofText?, toInt?_int, orTime_self]
  rfl

/-- What the store gives back for the trade just saved. -/
theorem getOpen_upsertOpen (t : Tables) (s : TradeSignal) (nowMs : ℤ) :
    (t.upsertOpen s nowMs).getOpen s.id = some (storedForm s) :=
  map_lookup_upsert (r := openRowOf s nowMs) (fun _ h => h) (fun _ => rfl) t.openSignals

/-! ## Signals of the engine -/

/-- The trade with the metrics that `to_dict` rounds. -/
def TradeSignal.rounded (s : TradeSignal) : TradeSignal :=
  { s with
    riskRewardRatio := pyRoundTo s.riskRewardRatio 4
    riskPips := pyRoundTo s.riskPips 6
    rejectionCandle :=
      { s.rejectionCandle with wickRatio := pyRoundTo s.rejectionCandle.wickRatio 4 } }

/-- The trade without the fields of the pricing diagnostics. -/
def TradeSignal.undiagnosed (s : TradeSignal) : TradeSignal :=
  { s with
    priceSourceUsed := .candleClose
    candleClosePrice := none
    liveBidAtSignal := none
    liveAskAtSignal := none
    priceDrift := none }

/-- One call of `step_signal_state`, on any candle, profile and time. -/
def StepsTo (s s' : TradeSignal) : Prop :=
  ∃ c p now out, stepSignalState s c p now = .ok (s', out)

/-- What is recorded about the setup of the trade. -/
structure SetupRecorded (s : TradeSignal) : Prop where
  openAt_eq : s.setupCandleOpenAt = some s.rejectionCandle.timestamp
  closeAt_eq : s.setupCandleCloseAt =
    some (s.rejectionCandle.timestamp + intervalMs s.ltfInterval)
  closePrice_ne : s.candleClosePrice ≠ none

theorem SetupRecorded.advance (h : SetupRecorded s) (c : Candle) (p : AssetProfile) (now : ℤ) :
    SetupRecorded (advance s c p now).1 := by
  obtain ⟨hopen, hclose, hprice⟩ := h
  unfold SignalEngine.advance tp1HitBlock expireSignal closeAtTp2 closeAtStop closeAtBreakeven
  dsimp only
  repeat' split
  all_goals exact ⟨hopen, hclose, hprice⟩

theorem SetupRecorded.stepsTo (h : SetupRecorded s) (hstep : StepsTo s s') : SetupRecorded s' := by
  obtain ⟨c, p, now, out, hstep⟩ := hstep
  obtain ⟨-, hadv⟩ := stepSignalState_eq_ok hstep
  have := h.advance c p now
  rwa [← hadv] at this

/-- Any number of steps keeps the record. -/
theorem SetupRecorded.run (h : SetupRecorded s) (hrun : Relation.ReflTransGen StepsTo s s') :
    SetupRecorded s' := by
  induction hrun with
  | refl => exact h
  | tail _ hstep ih => exact ih.stepsTo hstep

/-- On such a signal only the diagnostics are lost. -/
theorem SetupRecorded.storedForm_eq (h : SetupRecorded s) :
    storedForm s = s.rounded.undiagnosed := by
  have hself : ∀ n : ℤ, pyOr (some n) n = n := fun n => ite_self n
  unfold storedForm
  rw [h.openAt_eq, h.closeAt_eq, hself, hself]
  unfold TradeSignal.rounded TradeSignal.undiagnosed
  rw [h.openAt_eq, h.closeAt_eq]

theorem SetupRecorded.undiagnosed_ne (h : SetupRecorded s) :
    s.rounded.undiagnosed ≠ s.rounded :=
  fun heq => h.closePrice_ne (congrArg TradeSignal.candleClosePrice heq).symm

section BuiltSignals

variable {symbol : String} {htfInterval ltfInterval : Interval} {htfRange : HtfRange}
  {rejection : RejectionCandle} {signalId : SignalId} {p : AssetProfile} {broker : String}
  {liveBid liveAsk : Option ℚ}

theorem setupRecorded_buildSignal
    (hb : buildSignal symbol htfInterval ltfInterval htfRange rejection signalId p broker
      liveBid liveAsk = some s) : SetupRecorded s := by
  unfold buildSignal at hb
  dsimp only at hb
  repeat' split at hb
  all_goals first
    | cases hb
      done
    | cases hb
      exact ⟨rfl, rfl, Option.some_ne_none _⟩

/-- **The round trip.** A built signal, however far it has been stepped, comes back rounded and
    without its pricing diagnostics, from the dict and from the store; it never comes back as
    the rounded trade. -/
theorem roundTrip_loses_diagnostics
    (hb : buildSignal symbol htfInterval ltfInterval htfRange rejection signalId p broker
      liveBid liveAsk = some s)
    (hrun : Relation.ReflTransGen StepsTo s s') :
    TradeSignal.fromDict s'.toWireDict = .ok s'.rounded.undiagnosed ∧
      (∀ (t : Tables) (nowMs : ℤ),
        (t.upsertOpen s' nowMs).getOpen s'.id = some s'.rounded.undiagnosed) ∧
      TradeSignal.fromDict s'.toWireDict ≠ .ok s'.rounded := by
  have hsetup := (setupRecorded_buildSignal hb).run hrun
  have hback := fromDict_toDict s'
  rw [hsetup.storedForm_eq] at hback
  refine ⟨hback, fun t nowMs => ?_, ?_⟩
  · rw [getOpen_upsertOpen, hsetup.storedForm_eq]
  · rw [hback]
    exact fun h => hsetup.undiagnosed_ne (Except.ok.inj h)

end BuiltSignals

/-- The sample trade just built: its close price is gone. -/
theorem sampleSignal_loses_closePrice :
    sampleSignal.candleClosePrice = some 106 ∧
      TradeSignal.fromDict sampleSignal.toWireDict ≠ .ok sampleSignal.rounded := by
  refine ⟨rfl, fun h => ?_⟩
  rw [fromDict_toDict] at h
  cases congrArg TradeSignal.candleClosePrice (Except.ok.inj h)

/-- The theorem at the sample trade. -/
theorem roundTrip_sampleSignal :
    TradeSignal.fromDict sampleSignal.toWireDict = .ok sampleSignal.rounded.undiagnosed :=
  (roundTrip_loses_diagnostics sampleSignal_built Relation.ReflTransGen.refl).1

end SignalEngine
