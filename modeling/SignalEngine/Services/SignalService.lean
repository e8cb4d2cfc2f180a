/-
  SignalService: `app/services/signal_service.py`, its pipeline and its watchlist.

  Model. The fetches are the only points where a call of the service gives way to others, and
  after its last fetch each of `_analyze_pair` and `_fetch_and_evaluate` runs to its end:
  `analyzePair` and `evaluateGroup` are these blocks. What a block reads from outside
  (candles, clocks, ticks, records reloaded at a rollover) is its input. The store call of
  number `n` raises when `raises n`; `calls` logs every call with whether it took effect. The
  JSON and CSV writers of `record_outcome` swallow what they raise and are read by nothing
  here but the reloaded records. Metrics, log lines and the caches of the query methods are
  left out.
-/
import SignalEngine.Domain.Entry
import SignalEngine.Domain.Market
import SignalEngine.Engine.CandleFeed
import SignalEngine.Engine.Lifecycle
import SignalEngine.Persistence.Store
import SignalEngine.Session.Coordinator

namespace SignalEngine

open Lib

/-! ## State -/

/-- `_PendingKey`. -/
structure PendingKey where
  symbol : String
  htfInterval : Interval
  ltfInterval : Interval
  htfTs : ℤ
  direction : SignalDirection
  deriving DecidableEq, Repr

/-- What the listeners are told. -/
inductive ServiceEvent where
  | pending (key : PendingKey) (zone : HtfRange) (pendingAt : ℤ)
  | triggered (s : TradeSignal)
  | updated (event : SignalEvent) (previousStatus : SignalStatus) (price : Option ℚ)
      (s : TradeSignal)
  deriving DecidableEq, Repr

structure Service where
  coordinator : Coordinator
  watchlist : List TradeSignal := []
  pendingEmitted : List (PendingKey × ℤ) := []
  calls : List (StoreOp × Bool) := []
  events : List ServiceEvent := []

inductive ServiceError where
  | candle (e : CandleError)
  | keyError (status : SignalStatus)
  | assertionError (id : SignalId)
  | attributeError
  | coordinator (e : CoordinatorError)
  deriving DecidableEq, Repr

/-- The tables once the calls of a log are done. -/
def tablesAfter (t : Tables) (calls : List (StoreOp × Bool)) : Tables :=
  calls.foldl (fun t call => if call.2 then call.1.apply t else t) t

/-- A store call in its `try`. -/
def Service.tryStore (raises : ℕ → Bool) (st : Service) (op : StoreOp) : Service :=
  { st with calls := st.calls ++ [(op, !raises st.calls.length)] }

/-- `_emit`. -/
def Service.emit (st : Service) (e : ServiceEvent) : Service :=
  { st with events := st.events ++ [e] }

/-! ## Restoring -/

/-- The lock a signal holds. -/
def lockKey (cfg : Settings) (s : TradeSignal) : DirKey :=
  dirKey cfg.multiTfIndependentPositions s.symbol s.direction s.htfInterval s.ltfInterval

/-- What `register_signal` is told about a stored signal. -/
def setupOf (s : TradeSignal) : Setup :=
  ⟨s.symbol, s.direction, s.htfRange, s.rejectionCandle, s.htfInterval, s.ltfInterval⟩

/-- The rows `initialize` takes up again: open and not older than the expiry. -/
def restorable (cfg : Settings) (nowMs : ℤ) (s : TradeSignal) : Bool :=
  s.status.isOpen && !decide (cfg.signalExpiryHours * msPerHour < ((nowMs - s.createdAt : ℤ) : ℚ))

/-- `signal.zone_attempt = attempt`. -/
def TradeSignal.withAttempt (s : TradeSignal) (attempt : ℕ) : TradeSignal :=
  { s with zoneAttempt := attempt }

def Service.restore (cfg : Settings) (nowMs : ℤ) (st : Service) (s : TradeSignal) : Service :=
  if restorable cfg nowMs s then
    let r := st.coordinator.registerSignal cfg (setupOf s)
    { st with
      coordinator := r.1
      watchlist := put TradeSignal.id (s.withAttempt r.2) st.watchlist }
  else st

/-- The row loop of the service's start. -/
def Service.initializeRows (cfg : Settings) (nowMs : ℤ) (rows : List TradeSignal) (st : Service) :
    Service :=
  rows.foldl (Service.restore cfg nowMs) st

/-! ## Analysis -/

/-- `xs[-n:]`. -/
def lastBars {α : Type} (n : ℤ) (xs : List α) : List α :=
  if 0 < n then xs.drop (xs.length - n.toNat) else xs.drop (-n).toNat

/-- What one analysis of a pair reads from outside; clocks and ticks are read zone by zone. -/
structure PairInputs where
  htfFull : List Candle
  fetchLtf : FetchRange
  realNow : HtfRange → ℤ
  detectedAt : HtfRange → ℤ
  streakNow : HtfRange → ℤ
  tick : HtfRange → Option ℚ × Option ℚ
  load : ℤ → List ClosedSignalRecord

/-- What the zone loop of `_analyze_pair` works on. -/
structure PairView where
  symbol : String
  htfInterval : Interval
  ltfInterval : Interval
  profile : AssetProfile
  pairFiredAt : ℤ
  ltfAll : List Candle
  hi : ℕ
  bias : Option StructureResult
  zones : List HtfRange

/-- `_analyze_pair` up to its zones; `none` is one of its early returns, or the `IndexError`
    of `htf[0]`. -/
def pairView (cfg : Settings) (p : AssetProfile) (symbol : String)
    (htfInterval ltfInterval : Interval) (analysisClose : ℤ) (io : PairInputs) :
    Option PairView :=
  if analysisClose % intervalMs ltfInterval ≠ 0 then none
  else if io.htfFull.length < 10 then none
  else
    let htfVisible :=
      io.htfFull.filter (fun c => decide (c.timestamp ≤ analysisClose - intervalMs htfInterval))
    if htfVisible.length < 10 then none
    else
      match lastBars p.htfLookback htfVisible with
      | [] => none
      | first :: rest =>
          let pairFiredAt := pairCurrentTs ltfInterval analysisClose
          let ltfAll := io.fetchLtf first.timestamp analysisClose
          let hi := bisectRight Candle.timestamp ltfAll pairFiredAt
          let bias :=
            if p.useTrendFilter then some (detectStructure (first :: rest) pivotBars) else none
          let zones := findHtfRanges (first :: rest) pivotBars (intervalMs htfInterval)
            cfg.maxHtfZonesPerDir
          if (ltfAll.take hi).length < 10 then none
          else if bias.any (fun b => decide (b.bias = .neutral)) then none
          else
            some
              { symbol := symbol
                htfInterval := htfInterval
                ltfInterval := ltfInterval
                profile := p
                pairFiredAt := pairFiredAt
                ltfAll := ltfAll
                hi := hi
                bias := bias
                zones :=
                  if cfg.useDisplacementFilter then
                    zones.filter (fun z =>
                      detectDisplacement htfVisible z.brokenAt cfg.displacementAtrPeriod
                        (cfg.displacementMultFor htfInterval ltfInterval))
                  else zones }

def PairView.pendingKey (v : PairView) (z : HtfRange) : PendingKey :=
  ⟨v.symbol, v.htfInterval, v.ltfInterval, z.timestamp, z.signalDirection⟩

def PairView.setup (v : PairView) (z : HtfRange) (rejection : RejectionCandle) : Setup :=
  ⟨v.symbol, z.signalDirection, z, rejection, v.htfInterval, v.ltfInterval⟩

def PairView.signalId (v : PairView) (z : HtfRange) (rejection : RejectionCandle) : SignalId :=
  ⟨v.symbol, v.htfInterval, v.ltfInterval, rejection.timestamp, z.signalDirection⟩

/-- `ltf_zone`. -/
def PairView.ltfZone (v : PairView) (z : HtfRange) : List Candle :=
  (v.ltfAll.take v.hi).drop (bisectLeft Candle.timestamp v.ltfAll z.zoneStart)

/-- A zone is announced as pending once. -/
def Service.notePending (v : PairView) (z : HtfRange) (st : Service) : Service :=
  if v.pendingKey z ∈ keys Prod.fst st.pendingEmitted then st
  else
    { st with
      pendingEmitted := st.pendingEmitted ++ [(v.pendingKey z, z.zoneStart)]
      events := st.events ++ [.pending (v.pendingKey z) z v.pairFiredAt] }

inductive ZoneOutcome where
  | skip
  | fail (e : ServiceError)
  | emitted (s : TradeSignal)
  deriving DecidableEq, Repr

/-- A built signal as `_analyze_pair` hands it on. -/
def emittedSignal (v : PairView) (io : PairInputs) (z : HtfRange) (rejection : RejectionCandle)
    (attempt : ℕ) (s : TradeSignal) : TradeSignal :=
  { s with
    setupCandleOpenAt := some rejection.timestamp
    setupCandleCloseAt := some (rejection.timestamp + intervalMs v.ltfInterval)
    detectedAt := some (io.detectedAt z)
    emittedAt := some (io.detectedAt z)
    zoneAttempt := attempt }

/-- The rest of the zone's turn once `should_emit` has allowed it. -/
def Service.emitSetup (cfg : Settings) (raises : ℕ → Bool) (v : PairView) (io : PairInputs)
    (z : HtfRange) (rejection : RejectionCandle) (st : Service) : Service × ZoneOutcome :=
  if v.signalId z rejection ∈ keys TradeSignal.id st.watchlist then (st, .skip)
  else
    match (evaluateSetup v.symbol v.htfInterval v.ltfInterval z rejection
        (v.signalId z rejection) v.profile cfg.mt5Profile none (io.tick z).1
        (io.tick z).2).signal with
    | none => (st, .skip)
    | some built =>
        let r := st.coordinator.registerSignal cfg (v.setup z rejection)
        let s := emittedSignal v io z rejection r.2 built
        let st :=
          { st with
            coordinator := r.1
            pendingEmitted := erase Prod.fst (v.pendingKey z) st.pendingEmitted
            watchlist := put TradeSignal.id s st.watchlist }
        ((st.tryStore raises (.upsertOpen s v.pairFiredAt)).emit (.triggered s), .emitted s)

/-- One zone of the loop. -/
def Service.analyzeZone (cfg : Settings) (raises : ℕ → Bool) (v : PairView) (io : PairInputs)
    (st : Service) (z : HtfRange) : Service × ZoneOutcome :=
  if v.bias.any (fun b => !b.allows z.signalDirection) then (st, .skip)
  else
    let st := st.notePending v z
    match findEntry (v.ltfZone z) z.signalDirection z with
    | none => (st, .skip)
    | some (rejection, _) =>
        if cfg.maxEmitLagMs <
            io.realNow z - (rejection.timestamp + intervalMs v.ltfInterval) then (st, .skip)
        else
          match st.coordinator.shouldEmit cfg (v.setup z rejection) v.pairFiredAt io.load
              (io.streakNow z) with
          | (c, .error e) => ({ st with coordinator := c }, .fail (.coordinator e))
          | (c, .ok (some _)) => ({ st with coordinator := c }, .skip)
          | (c, .ok none) =>
              Service.emitSetup cfg raises v io z rejection { st with coordinator := c }

/-- The zone loop: one signal for each pair and call. -/
def Service.analyzeZones (cfg : Settings) (raises : ℕ → Bool) (v : PairView) (io : PairInputs)
    (st : Service) : List HtfRange → Service × Except ServiceError (List TradeSignal)
  | [] => (st, .ok [])
  | z :: zs =>
      match st.analyzeZone cfg raises v io z with
      | (st, .skip) => st.analyzeZones cfg raises v io zs
      | (st, .fail e) => (st, .error e)
      | (st, .emitted s) => (st, .ok [s])

/-- `_pending_emitted` without what was announced an expiry ago. -/
def Service.evictPending (cfg : Settings) (pairFiredAt : ℤ) (st : Service) : Service :=
  { st with
    pendingEmitted := st.pendingEmitted.filter (fun e =>
      decide (pairFiredAt - pyInt (cfg.signalExpiryHours * msPerHour) < e.2)) }

/-- `_analyze_pair`. -/
def Service.analyzePair (cfg : Settings) (profileOf : String → Interval → Interval → AssetProfile)
    (raises : ℕ → Bool) (symbol : String) (htfInterval ltfInterval : Interval) (firedAt : ℤ)
    (io : PairInputs) (st : Service) : Service × Except ServiceError (List TradeSignal) :=
  match pairView cfg (profileOf symbol htfInterval ltfInterval) symbol htfInterval ltfInterval
      firedAt io with
  | none => (st, .ok [])
  | some v => (st.evictPending cfg v.pairFiredAt).analyzeZones cfg raises v io v.zones

/-! ## Watchlist -/

/-- The record `_close_signal` builds; `closed_at` is set by every terminal step. -/
def closedRecord (s : TradeSignal) (outcome : SignalOutcome) (realizedRr : ℚ) :
    ClosedSignalRecord where
  signalId := s.id
  symbol := s.symbol
  direction := s.direction
  outcome := outcome
  realizedRr := realizedRr
  closedAt := s.closedAt.getD 0
  htfTs := s.htfRange.timestamp
  rejTs := s.rejectionCandle.timestamp
  entryTs := pyOr s.triggeredAt s.createdAt
  entry := s.entryPrice
  sl := s.stopLoss
  tp1 := s.tp1
  tp2 := s.tp2
  rr := s.riskRewardRatio
  wickRatio := s.rejectionCandle.wickRatio
  pattern := some s.rejectionCandle.pattern
  htfInterval := s.htfInterval
  ltfInterval := s.ltfInterval
  zoneAttempt := s.zoneAttempt
  htfHigh := s.htfRange.rangeHigh
  htfLow := s.htfRange.rangeLow
  tpLevel := s.htfRange.tpLevel

/-- `record_outcome`. -/
def Service.recordOutcome (cfg : Settings) (raises : ℕ → Bool) (rec : ClosedSignalRecord)
    (nowMs : ℤ) (st : Service) : Service × Option ServiceError :=
  let c := st.coordinator.closeRecord cfg rec
  let st := Service.tryStore raises { st with coordinator := c } (.insertClosed rec c.sessionDay)
  match c.applyStreak cfg nowMs with
  | (c, e) => ({ st with coordinator := c }, e.map .coordinator)

/-- `_close_signal`. -/
def Service.closeSignal (cfg : Settings) (raises : ℕ → Bool) (s : TradeSignal)
    (event : SignalEvent) (prev : SignalStatus) (nowMs : ℤ) (st : Service) :
    Service × Option ServiceError :=
  match s.realizedRr with
  | none => (st, some (.assertionError s.id))
  | some realizedRr =>
      let st := { st with watchlist := erase TradeSignal.id s.id st.watchlist }
      let st := st.tryStore raises (.deleteOpen s.id)
      match s.outcome with
      | none => (st, some .attributeError)
      | some outcome =>
          match st.recordOutcome cfg raises (closedRecord s outcome realizedRr) nowMs with
          | (st, some e) => (st, some e)
          | (st, none) => (st.emit (.updated event prev s.closePrice s), none)

/-- The watchlist holds the object that a step has just changed; TP1 is announced. -/
def Service.noteStep (s s' : TradeSignal) (c : Candle) (step : StepOutcome) (st : Service) :
    Service :=
  let st := { st with watchlist := overwrite TradeSignal.id s' st.watchlist }
  if step.emitTp1 then st.emit (.updated .signalTp1Hit s.status (some c.close) s') else st

/-- `_evaluate_signal`, with the signal as it leaves it. -/
def Service.evaluateSignal (cfg : Settings) (p : AssetProfile) (raises : ℕ → Bool)
    (clock : SignalId → ℤ) (st : Service) (s : TradeSignal) (c : Candle) :
    Service × Except ServiceError TradeSignal :=
  match stepSignalState s c p c.timestamp with
  | .error e => (st, .error (.candle e))
  | .ok (s', step) =>
      let st := st.noteStep s s' c step
      let prev := if step.emitTp1 then .tp1Hit else s.status
      if step.terminal then
        match statusToCloseEvent s'.status with
        | none => (st, .error (.keyError s'.status))
        | some event =>
            match st.closeSignal cfg raises s' event prev (clock s'.id) with
            | (st, some e) => (st, .error e)
            | (st, none) => (st, .ok s')
      else if step.emitTp1 then (st.tryStore raises (.upsertOpen s' c.timestamp), .ok s')
      else (st, .ok s')

/-- The candle loop of one signal. -/
def Service.evaluateCandles (cfg : Settings) (p : AssetProfile) (raises : ℕ → Bool)
    (clock : SignalId → ℤ) (st : Service) (s : TradeSignal) :
    List Candle → Service × Option ServiceError
  | [] => (st, none)
  | c :: cs =>
      match st.evaluateSignal cfg p raises clock s c with
      | (st, .error e) => (st, some e)
      | (st, .ok s') =>
          if s'.status.isOpen then st.evaluateCandles cfg p raises clock s' cs else (st, none)

/-- The signal loop of `_fetch_and_evaluate`; an exception ends it for the whole group. -/
def Service.evaluateSignals (cfg : Settings)
    (profileOf : String → Interval → Interval → AssetProfile) (raises : ℕ → Bool)
    (clock : SignalId → ℤ) (candles : List Candle) (st : Service) :
    List TradeSignal → Service × Option ServiceError
  | [] => (st, none)
  | s :: rest =>
      match st.evaluateCandles cfg (profileOf s.symbol s.htfInterval s.ltfInterval) raises clock s
          (newerCandles s candles) with
      | (st, some e) => (st, some e)
      | (st, none) => st.evaluateSignals cfg profileOf raises clock candles rest

/-- The signals of one `by_ltf` group. -/
def Service.group (symbol : String) (ltfInterval : Interval) (st : Service) : List TradeSignal :=
  st.watchlist.filter (fun s => decide (s.symbol = symbol ∧ s.ltfInterval = ltfInterval))

/-- `_fetch_and_evaluate` of `update_watchlist`. A symbol's ticks follow one another, so the
    group is what the watchlist holds of it. -/
def Service.evaluateGroup (cfg : Settings)
    (profileOf : String → Interval → Interval → AssetProfile) (raises : ℕ → Bool)
    (clock : SignalId → ℤ) (symbol : String) (ltfInterval : Interval) (fetch : FetchRange)
    (now : ℤ) (st : Service) : Service × Option ServiceError :=
  match ((st.group symbol ltfInterval).map TradeSignal.createdAt).min? with
  | none => (st, none)
  | some oldestTs =>
      let candles := fetchedClosed fetch ltfInterval oldestTs now
      if candles.length < 2 then (st, none)
      else
        st.evaluateSignals cfg profileOf raises clock candles (st.group symbol ltfInterval)

/-! ## Runs -/

/-- Two of the signals are one exactly when they hold the same lock. -/
def OnePerLock (cfg : Settings) (signals : List TradeSignal) : Prop :=
  ∀ a ∈ signals, ∀ b ∈ signals, lockKey cfg a = lockKey cfg b ↔ a.id = b.id

instance (cfg : Settings) (signals : List TradeSignal) : Decidable (OnePerLock cfg signals) :=
  inferInstanceAs
    (Decidable (∀ a ∈ signals, ∀ b ∈ signals, lockKey cfg a = lockKey cfg b ↔ a.id = b.id))

/-- One operation. A call of `analyze` is one `analyzePair` for each pair, a call of
    `update_watchlist` one `evaluateGroup` for each LTF, in any order and with any other
    operation between them. -/
inductive ServiceStep (cfg : Settings)
    (profileOf : String → Interval → Interval → AssetProfile) (raises : ℕ → Bool)
    (st : Service) : Service → Prop
  | initializeRows (nowMs : ℤ) (rows : List TradeSignal) :
      OnePerLock cfg (rows.filter (restorable cfg nowMs) ++ st.watchlist) →
      ServiceStep cfg profileOf raises st (st.initializeRows cfg nowMs rows)
  | analyzePair (symbol : String) (htfInterval ltfInterval : Interval) (firedAt : ℤ)
      (io : PairInputs) :
      ServiceStep cfg profileOf raises st
        (st.analyzePair cfg profileOf raises symbol htfInterval ltfInterval firedAt io).1
  | evaluateGroup (clock : SignalId → ℤ) (symbol : String) (ltfInterval : Interval)
      (fetch : FetchRange) (now : ℤ) :
      ServiceStep cfg profileOf raises st
        (st.evaluateGroup cfg profileOf raises clock symbol ltfInterval fetch now).1
  | rollover (now : ℤ) (load : ℤ → List ClosedSignalRecord) (nowMs : ℤ) :
      ServiceStep cfg profileOf raises st
        { st with coordinator := (st.coordinator.maybeRollover cfg now load nowMs).1 }

/-- The states of the runs of a new process. -/
inductive ServiceReach (cfg : Settings)
    (profileOf : String → Interval → Interval → AssetProfile) (raises : ℕ → Bool) :
    Service → Prop
  | start (nowMs : ℤ) (records closed : List ClosedSignalRecord) :
      (Coordinator.start cfg nowMs records closed).2 = none →
      ServiceReach cfg profileOf raises
        { coordinator := (Coordinator.start cfg nowMs records closed).1 }
  | step {st st' : Service} : ServiceReach cfg profileOf raises st →
      ServiceStep cfg profileOf raises st st' → ServiceReach cfg profileOf raises st'

end SignalEngine
