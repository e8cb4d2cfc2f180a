/-
  ActiveZones: the pending zones as `MetricsCollector` sees them.

  Model. A payload is a dict on the keys of `to_dict` and the two that `on_signal_event` looks for
  besides (`EventDict`); a nested signal stands apart. `_emit` hands every event of the service to
  `on_signal_event`, whose bare except ends the handling: a step that raises gives `none` and
  leaves what was done before it. Counters and gauges have their names as constructors. SQLite does
  not fail, and the clock does not read 0. `signal_broadcast_done` is left out: nothing calls it.

  `signal.pending` comes without the key `ltfTimestamp`, so no zone is ever entered, and the gauge
  stays at 0. Were one entered, `signal.triggered` would not take it out: `to_dict` has neither
  `ltfTimestamp` nor `ltfRange`, and the removal is that of the timestamp 0.

  Proved: `active_zones_iff`, for every run of events, clock ticks and restarts: the collector
  tracks the pending zones exactly in the states where there are none, and throughout a run
  exactly when no zone is announced in it.
-/
import SignalEngine.Persistence.WireFormat
import SignalEngine.Services.Pending

namespace SignalEngine

open Lib

/-! ## Payloads -/

inductive EventKey where
  | wire (key : WireKey)
  | ltfTimestamp
  | ltfRange
  deriving DecidableEq, Repr

abbrev EventDict := EventKey → Option WireValue

/-- A dict of `to_dict`: it has neither of the two keys. -/
def WireDict.toEventDict (d : WireDict) : EventDict
  | .wire key => d key
  | .ltfTimestamp => none
  | .ltfRange => none

/-- `signal` is the dict at the key "signal". -/
structure EventPayload where
  dict : EventDict
  signal : Option EventDict := none

/-- `HtfRangePendingPayload`. -/
def HtfRange.pendingPayload (z : HtfRange) : WireDict
  | .rangeHigh => some (.num z.rangeHigh)
  | .rangeLow => some (.num z.rangeLow)
  | .bosDirection => some (.str z.bosDirection.value)
  | .timestamp => some (.int z.timestamp)
  | .htfCandleOpen => some (.int z.htfCandleOpen)
  | .htfCandleClose => some (.int z.htfCandleClose)
  | .brokenAt => some (.int z.brokenAt)
  | .tpLevel => some (.num z.tpLevel)
  | _ => none

/-- `SignalPendingPayload` as `_analyze_pair` fills it; its `broker` is not set. -/
def signalPendingPayload (key : PendingKey) (zone : HtfRange) (pendingAt : ℤ) : WireDict
  | .symbol => some (.str key.symbol)
  | .direction => some (.str key.direction.value)
  | .status => some (.str "PENDING")
  | .htfRange => some (.dict zone.pendingPayload)
  | .pendingAt => some (.int pendingAt)
  | .htfInterval => some (.interval key.htfInterval)
  | .ltfInterval => some (.interval key.ltfInterval)
  | _ => none

/-- The keys of `_update_payload` that `to_dict` has too. -/
def TradeSignal.updatePayload (s : TradeSignal) : WireDict
  | .symbol => some (.str s.symbol)
  | .outcome => some (.ofText? (s.outcome.map SignalOutcome.value))
  | .realizedRR => some (.ofNum? s.realizedRr)
  | .timestamp => some (.int (pyOr s.closedAt s.createdAt))
  | _ => none

def ServiceEvent.event : ServiceEvent → SignalEvent
  | .pending _ _ _ => .signalPending
  | .triggered _ => .signalTriggered
  | .updated event _ _ _ => event

def ServiceEvent.payload : ServiceEvent → EventPayload
  | .pending key zone pendingAt => { dict := (signalPendingPayload key zone pendingAt).toEventDict }
  | .triggered s => { dict := s.toWireDict.toEventDict }
  | .updated _ _ _ s =>
      { dict := s.updatePayload.toEventDict, signal := some s.toWireDict.toEventDict }

namespace EventDict

variable {α : Type} (d : EventDict) (key : EventKey) (read : WireValue → Except WireError α)

/-- `d[key]`. -/
def item : Option α := (d key).bind fun v => (read v).toOption

/-- `d.get(key, default)`. -/
def getOr (default : α) : Option α :=
  match d key with
  | none => some default
  | some v => (read v).toOption

/-- `d.get(key, "")` at a key of intervals; no interval is the empty string. -/
def getInterval : Option (Option Interval) :=
  d.getOr key (fun v => v.toInterval.map some) none

/-- `(sig.get("ltfRange") or {}).get("timestamp", 0)`. -/
def ltfRangeTimestamp : Option ℤ :=
  match d .ltfRange with
  | none => some 0
  | some .null => some 0
  | some (.dict range) => (WireDict.toEventDict range).getOr (.wire .timestamp) WireValue.toInt 0
  | some _ => none

/-- `ltf_ts`. -/
def ltfTs : Option ℤ :=
  match d .ltfTimestamp with
  | none => d.ltfRangeTimestamp
  | some .null => d.ltfRangeTimestamp
  | some v => v.toInt.toOption.bind fun ts => if ts ≠ 0 then some ts else d.ltfRangeTimestamp

end EventDict

/-! ## The collector -/

/-- A zone dict of `upsert_active_zone`. -/
structure ActiveZone where
  symbol : String
  direction : String
  ltfTimestamp : ℤ
  pendingAt : ℤ
  htfRange : WireDict
  ltfRange : WireDict
  htfInterval : Option Interval
  ltfInterval : Option Interval

structure ActiveZoneKey where
  symbol : String
  direction : String
  htfInterval : Option Interval
  ltfInterval : Option Interval
  ltfTimestamp : ℤ
  deriving DecidableEq, Repr

def ActiveZone.key (z : ActiveZone) : ActiveZoneKey :=
  ⟨z.symbol, z.direction, z.htfInterval, z.ltfInterval, z.ltfTimestamp⟩

/-- A record of `_pending_latency`. -/
structure LatencyRecord where
  symbol : Option String := none
  firedAt : Option ℤ := none
  analyzeStartMs : Option ℤ := none
  schedulerLagMs : Option ℤ := none
  rejectionFoundMs : Option ℤ := none
  signalId : Option SignalId := none
  tfPair : Option String := none
  emitMs : Option ℤ := none
  analyzeDurationMs : Option ℤ := none
  deriving DecidableEq, Repr

inductive CounterName where
  | events (event : SignalEvent)
  | signalsPending
  | signalsTriggered
  | signalsInvalidated
  | signalsExpired
  | signalsSlHit
  | signalsTp2Hit
  | scannerAnalysisStarted
  | signalsRejectionsFound
  | signalsEmitted
  deriving DecidableEq, Repr

inductive GaugeName where
  | signalsActiveZones
  | observabilityPendingLatency
  | observabilityActiveZones
  | scannerSchedulerLagMs
  | scannerSymbolSchedulerLagMs (symbol : String)
  | latencyAnalysisToEmitMs
  | signalsLastEmittedAt
  deriving DecidableEq, Repr

/-- `MetricsCollector`; the last two fields are its SQLite tables. -/
structure MetricsCollector where
  activeZones : List ActiveZone := []
  pendingLatency : List (String × LatencyRecord) := []
  pendingBySignalId : List (SignalId × String) := []
  lastCachePruneMs : ℤ := 0
  counters : CounterName → ℤ := fun _ => 0
  gauges : GaugeName → Option ℚ := fun _ => none
  metricsCounters : CounterName → ℤ := fun _ => 0
  metricsGauges : GaugeName → Option ℚ := fun _ => none

def obsCacheTtlMs : ℤ := 24 * 3600000

def latencyKey (symbol : String) (firedAt : ℤ) : String := s!"{symbol}_{firedAt}"

/-- What `_prune_observation_caches_locked` takes for the age of a record. -/
def LatencyRecord.since (r : LatencyRecord) : ℤ := pyOr r.firedAt (pyOr r.analyzeStartMs 0)

def ActiveZone.since (z : ActiveZone) : ℤ := pyOr (some z.pendingAt) z.ltfTimestamp

namespace MetricsCollector

variable (m : MetricsCollector)

def increment (name : CounterName) : MetricsCollector :=
  { m with counters := Function.update m.counters name (m.counters name + 1) }

def setGauge (name : GaugeName) (value : ℚ) : MetricsCollector :=
  { m with gauges := Function.update m.gauges name (some value) }

def gauge (name : GaugeName) : ℚ := (m.gauges name).getD 0

/-- The assignment that ends every change of `_active_zones`. -/
def countZones : MetricsCollector := m.setGauge .signalsActiveZones m.activeZones.length

/-- `_prune_observation_caches_locked`. -/
def prune (now : ℤ) : MetricsCollector :=
  if now - m.lastCachePruneMs < 60000 then m
  else
    let cutoff := now - obsCacheTtlMs
    let stale := m.pendingLatency.filter fun e => decide (e.2.since < cutoff)
    let m := { m with
      lastCachePruneMs := now
      pendingLatency := m.pendingLatency.filter fun e => decide (cutoff ≤ e.2.since)
      pendingBySignalId := m.pendingBySignalId.filter fun e =>
        stale.all fun r => decide (r.2.signalId ≠ some e.1)
      activeZones := m.activeZones.filter fun z => decide (cutoff ≤ z.since) }
    (m.countZones.setGauge .observabilityPendingLatency m.pendingLatency.length).setGauge
      .observabilityActiveZones m.activeZones.length

def upsertActiveZone (zone : ActiveZone) (now : ℤ) : MetricsCollector :=
  let m := m.prune now
  { m with activeZones := put ActiveZone.key zone m.activeZones }.countZones

def removeActiveZone (symbol direction : String) (ltfTimestamp : ℤ)
    (htfInterval ltfInterval : Option Interval) : MetricsCollector :=
  let left :=
    if htfInterval.isSome ∨ ltfInterval.isSome then
      erase ActiveZone.key ⟨symbol, direction, htfInterval, ltfInterval, ltfTimestamp⟩
        m.activeZones
    else
      m.activeZones.filter fun z =>
        decide (¬ (z.symbol = symbol ∧ z.direction = direction ∧ z.ltfTimestamp = ltfTimestamp))
  { m with activeZones := left }.countZones

end MetricsCollector

/-- The dict literal of `on_signal_event`; `none` is its KeyError. -/
def activeZoneOf (payload : EventDict) : Option ActiveZone := do
  return {
    symbol := ← payload.item (.wire .symbol) WireValue.toText
    direction := ← payload.item (.wire .direction) WireValue.toText
    ltfTimestamp := ← payload.item .ltfTimestamp WireValue.toInt
    pendingAt := ← payload.item (.wire .pendingAt) WireValue.toInt
    htfRange := ← payload.item (.wire .htfRange) WireValue.toDict
    ltfRange := ← payload.item .ltfRange WireValue.toDict
    htfInterval := some (← payload.item (.wire .htfInterval) WireValue.toInterval)
    ltfInterval := some (← payload.item (.wire .ltfInterval) WireValue.toInterval) }

namespace MetricsCollector

variable (m : MetricsCollector)

/-- The end of the removal branch; `none` is a value of the wrong type. -/
def removeFor (sig : EventDict) : Option MetricsCollector := do
  let ltfTs ← sig.ltfTs
  return m.removeActiveZone
    (← sig.getOr (.wire .symbol) WireValue.toText "")
    (← sig.getOr (.wire .direction) WireValue.toText "")
    ltfTs
    (← sig.getInterval (.wire .htfInterval))
    (← sig.getInterval (.wire .ltfInterval))

/-- The removal branch of `on_signal_event` under the counter of its event. A dict of `to_dict` is
    never empty, hence true. -/
def onSignalClosed (name : CounterName) (payload : EventPayload) : MetricsCollector :=
  let m := m.increment name
  (m.removeFor (payload.signal.getD payload.dict)).getD m

def onSignalEvent (event : SignalEvent) (payload : EventPayload) (now : ℤ) : MetricsCollector :=
  let m := m.increment (.events event)
  match event with
  | .signalPending =>
      let m := m.increment .signalsPending
      ((activeZoneOf payload.dict).map fun zone => m.upsertActiveZone zone now).getD m
  | .signalTriggered => m.onSignalClosed .signalsTriggered payload
  | .signalInvalidated => m.onSignalClosed .signalsInvalidated payload
  | .signalExpired => m.onSignalClosed .signalsExpired payload
  | .signalSlHit => m.onSignalClosed .signalsSlHit payload
  | .signalTp2Hit => m.onSignalClosed .signalsTp2Hit payload
  | .signalTp1Hit => m
  | .signalUpdated => m

/-! ## Its other callers -/

/-- `_pending_latency.get(key, {})`. -/
def latencyAt (key : String) : LatencyRecord :=
  ((lookup Prod.fst key m.pendingLatency).map Prod.snd).getD {}

def signalAnalyzeStart (symbol : String) (firedAt now : ℤ) : MetricsCollector :=
  let m := m.prune now
  let record : LatencyRecord := {
    symbol := some symbol
    firedAt := some firedAt
    analyzeStartMs := some now
    schedulerLagMs := some (now - firedAt) }
  ((({ m with
    pendingLatency := put Prod.fst (latencyKey symbol firedAt, record) m.pendingLatency }.increment
      .scannerAnalysisStarted).setGauge .scannerSchedulerLagMs (now - firedAt : ℤ)).setGauge
        (.scannerSymbolSchedulerLagMs symbol) (now - firedAt : ℤ))

def signalRejectionFound (symbol : String) (firedAt now : ℤ) : MetricsCollector :=
  let key := latencyKey symbol firedAt
  { m with
    pendingLatency := overwrite Prod.fst
      (key, { m.latencyAt key with rejectionFoundMs := some now }) m.pendingLatency }.increment
        .signalsRejectionsFound

def signalEmitted (id : SignalId) (symbol : String) (firedAt : ℤ) (tfPair : String) (now : ℤ) :
    MetricsCollector :=
  let key := latencyKey symbol firedAt
  let start := (m.latencyAt key).analyzeStartMs.getD now
  let record : LatencyRecord := { m.latencyAt key with
    signalId := some id
    tfPair := some tfPair
    emitMs := some now
    analyzeDurationMs := some (now - start) }
  (({ m with
    pendingLatency := put Prod.fst (key, record) m.pendingLatency
    pendingBySignalId := put Prod.fst (id, key) m.pendingBySignalId }.increment
      .signalsEmitted).setGauge .latencyAnalysisToEmitMs (now - start : ℤ)).setGauge
        .signalsLastEmittedAt now

def flushMetrics : MetricsCollector :=
  { m with
    metricsCounters := m.counters
    metricsGauges := fun name => (m.gauges name).orElse fun _ => m.metricsGauges name }

/-- `__init__` on the tables an earlier process has left. -/
def restarted : MetricsCollector where
  counters := m.metricsCounters
  gauges := m.metricsGauges
  metricsCounters := m.metricsCounters
  metricsGauges := m.metricsGauges

end MetricsCollector

/-! ## Runs -/

inductive MetricsCall where
  | signal (e : ServiceEvent) (now : ℤ)
  | analyzeStart (symbol : String) (firedAt now : ℤ)
  | rejectionFound (symbol : String) (firedAt now : ℤ)
  | emitted (id : SignalId) (symbol : String) (firedAt : ℤ) (tfPair : String) (now : ℤ)
  | snapshot (now : ℤ)
  | flush
  | restart

/-- `told` is what the service has emitted since the process started. -/
structure MetricsRun where
  collector : MetricsCollector := {}
  told : List ServiceEvent := []

def MetricsRun.step (r : MetricsRun) : MetricsCall → MetricsRun
  | .signal e now => ⟨r.collector.onSignalEvent e.event e.payload now, r.told ++ [e]⟩
  | .analyzeStart symbol firedAt now =>
      { r with collector := r.collector.signalAnalyzeStart symbol firedAt now }
  | .rejectionFound symbol firedAt now =>
      { r with collector := r.collector.signalRejectionFound symbol firedAt now }
  | .emitted id symbol firedAt tfPair now =>
      { r with collector := r.collector.signalEmitted id symbol firedAt tfPair now }
  | .snapshot now => { r with collector := r.collector.prune now }
  | .flush => { r with collector := r.collector.flushMetrics }
  | .restart => ⟨r.collector.restarted, []⟩

/-- From a new database. -/
def metricsRun (calls : List MetricsCall) : MetricsRun := calls.foldl MetricsRun.step {}

/-- The call hands on a `signal.pending` of the zone. -/
def MetricsCall.AnnouncesZone (k : PendingKey) : MetricsCall → Prop
  | .signal e _ => Announces k e
  | _ => False

/-- A `signal.pending` of the zone, and no later `signal.triggered` of it. -/
def PendingSince (told : List ServiceEvent) (k : PendingKey) : Prop :=
  Outstanding (Announces k) (Triggers k) told

/-- The zone dict is that of the zone. -/
def ActiveZone.isOf (z : ActiveZone) (k : PendingKey) : Bool :=
  z.symbol == k.symbol && z.direction == k.direction.value && z.htfInterval == some k.htfInterval &&
    z.ltfInterval == some k.ltfInterval &&
    (EventDict.item z.htfRange.toEventDict (.wire .timestamp) WireValue.toInt == some k.htfTs)

/-- Metrics track pending zones. -/
structure TracksZones (r : MetricsRun) : Prop where
  entry : ∀ k, PendingSince r.told k → r.collector.activeZones.countP (fun z => z.isOf k) = 1
  only : ∀ z ∈ r.collector.activeZones, ∃ k, PendingSince r.told k ∧ z.isOf k
  gauge_eq : r.collector.gauge .signalsActiveZones = {k | PendingSince r.told k}.ncard

variable {m : MetricsCollector} {r : MetricsRun} {e : ServiceEvent} {call : MetricsCall}
  {calls : List MetricsCall} {told : List ServiceEvent} {k : PendingKey} {d : EventDict}
  {name : GaugeName} {now : ℤ}

/-! ## What the payloads lack -/

theorem activeZoneOf_eq_none (h : d .ltfTimestamp = none) : activeZoneOf d = none := by
  simp [activeZoneOf, EventDict.item, h]

theorem payload_ltfTimestamp (e : ServiceEvent) : e.payload.dict .ltfTimestamp = none := by
  cases e <;> rfl

/-- Every removal of the service's events is that of the timestamp 0. -/
theorem payload_ltfTs (e : ServiceEvent) :
    (e.payload.signal.getD e.payload.dict).ltfTs = some 0 := by
  cases e <;> rfl

namespace MetricsCollector

theorem mem_removeActiveZone {z : ActiveZone} {symbol direction : String} {ltfTimestamp : ℤ}
    {htfInterval ltfInterval : Option Interval} (hz : z ∈ m.activeZones)
    (hts : z.ltfTimestamp ≠ ltfTimestamp) :
    z ∈ (m.removeActiveZone symbol direction ltfTimestamp htfInterval ltfInterval).activeZones := by
  show z ∈ ite _ _ _
  split
  · exact mem_erase.mpr ⟨hz, fun hkey => hts (congrArg ActiveZoneKey.ltfTimestamp hkey)⟩
  · exact List.mem_filter.mpr ⟨hz, decide_eq_true fun h => hts h.2.2⟩

theorem onSignalClosed_cases (m : MetricsCollector) (counter : CounterName) (e : ServiceEvent) :
    m.onSignalClosed counter e.payload = m.increment counter ∨
      ∃ symbol direction htfInterval ltfInterval, m.onSignalClosed counter e.payload =
        (m.increment counter).removeActiveZone symbol direction 0 htfInterval ltfInterval := by
  simp only [onSignalClosed]
  cases hremove : (m.increment counter).removeFor (e.payload.signal.getD e.payload.dict) with
  | none => exact Or.inl rfl
  | some m' =>
      simp only [removeFor, payload_ltfTs, Option.bind_eq_bind, Option.bind_some,
        Option.bind_eq_some_iff, Option.pure_def, Option.some.injEq] at hremove
      obtain ⟨symbol, -, direction, -, htfInterval, -, ltfInterval, -, rfl⟩ := hremove
      exact Or.inr ⟨symbol, direction, htfInterval, ltfInterval, rfl⟩

/-- An event of the service counts, and may remove a zone under the timestamp 0. A
    `signal.pending` ends at the KeyError of `payload["ltfTimestamp"]`. -/
theorem onSignalEvent_cases (m : MetricsCollector) (e : ServiceEvent) (now : ℤ) :
    ∃ counters, m.onSignalEvent e.event e.payload now = { m with counters := counters } ∨
      ∃ symbol direction htfInterval ltfInterval, m.onSignalEvent e.event e.payload now =
        { m with counters := counters }.removeActiveZone symbol direction 0 htfInterval
          ltfInterval := by
  have hclosed := fun counter => onSignalClosed_cases (m.increment (.events e.event)) counter e
  have hpending := activeZoneOf_eq_none (payload_ltfTimestamp e)
  simp only [onSignalEvent]
  cases hevent : e.event with
  | signalPending => exact ⟨_, Or.inl (by rw [hpending]; rfl)⟩
  | signalTp1Hit => exact ⟨_, Or.inl rfl⟩
  | signalUpdated => exact ⟨_, Or.inl rfl⟩
  | _ => exact ⟨_, hevent ▸ hclosed _⟩

/-- A zone entered with a timestamp is there to stay: no event of the service takes it out. -/
theorem mem_onSignalEvent {z : ActiveZone} (hz : z ∈ m.activeZones) (hts : z.ltfTimestamp ≠ 0)
    (e : ServiceEvent) (now : ℤ) :
    z ∈ (m.onSignalEvent e.event e.payload now).activeZones := by
  obtain ⟨counters, h | ⟨symbol, direction, htfInterval, ltfInterval, h⟩⟩ :=
    onSignalEvent_cases m e now
  · rwa [h]
  · rw [h]
    exact mem_removeActiveZone hz hts

end MetricsCollector

/-! ## No zone is entered -/

/-- The state every run stays in. -/
structure SeesNoZone (m : MetricsCollector) : Prop where
  zones_nil : m.activeZones = []
  gauge_zero : m.gauge .signalsActiveZones = 0
  stored_zero : (m.metricsGauges .signalsActiveZones).getD 0 = 0

namespace SeesNoZone

theorem new : SeesNoZone {} := ⟨rfl, rfl, rfl⟩

theorem counted (h : SeesNoZone m) (counters : CounterName → ℤ) :
    SeesNoZone { m with counters := counters } :=
  ⟨h.zones_nil, h.gauge_zero, h.stored_zero⟩

theorem setGauge (h : SeesNoZone m) (hname : name ≠ .signalsActiveZones) (value : ℚ) :
    SeesNoZone (m.setGauge name value) where
  zones_nil := h.zones_nil
  gauge_zero := by
    rw [← h.gauge_zero]
    simp only [MetricsCollector.gauge, MetricsCollector.setGauge]
    rw [Function.update_of_ne hname.symm]
  stored_zero := h.stored_zero

theorem countZones (hzones : m.activeZones = [])
    (hstored : (m.metricsGauges .signalsActiveZones).getD 0 = 0) : SeesNoZone m.countZones where
  zones_nil := hzones
  gauge_zero := by simp [MetricsCollector.gauge, MetricsCollector.countZones,
    MetricsCollector.setGauge, hzones]
  stored_zero := hstored

theorem prune (h : SeesNoZone m) (now : ℤ) : SeesNoZone (m.prune now) := by
  simp only [MetricsCollector.prune]
  split
  · exact h
  · refine setGauge (setGauge (countZones ?_ ?_) ?_ _) ?_ _
    · simp only [h.zones_nil, List.filter_nil]
    · exact h.stored_zero
    · decide
    · decide

theorem removeActiveZone (h : SeesNoZone m) (symbol direction : String) (ltfTimestamp : ℤ)
    (htfInterval ltfInterval : Option Interval) :
    SeesNoZone (m.removeActiveZone symbol direction ltfTimestamp htfInterval ltfInterval) := by
  refine countZones ?_ h.stored_zero
  simp [h.zones_nil, Lib.erase]

theorem onSignalEvent (h : SeesNoZone m) (e : ServiceEvent) (now : ℤ) :
    SeesNoZone (m.onSignalEvent e.event e.payload now) := by
  obtain ⟨counters, hcounted | ⟨symbol, direction, htfInterval, ltfInterval, hremoved⟩⟩ :=
    MetricsCollector.onSignalEvent_cases m e now
  · rw [hcounted]
    exact h.counted counters
  · rw [hremoved]
    exact (h.counted counters).removeActiveZone _ _ _ _ _

theorem signalAnalyzeStart (h : SeesNoZone m) (symbol : String) (firedAt now : ℤ) :
    SeesNoZone (m.signalAnalyzeStart symbol firedAt now) := by
  have hpruned := h.prune now
  refine SeesNoZone.setGauge (SeesNoZone.setGauge (counted ?_ _) (by simp) _) (by simp) _
  exact ⟨hpruned.zones_nil, hpruned.gauge_zero, hpruned.stored_zero⟩

theorem signalEmitted (h : SeesNoZone m) (id : SignalId) (symbol : String) (firedAt : ℤ)
    (tfPair : String) (now : ℤ) : SeesNoZone (m.signalEmitted id symbol firedAt tfPair now) := by
  refine SeesNoZone.setGauge (SeesNoZone.setGauge (counted ?_ _) (by simp) _) (by simp) _
  exact ⟨h.zones_nil, h.gauge_zero, h.stored_zero⟩

theorem flushMetrics (h : SeesNoZone m) : SeesNoZone m.flushMetrics where
  zones_nil := h.zones_nil
  gauge_zero := h.gauge_zero
  stored_zero := by
    have hgauge := h.gauge_zero
    unfold MetricsCollector.gauge at hgauge
    unfold MetricsCollector.flushMetrics
    cases hvalue : m.gauges .signalsActiveZones with
    | none => simpa [hvalue] using h.stored_zero
    | some value => simpa [hvalue] using hgauge

theorem step (h : SeesNoZone r.collector) : ∀ call, SeesNoZone (r.step call).collector
  | .signal e now => h.onSignalEvent e now
  | .analyzeStart symbol firedAt now => h.signalAnalyzeStart symbol firedAt now
  | .rejectionFound _ _ _ => ⟨h.zones_nil, h.gauge_zero, h.stored_zero⟩
  | .emitted id symbol firedAt tfPair now => h.signalEmitted id symbol firedAt tfPair now
  | .snapshot now => h.prune now
  | .flush => h.flushMetrics
  | .restart => ⟨rfl, h.stored_zero, h.stored_zero⟩

theorem run (calls : List MetricsCall) : SeesNoZone (metricsRun calls).collector := by
  unfold metricsRun
  induction calls using List.reverseRecOn with
  | nil => exact new
  | append_singleton calls call ih =>
      rw [List.foldl_concat]
      exact ih.step call

end SeesNoZone

/-! ## What is left to track -/

/-- A collector that sees no zone tracks the pending ones when there are none, and only then. -/
theorem SeesNoZone.tracksZones_iff (h : SeesNoZone r.collector) :
    TracksZones r ↔ ∀ k, ¬ PendingSince r.told k := by
  constructor
  · intro htracks k hk
    have hentry := htracks.entry k hk
    rw [h.zones_nil] at hentry
    exact absurd hentry (by simp)
  · intro hnone
    have hempty : {k | PendingSince r.told k} = ∅ := Set.eq_empty_of_forall_notMem hnone
    refine ⟨fun k hk => absurd hk (hnone k), fun z hz => ?_, ?_⟩
    · rw [h.zones_nil] at hz
      exact absurd hz List.not_mem_nil
    · rw [h.gauge_zero, hempty, Set.ncard_empty, Nat.cast_zero]

theorem metricsRun_concat : metricsRun (calls ++ [call]) = (metricsRun calls).step call :=
  List.foldl_concat _ _ _ _

theorem mem_told_step (h : e ∈ (r.step call).told) :
    e ∈ r.told ∨ ∃ now, call = .signal e now := by
  cases call with
  | signal e' now =>
      rcases List.mem_append.mp h with h | h
      · exact Or.inl h
      · exact Or.inr ⟨now, by rw [List.mem_singleton.mp h]⟩
  | restart => exact absurd h List.not_mem_nil
  | _ => exact Or.inl h

theorem mem_told (h : e ∈ (metricsRun calls).told) : ∃ now, .signal e now ∈ calls := by
  induction calls using List.reverseRecOn with
  | nil => exact absurd h List.not_mem_nil
  | append_singleton calls call ih =>
      rw [metricsRun_concat] at h
      rcases mem_told_step h with h | ⟨now, rfl⟩
      · obtain ⟨now, hmem⟩ := ih h
        exact ⟨now, List.mem_append_left _ hmem⟩
      · exact ⟨now, List.mem_append_right _ (List.mem_singleton_self _)⟩

theorem announced_of_pendingSince (h : PendingSince (metricsRun calls).told k) :
    ∃ call ∈ calls, call.AnnouncesZone k := by
  obtain ⟨pre, e, post, htold, hannounces, -⟩ := h
  have he : e ∈ (metricsRun calls).told := by
    rw [htold]
    exact List.mem_append_right _ List.mem_cons_self
  obtain ⟨now, hmem⟩ := mem_told he
  exact ⟨.signal e now, hmem, hannounces⟩

theorem pendingSince_of_announced (h : call.AnnouncesZone k) :
    PendingSince (metricsRun (calls ++ [call])).told k := by
  rw [metricsRun_concat]
  cases call with
  | signal e now => exact outstanding_concat.mpr (Or.inl h)
  | _ => exact absurd h id

/-- **Pending zones in the metrics**: after every run of the collector's callers, its zones and
    its gauge are those of the pending zones exactly when there are none; and they are so
    throughout a run exactly when the run announces no zone. -/
theorem active_zones_iff (calls : List MetricsCall) :
    (TracksZones (metricsRun calls) ↔ ∀ k, ¬ PendingSince (metricsRun calls).told k) ∧
      ((∀ n, TracksZones (metricsRun (calls.take n))) ↔
        ∀ call ∈ calls, ∀ k, ¬ call.AnnouncesZone k) := by
  refine ⟨(SeesNoZone.run calls).tracksZones_iff, ?_, ?_⟩
  · intro htracks call hcall k hannounces
    obtain ⟨pre, post, rfl⟩ := List.append_of_mem hcall
    have htake : (pre ++ call :: post).take (pre.length + 1) = pre ++ [call] := by
      rw [List.take_length_add_append, List.take_succ_cons, List.take_zero]
    have hstate := htracks (pre.length + 1)
    rw [htake] at hstate
    exact (SeesNoZone.run _).tracksZones_iff.mp hstate k (pendingSince_of_announced hannounces)
  · intro hnone n
    refine (SeesNoZone.run _).tracksZones_iff.mpr fun k hk => ?_
    obtain ⟨call, hcall, hannounces⟩ := announced_of_pendingSince hk
    exact hnone call (List.mem_of_mem_take hcall) k hannounces

/-- The zone of the first of two quiet ticks, at its `signal.pending`. -/
theorem pendingZone_uncounted :
    (Service.run sampleSettings sampleProfiles (fun _ => false)
      { coordinator := { sessionDay := 20454 } } (quietTicks.take 1)).events =
        [.pending hourKey hourZone 1767225600000] ∧
      ¬ TracksZones
        (metricsRun [.signal (.pending hourKey hourZone 1767225600000) 1767225900000]) := by
  refine ⟨by decide +kernel, fun h => ?_⟩
  have hpending : PendingSince [.pending hourKey hourZone 1767225600000] hourKey :=
    ⟨[], _, [], rfl, rfl, fun t ht => absurd ht List.not_mem_nil⟩
  exact absurd (h.entry hourKey hpending) (by decide)

/-- A zone dict with a timestamp. -/
def timedZone (interval : Interval) : ActiveZone :=
  ⟨"XAUUSD", "LONG", 1700000000000, 1700000000000, fun _ => none, fun _ => none, some interval,
    some interval⟩

-- two timeframes are two zones, gone a day later
example :
    let m := MetricsCollector.upsertActiveZone {} (timedZone fiveMin) 1700000000000
    let m := m.upsertActiveZone (timedZone oneHour) 1700000000000
    m.gauge .signalsActiveZones = 2 ∧
      (m.prune (1700000000000 + 25 * 3600000)).gauge .signalsActiveZones = 0 := by
  decide +kernel

end SignalEngine
