/-
  Backtester: `MultiPairBacktester.run`.

  Model. A run is a list of operations on the locals of `run`: for each candle of the smallest
  LTF after the warm-up, first the expiry of the direction locks, then a visit of every pair.
  The dicts that are only read by key are functions. `ltf_candles_np` holds the same candles
  as `ltf_candles`. The cache key of a zone is its zone key, which adds the run's one symbol.
  Charts, printing, traces and the account report are left out.

  An invalid candle raises in the replay, and so does `htf_w[-1]` on an empty window; the
  locals reached until then are the state before the operation.
-/
import SignalEngine.Backtest.Simulate
import SignalEngine.Config.Settings
import SignalEngine.Domain.Dedup
import SignalEngine.Domain.Entry
import SignalEngine.Domain.Market
import SignalEngine.Engine.CandleFeed

namespace SignalEngine

open Lib

/-! ## Configuration and data -/

structure Backtest where
  cfg : Settings
  symbol : String
  pairs : List (Interval × Interval)
  pairs_ne : pairs ≠ []
  profileOf : Interval → Interval → AssetProfile
  htfLookback : Option ℤ := none
  trailingGivebackPct : ℚ := 0

structure History where
  htfCandles : Interval → List Candle
  ltfCandles : Interval → List Candle

/-- `self.profile`, the profile of the first pair. -/
def Backtest.profile (b : Backtest) : AssetProfile :=
  b.profileOf (b.pairs.head b.pairs_ne).1 (b.pairs.head b.pairs_ne).2

def Backtest.resolveLookback (b : Backtest) (pair : Interval × Interval) : ℤ :=
  b.htfLookback.getD (b.cfg.resolveHtfLookback pair.1 pair.2)

/-- `master_ltf`: the first LTF of the fewest minutes. -/
def Backtest.masterLtf (b : Backtest) : Interval :=
  b.pairs.tail.foldl
    (fun best pair =>
      if intervalToMinutes pair.2 < intervalToMinutes best then pair.2 else best)
    (b.pairs.head b.pairs_ne).2

/-- `ltf_lb`, the warm-up. -/
def Backtest.ltfLb (b : Backtest) : ℕ :=
  let maxHtfMins := ((b.pairs.map (fun pair => intervalToMinutes pair.1)).max?).getD 0
  let maxLookback := ((b.pairs.map b.resolveLookback).max?).getD 0
  (max 100 (maxLookback * ((maxHtfMins / intervalToMinutes b.masterLtf : ℕ) : ℤ))).toNat

/-- `analysis_close` at a master candle. -/
def Backtest.analysisClose (b : Backtest) (c : Candle) : ℤ :=
  c.timestamp + intervalMs b.masterLtf

/-! ## State -/

structure BacktestZone where
  symbol : String
  htfInterval : Interval
  ltfInterval : Interval
  htfTs : ℤ
  bosDirection : BosDirection
  deriving DecidableEq, Repr

/-- A signal with the step it was emitted at and what became of it. -/
structure Emission where
  analysisClose : ℤ
  signal : TradeSignal
  result : BacktestResult
  deriving DecidableEq, Repr

/-- `_ms_cache` and `_range_cache`, filled once for each HTF close. -/
structure HtfCaches where
  ms : Interval → Option (ℤ × StructureResult) := fun _ => none
  ranges : Interval × Interval → Option (ℤ × List HtfRange) := fun _ => none

structure BacktestState where
  deadZones : Finset BacktestZone := ∅
  zoneSignalCounts : BacktestZone → ℕ := fun _ => 0
  seenRej : Finset RejKey := ∅
  openDir : DirKey → Option ℤ := fun _ => none
  caches : HtfCaches := {}
  zoneLo : BacktestZone → Option ℕ := fun _ => none
  zoneCache : BacktestZone → Option (ℕ × Option (RejectionCandle × RejectionScore)) :=
    fun _ => none
  results : List Emission := []

inductive BacktestError where
  | candle (e : CandleError)
  | indexError
  deriving DecidableEq, Repr

def Backtest.zoneKey (b : Backtest) (pair : Interval × Interval) (z : HtfRange) : BacktestZone :=
  ⟨b.symbol, pair.1, pair.2, z.timestamp, z.bosDirection⟩

def Backtest.rejKey (b : Backtest) (pair : Interval × Interval) (r : RejectionCandle) : RejKey :=
  ⟨b.symbol, pair.1, pair.2, r.timestamp⟩

/-- `pair_dir_key`. -/
def Backtest.dirKey (b : Backtest) (pair : Interval × Interval) (direction : SignalDirection) :
    DirKey :=
  SignalEngine.dirKey b.profile.multiTfIndependentPositions b.symbol direction pair.1 pair.2

/-! ## The HTF side of a visit -/

/-- `htf_visible_all`: the HTF candles closed by `analysis_close`. -/
def History.htfVisible (D : History) (htf : Interval) (analysisClose : ℤ) : List Candle :=
  (D.htfCandles htf).take
    (bisectRight Candle.timestamp (D.htfCandles htf) (analysisClose - intervalMs htf))

/-- `htf_w`. -/
def Backtest.htfWindow (b : Backtest) (pair : Interval × Interval) (visible : List Candle) :
    List Candle :=
  visible.drop ((visible.length : ℤ) - b.resolveLookback pair).toNat

def Backtest.structureFor (b : Backtest) (htf : Interval) (window : List Candle) (lastHtfTs : ℤ)
    (ca : HtfCaches) : HtfCaches × Option StructureResult :=
  if b.profile.useTrendFilter then
    match (ca.ms htf).filter (fun e => decide (e.1 = lastHtfTs)) with
    | some (_, s) => (ca, some s)
    | none =>
        let s := detectStructure window pivotBars
        ({ ca with ms := Function.update ca.ms htf (some (lastHtfTs, s)) }, some s)
  else (ca, none)

def Backtest.zonesFor (b : Backtest) (pair : Interval × Interval) (window visible : List Candle)
    (lastHtfTs : ℤ) (ca : HtfCaches) : HtfCaches × List HtfRange :=
  match (ca.ranges pair).filter (fun e => decide (e.1 = lastHtfTs)) with
  | some (_, zones) => (ca, zones)
  | none =>
      let zones := findHtfRanges window pivotBars (intervalMs pair.1) b.cfg.maxHtfZonesPerDir
      let zones :=
        if b.cfg.useDisplacementFilter then
          zones.filter (fun z =>
            detectDisplacement visible z.brokenAt b.cfg.displacementAtrPeriod
              (b.cfg.displacementMultFor pair.1 pair.2))
        else zones
      ({ ca with ranges := Function.update ca.ranges pair (some (lastHtfTs, zones)) }, zones)

/-- The structure and the zones of a visit; `none` is a `continue`. -/
def Backtest.htfStage (b : Backtest) (pair : Interval × Interval) (visible : List Candle)
    (ca : HtfCaches) :
    Except BacktestError (HtfCaches × Option (Option StructureResult × List HtfRange)) :=
  let window := b.htfWindow pair visible
  if (window.length : ℤ) < b.resolveLookback pair / 3 then .ok (ca, none)
  else
    match window.getLast? with
    | none => .error .indexError
    | some last =>
        let r := b.structureFor pair.1 window last.timestamp ca
        if r.2.any (fun s => decide (s.bias = .neutral)) then .ok (r.1, none)
        else
          let q := b.zonesFor pair window visible last.timestamp r.1
          .ok (q.1, some (r.2, q.2))

/-! ## The zone loop of a visit -/

/-- What the zone loop reads of the LTF candles. -/
structure LtfView where
  pair : Interval × Interval
  bias : Option StructureResult
  pairCurrentTs : ℤ
  hiIdx : ℕ
  visible : List Candle
  /-- `bisect_left` in all the candles of the LTF -/
  loIdx : ℤ → ℕ

def History.ltfView (D : History) (pair : Interval × Interval) (analysisClose : ℤ)
    (bias : Option StructureResult) : LtfView where
  pair := pair
  bias := bias
  pairCurrentTs := pairCurrentTs pair.2 analysisClose
  hiIdx := ltfHiIdx pair.2 (D.ltfCandles pair.2) analysisClose
  visible := (D.ltfCandles pair.2).take (ltfHiIdx pair.2 (D.ltfCandles pair.2) analysisClose)
  loIdx := bisectLeft Candle.timestamp (D.ltfCandles pair.2)

/-- `ltf_lo_idx`, computed on the first visit of a zone. -/
def Backtest.ltfLoIdx (b : Backtest) (v : LtfView) (z : HtfRange) (st : BacktestState) :
    BacktestState × ℕ :=
  match st.zoneLo (b.zoneKey v.pair z) with
  | some lo => (st, lo)
  | none =>
      ({ st with
          zoneLo := Function.update st.zoneLo (b.zoneKey v.pair z) (some (v.loIdx z.zoneStart)) },
        v.loIdx z.zoneStart)

/-- `rej_result`, found again when an LTF candle has been added. -/
def Backtest.rejResult (b : Backtest) (v : LtfView) (z : HtfRange) (lo : ℕ) (st : BacktestState) :
    BacktestState × Option (RejectionCandle × RejectionScore) :=
  match (st.zoneCache (b.zoneKey v.pair z)).filter (fun e => decide (e.1 = v.hiIdx)) with
  | some (_, rej) => (st, rej)
  | none =>
      let rej := findEntry (v.visible.drop lo) z.signalDirection z
      ({ st with
          zoneCache := Function.update st.zoneCache (b.zoneKey v.pair z) (some (v.hiIdx, rej)) },
        rej)

/-- `stale_ms`. -/
def staleMs (ltf : Interval) : ℤ := pyInt (toDouble (rejectionStaleHours ltf * msPerHour))

/-- The signal of a rejection that is new, whose lock is free, which is not stale and which
    builds. -/
def Backtest.signalFor (b : Backtest) (v : LtfView) (z : HtfRange) (rejection : RejectionCandle)
    (st : BacktestState) : Option TradeSignal :=
  if b.rejKey v.pair rejection ∈ st.seenRej then none
  else if (st.openDir (b.dirKey v.pair z.signalDirection)).isSome then none
  else if staleMs v.pair.2 < v.pairCurrentTs - rejection.timestamp then none
  else
    (evaluateSetup b.symbol v.pair.1 v.pair.2 z rejection
      ⟨b.symbol, v.pair.1, v.pair.2, rejection.timestamp, z.signalDirection⟩
      (b.profileOf v.pair.1 v.pair.2)).signal.map fun s =>
        { s with
          setupCandleOpenAt := some rejection.timestamp
          setupCandleCloseAt := some (rejection.timestamp + intervalMs v.pair.2)
          zoneAttempt := st.zoneSignalCounts (b.zoneKey v.pair z) + 1 }

/-- One zone of the loop. -/
def Backtest.zoneTurn (b : Backtest) (v : LtfView) (st : BacktestState) (z : HtfRange) :
    BacktestState × Option TradeSignal :=
  let k := b.zoneKey v.pair z
  if k ∈ st.deadZones ∨ b.cfg.maxSignalCountPerZone ≤ st.zoneSignalCounts k then (st, none)
  else
    let r := b.ltfLoIdx v z st
    if v.bias.any (fun s => !s.allows z.signalDirection) then (r.1, none)
    else
      let q := b.rejResult v z r.2 r.1
      (q.1, q.2.bind (fun e => b.signalFor v z e.1 q.1))

/-- The zone loop up to its first signal. -/
def Backtest.scanZones (b : Backtest) (v : LtfView) (st : BacktestState) :
    List HtfRange → BacktestState × Option (HtfRange × TradeSignal)
  | [] => (st, none)
  | z :: zs =>
      match b.zoneTurn v st z with
      | (st, some s) => (st, some (z, s))
      | (st, none) => b.scanZones v st zs

/-- A visit up to the signal it emits, if any. -/
def Backtest.scan (b : Backtest) (D : History) (analysisClose : ℤ) (pair : Interval × Interval)
    (st : BacktestState) :
    Except BacktestError (BacktestState × Option (HtfRange × TradeSignal)) :=
  match b.htfStage pair (D.htfVisible pair.1 analysisClose) st.caches with
  | .error e => .error e
  | .ok (ca, none) => .ok ({ st with caches := ca }, none)
  | .ok (ca, some (bias, zones)) =>
      if ltfHiIdx pair.2 (D.ltfCandles pair.2) analysisClose = 0 then
        .ok ({ st with caches := ca }, none)
      else
        .ok (b.scanZones (D.ltfView pair analysisClose bias) { st with caches := ca } zones)

/-! ## Emitting -/

/-- `result.close_ts or (signal.created_at + expiry_ms)`: the end of the direction lock. -/
def Backtest.lockUntil (b : Backtest) (s : TradeSignal) (r : BacktestResult) : ℤ :=
  pyOr r.closeTs (s.createdAt + expiryMs b.profile)

/-- The tables after an emission. -/
def Backtest.record (b : Backtest) (analysisClose : ℤ) (pair : Interval × Interval) (z : HtfRange)
    (s : TradeSignal) (r : BacktestResult) (st : BacktestState) : BacktestState :=
  let k := b.zoneKey pair z
  let limited := decide (b.cfg.maxSignalCountPerZone ≤ s.zoneAttempt)
  { st with
    seenRej := insert (b.rejKey pair s.rejectionCandle) st.seenRej
    zoneSignalCounts := Function.update st.zoneSignalCounts k s.zoneAttempt
    deadZones := if limited then insert k st.deadZones else st.deadZones
    zoneCache := if limited then Function.update st.zoneCache k none else st.zoneCache
    zoneLo := if limited then Function.update st.zoneLo k none else st.zoneLo
    openDir := Function.update st.openDir (b.dirKey pair z.signalDirection)
      (some (b.lockUntil s r))
    results := st.results ++ [⟨analysisClose, s, r⟩] }

/-- One pair at one step. -/
def Backtest.visit (b : Backtest) (D : History) (analysisClose : ℤ) (pair : Interval × Interval)
    (st : BacktestState) : Except BacktestError BacktestState :=
  match b.scan D analysisClose pair st with
  | .error e => .error e
  | .ok (st, none) => .ok st
  | .ok (st, some (z, s)) =>
      match simulate (b.profileOf pair.1 pair.2) b.trailingGivebackPct s
          (backtestFeed pair.2 (D.ltfCandles pair.2) analysisClose) with
      | .error e => .error (.candle e)
      | .ok r => .ok (b.record analysisClose pair z s r st)

/-! ## Runs -/

/-- The operations of `run`, each with its master candle. -/
inductive BacktestOp where
  | expireLocks (c : Candle)
  | visit (c : Candle) (pair : Interval × Interval)
  deriving DecidableEq, Repr

def Backtest.expireLocks (c : Candle) (st : BacktestState) : BacktestState :=
  { st with openDir := fun k => (st.openDir k).filter (fun ts => !decide (ts ≤ c.timestamp)) }

def Backtest.applyOp (b : Backtest) (D : History) (st : BacktestState) :
    BacktestOp → Except BacktestError BacktestState
  | .expireLocks c => .ok (Backtest.expireLocks c st)
  | .visit c pair => b.visit D (b.analysisClose c) pair st

/-- The operations of one step. -/
def Backtest.stepOps (b : Backtest) (c : Candle) : List BacktestOp :=
  .expireLocks c :: b.pairs.map (BacktestOp.visit c)

def History.master (D : History) (b : Backtest) : List Candle := D.ltfCandles b.masterLtf

/-- The operations of the steps up to master candle `t`. -/
def Backtest.scheduleTo (b : Backtest) (D : History) (t : ℕ) : List BacktestOp :=
  (((D.master b).take (t + 1)).drop b.ltfLb).flatMap b.stepOps

/-- All the operations of `run`. -/
def Backtest.schedule (b : Backtest) (D : History) : List BacktestOp :=
  ((D.master b).drop b.ltfLb).flatMap b.stepOps

def Backtest.runOps (b : Backtest) (D : History) (ops : List BacktestOp) :
    Except BacktestError BacktestState :=
  ops.foldlM (b.applyOp D) {}

/-! ## What an operation changes -/

variable {b : Backtest} {D : History} {v : LtfView} {z : HtfRange} {st st' : BacktestState}
  {analysisClose : ℤ} {pair : Interval × Interval} {r : RejectionCandle} {s : TradeSignal}

/-- The two states differ in caches at most. -/
structure OnlyCaches (st st' : BacktestState) : Prop where
  deadZones_eq : st'.deadZones = st.deadZones
  counts_eq : st'.zoneSignalCounts = st.zoneSignalCounts
  seenRej_eq : st'.seenRej = st.seenRej
  openDir_eq : st'.openDir = st.openDir
  results_eq : st'.results = st.results

theorem OnlyCaches.trans {st₁ st₂ st₃ : BacktestState} (h : OnlyCaches st₁ st₂)
    (h' : OnlyCaches st₂ st₃) : OnlyCaches st₁ st₃ :=
  ⟨h'.deadZones_eq.trans h.deadZones_eq, h'.counts_eq.trans h.counts_eq,
    h'.seenRej_eq.trans h.seenRej_eq, h'.openDir_eq.trans h.openDir_eq,
    h'.results_eq.trans h.results_eq⟩

theorem ltfLoIdx_onlyCaches : OnlyCaches st (b.ltfLoIdx v z st).1 := by
  unfold Backtest.ltfLoIdx
  split <;> exact ⟨rfl, rfl, rfl, rfl, rfl⟩

theorem rejResult_onlyCaches (lo : ℕ) : OnlyCaches st (b.rejResult v z lo st).1 := by
  unfold Backtest.rejResult
  split <;> exact ⟨rfl, rfl, rfl, rfl, rfl⟩

theorem zoneTurn_onlyCaches (b : Backtest) (v : LtfView) (st : BacktestState) (z : HtfRange) :
    OnlyCaches st (b.zoneTurn v st z).1 := by
  unfold Backtest.zoneTurn
  dsimp only
  split
  · exact ⟨rfl, rfl, rfl, rfl, rfl⟩
  split
  · exact ltfLoIdx_onlyCaches
  · exact ltfLoIdx_onlyCaches.trans (rejResult_onlyCaches _)

theorem scanZones_onlyCaches (b : Backtest) (v : LtfView) (st : BacktestState)
    (zs : List HtfRange) : OnlyCaches st (b.scanZones v st zs).1 := by
  induction zs generalizing st with
  | nil => exact ⟨rfl, rfl, rfl, rfl, rfl⟩
  | cons z zs ih =>
      have hturn := zoneTurn_onlyCaches b v st z
      rw [Backtest.scanZones]
      generalize b.zoneTurn v st z = r at hturn ⊢
      obtain ⟨st₁, _ | s⟩ := r
      · exact hturn.trans (ih st₁)
      · exact hturn

theorem scan_onlyCaches {o : Option (HtfRange × TradeSignal)}
    (h : b.scan D analysisClose pair st = .ok (st', o)) : OnlyCaches st st' := by
  unfold Backtest.scan at h
  split at h
  · cases h
  · cases h; exact ⟨rfl, rfl, rfl, rfl, rfl⟩
  next ca bias zones _ =>
  split at h
  · cases h; exact ⟨rfl, rfl, rfl, rfl, rfl⟩
  · simp only [Except.ok.injEq] at h
    have hzones := scanZones_onlyCaches b (D.ltfView pair analysisClose bias)
      { st with caches := ca } zones
    rw [h] at hzones
    exact ⟨hzones.1, hzones.2, hzones.3, hzones.4, hzones.5⟩

/-! ## What a visit finds -/

/-- The signal of a rejection is about this rejection and this LTF, and nothing has happened to
    it yet. -/
theorem signalFor_trade (h : b.signalFor v z r st = some s) :
    s.rejectionCandle = r ∧ s.ltfInterval = v.pair.2 ∧ Running s := by
  unfold Backtest.signalFor at h
  split at h
  · cases h
  split at h
  · cases h
  split at h
  · cases h
  obtain ⟨built, hbuilt, rfl⟩ := Option.map_eq_some_iff.mp h
  rw [evaluateSetup_signal] at hbuilt
  have hb := buildSignal_eq_some hbuilt
  have hrun := hb.fresh.running
  exact ⟨hb.rejectionCandle_eq, hb.ltfInterval_eq, hrun.1, hrun.2, hrun.3⟩

theorem zoneTurn_eq_some (h : b.zoneTurn v st z = (st', some s)) :
    ¬ (b.zoneKey v.pair z ∈ st.deadZones ∨
      b.cfg.maxSignalCountPerZone ≤ st.zoneSignalCounts (b.zoneKey v.pair z)) ∧
    v.bias.any (fun s => !s.allows z.signalDirection) = false ∧
    ∃ r score, b.rejResult v z (b.ltfLoIdx v z st).2 (b.ltfLoIdx v z st).1 =
      (st', some (r, score)) ∧ b.signalFor v z r st' = some s := by
  unfold Backtest.zoneTurn at h
  dsimp only at h
  split at h
  · cases h
  next hlimit =>
  split at h
  · cases h
  next hbias =>
  refine ⟨hlimit, by simpa using hbias, ?_⟩
  obtain ⟨⟨r, score⟩, hrej, hs⟩ := Option.bind_eq_some_iff.mp (congrArg Prod.snd h)
  have hst : (b.rejResult v z (b.ltfLoIdx v z st).2 (b.ltfLoIdx v z st).1).1 = st' :=
    congrArg Prod.fst h
  rw [hst] at hs
  exact ⟨r, score, Prod.ext hst hrej, hs⟩

/-- The loop stops at the first zone with a signal. -/
theorem scanZones_eq_some {zs : List HtfRange} (h : b.scanZones v st zs = (st', some (z, s))) :
    ∃ pre post st₀, zs = pre ++ z :: post ∧ b.scanZones v st pre = (st₀, none) ∧
      b.zoneTurn v st₀ z = (st', some s) := by
  induction zs generalizing st with
  | nil => cases h
  | cons y zs ih =>
      rw [Backtest.scanZones] at h
      split at h
      · next st₁ s₁ hturn =>
          cases h
          exact ⟨[], zs, st, rfl, rfl, hturn⟩
      · next st₁ hturn =>
          obtain ⟨pre, post, st₀, rfl, hpre, hz⟩ := ih h
          exact ⟨y :: pre, post, st₀, rfl, by rw [Backtest.scanZones, hturn]; exact hpre, hz⟩

/-- A visit emits a new trade on the pair's LTF. -/
theorem scan_signal (h : b.scan D analysisClose pair st = .ok (st', some (z, s))) :
    s.ltfInterval = pair.2 ∧ Running s := by
  unfold Backtest.scan at h
  split at h
  · cases h
  · cases h
  split at h
  · cases h
  simp only [Except.ok.injEq] at h
  obtain ⟨_, _, _, _, _, hturn⟩ := scanZones_eq_some h
  obtain ⟨-, -, r, _, -, hs⟩ := zoneTurn_eq_some hturn
  exact (signalFor_trade hs).2

/-- A visit scans, and records what it has found. -/
theorem visit_cases (h : b.visit D analysisClose pair st = .ok st') :
    b.scan D analysisClose pair st = .ok (st', none) ∨
      ∃ st₁ z s r, b.scan D analysisClose pair st = .ok (st₁, some (z, s)) ∧
        simulate (b.profileOf pair.1 pair.2) b.trailingGivebackPct s
          (backtestFeed pair.2 (D.ltfCandles pair.2) analysisClose) = .ok r ∧
        st' = b.record analysisClose pair z s r st₁ := by
  unfold Backtest.visit at h
  split at h
  · cases h
  · next hscan => cases h; exact Or.inl hscan
  next st₁ z s hscan =>
  split at h
  · cases h
  next r hsim =>
  cases h
  exact Or.inr ⟨st₁, z, s, r, hscan, hsim, rfl⟩

theorem runOps_append_singleton {ops : List BacktestOp} {op : BacktestOp}
    (h : b.runOps D (ops ++ [op]) = .ok st') :
    ∃ st, b.runOps D ops = .ok st ∧ b.applyOp D st op = .ok st' := by
  unfold Backtest.runOps at h ⊢
  rw [List.foldlM_append] at h
  cases hops : ops.foldlM (b.applyOp D) {} with
  | error e => rw [hops] at h; cases h
  | ok st =>
      rw [hops] at h
      refine ⟨st, rfl, ?_⟩
      cases happly : b.applyOp D st op with
      | error e => simp [bind, Except.bind, happly] at h
      | ok st'' => simpa [bind, Except.bind, happly, pure, Except.pure] using h

/-- A run with a value to show for it has ended without raising. -/
theorem runOps_of_map {β : Type} {ops : List BacktestOp} {f : BacktestState → β} {a : β}
    (h : (b.runOps D ops).map f = .ok a) : ∃ st, b.runOps D ops = .ok st ∧ f st = a := by
  cases hrun : b.runOps D ops with
  | error e => rw [hrun] at h; cases h
  | ok st => rw [hrun] at h; exact ⟨st, rfl, Except.ok.inj h⟩

/-- A test of the state before every operation of a run. -/
def Backtest.everyOp (b : Backtest) (D : History) (test : BacktestOp → BacktestState → Bool)
    (ops : List BacktestOp) : Bool :=
  (List.range ops.length).all fun n =>
    match ops[n]?, b.runOps D (ops.take n) with
    | some op, .ok st => test op st
    | _, _ => true

theorem test_of_everyOp {test : BacktestOp → BacktestState → Bool} {pre ops : List BacktestOp}
    {op : BacktestOp} (h : b.everyOp D test ops = true) (hpre : pre ++ [op] <+: ops)
    (hrun : b.runOps D pre = .ok st) : test op st = true := by
  obtain ⟨post, rfl⟩ := hpre
  have hat := List.all_eq_true.mp h pre.length (by simp)
  have hop : (pre ++ [op] ++ post)[pre.length]? = some op := by simp
  have htake : (pre ++ [op] ++ post).take pre.length = pre := by simp
  rw [hop, htake, hrun] at hat
  exact hat

/-! ## Sample runs

One hourly zone, entered on 15-minute and on 5-minute candles under one direction lock. -/

def sampleBacktest : Backtest where
  cfg := sampleSettings
  symbol := "XAUUSD"
  pairs := [(oneHour, fifteenMin), (oneHour, fiveMin)]
  pairs_ne := by simp
  profileOf := fun _ _ => { sampleProfile with multiTfIndependentPositions := false }
  htfLookback := some 6

theorem samplePair_ne : [(oneHour, fiveMin)] ≠ [] := List.cons_ne_nil _ _

/-- Hourly candles, the last of which breaks structure upward. -/
def sampleHourly : List Candle :=
  [⟨0, 10, 11, 9, 10, 0⟩, ⟨3600000, 10, 11, 9, 10, 0⟩, ⟨7200000, 10, 11, 9, 10, 0⟩,
    ⟨10800000, 10, 13, 19 / 2, 12, 0⟩, ⟨14400000, 12, 12, 10, 21 / 2, 0⟩,
    ⟨18000000, 21 / 2, 11, 8, 9, 0⟩, ⟨21600000, 9, 12, 17 / 2, 11, 0⟩,
    ⟨25200000, 11, 15, 10, 14, 0⟩]

/-- An LTF candle around 9 with the given low. -/
def quietCandle (ts : ℤ) (low : ℚ := 88 / 10) : Candle := ⟨ts, 9, 92 / 10, low, 9, 0⟩

/-- The candles open at 8:00 and at 8:30 dip into the zone. -/
def sampleFive : List Candle :=
  (List.range 96).map (fun i => quietCandle (i * 300000)) ++
    [quietCandle 28800000 (82 / 10), quietCandle 29100000, quietCandle 29400000,
      quietCandle 29700000, quietCandle 30000000, quietCandle 30300000,
      quietCandle 30600000 (82 / 10)]

/-- The same hours in 15-minute candles; the last one closes after the last 5-minute candle,
    at the low `lastLow`. -/
def sampleFifteen (lastLow : ℚ) : List Candle :=
  (List.range 32).map (fun i => quietCandle (i * 900000)) ++
    [quietCandle 28800000 (82 / 10), quietCandle 29700000, quietCandle 30600000 lastLow]

def sampleData (lastLow : ℚ) : History where
  htfCandles := fun _ => sampleHourly
  ltfCandles := fun ltf =>
    if ltf = fiveMin then sampleFive else if ltf = fifteenMin then sampleFifteen lastLow else []

/-- A candle that falls through the zone and stays below it. -/
def fallCandle (ts : ℤ) : Candle := ⟨ts, 9, 92 / 10, 7, 7, 0⟩

/-- The zone on 5-minute candles only, to be entered twice. -/
def twiceBacktest : Backtest where
  cfg := { sampleSettings with maxSignalCountPerZone := 2 }
  symbol := "XAUUSD"
  pairs := [(oneHour, fiveMin)]
  pairs_ne := samplePair_ne
  profileOf := fun _ _ => sampleProfile
  htfLookback := some 6

/-- The zone is swept at 8:20, TP2 reached at 8:30, and the zone swept again at 8:35. -/
def twiceFive (after : List Candle) : List Candle :=
  (List.range 100).map (fun i => quietCandle (i * 300000)) ++
    ([quietCandle 30000000 (82 / 10), quietCandle 30300000,
      ⟨30600000, 9, 112 / 10, 88 / 10, 9, 0⟩, quietCandle 30900000 (81 / 10)] ++ after)

def twiceData (after : List Candle) : History where
  htfCandles := fun _ => sampleHourly
  ltfCandles := fun _ => twiceFive after

end SignalEngine
