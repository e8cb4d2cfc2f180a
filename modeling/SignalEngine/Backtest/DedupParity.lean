/-
  Dedup parity: the emission gate of the live engine and the skip tests of the backtest.

  Model. `Corresponds` relates the two sets of tables: zone keys by `BacktestZone.liveKey`, which
  maps the break direction to the trade direction, and the locks by the key both sides form, a
  live lock counting until `now`. `Passes` is the conjunction of the backtest's tests for one
  candidate.

  Proved: a turn of the zone loop emits exactly the candidates that pass (`zoneTurn_passes`), and
  `sameGate`: with corresponding tables the gate allows what passes, and registering the signal
  on both sides gives one attempt number and corresponding tables again.
-/
import SignalEngine.Backtest.Backtester
import SignalEngine.Session.Coordinator

namespace SignalEngine

open Lib

/-! ## The two sides -/

/-- The live key of a zone: `SHORT` for a bearish break, `LONG` for a bullish one. -/
def BacktestZone.liveKey (k : BacktestZone) : ZoneKey :=
  ⟨k.symbol, k.htfInterval, k.ltfInterval, k.htfTs,
    if k.bosDirection = .bearish then .short else .long⟩

/-- The tables of both engines at the candle time `now`. -/
structure Corresponds (now : ℤ) (d : DedupState) (st : BacktestState) : Prop where
  dead_iff : ∀ k, k ∈ st.deadZones ↔ k.liveKey ∈ d.deadZones
  counts_eq : ∀ k, st.zoneSignalCounts k = d.zoneSignalCounts k.liveKey
  seen_eq : st.seenRej = d.seenRej
  locks_iff : ∀ k, (st.openDir k).isSome ↔ k ∈ (d.releaseExpiredDirections now).openKeys

/-- What the live gate is asked about a zone and its rejection. -/
def Backtest.setup (b : Backtest) (v : LtfView) (z : HtfRange) (r : RejectionCandle) : Setup :=
  ⟨b.symbol, z.signalDirection, z, r, v.pair.1, v.pair.2⟩

/-- The candidate passes the skip tests of `run`. -/
structure Passes (b : Backtest) (v : LtfView) (z : HtfRange) (r : RejectionCandle)
    (st : BacktestState) : Prop where
  zone : ¬ (b.zoneKey v.pair z ∈ st.deadZones ∨
    b.cfg.maxSignalCountPerZone ≤ st.zoneSignalCounts (b.zoneKey v.pair z))
  rejection : b.rejKey v.pair r ∉ st.seenRej
  lock : ¬ (st.openDir (b.dirKey v.pair z.signalDirection)).isSome
  age : ¬ staleMs v.pair.2 < v.pairCurrentTs - r.timestamp

instance (b : Backtest) (v : LtfView) (z : HtfRange) (r : RejectionCandle) (st : BacktestState) :
    Decidable (Passes b v z r st) :=
  decidable_of_iff
    (¬ (b.zoneKey v.pair z ∈ st.deadZones ∨
        b.cfg.maxSignalCountPerZone ≤ st.zoneSignalCounts (b.zoneKey v.pair z)) ∧
      b.rejKey v.pair r ∉ st.seenRej ∧
      ¬ (st.openDir (b.dirKey v.pair z.signalDirection)).isSome ∧
      ¬ staleMs v.pair.2 < v.pairCurrentTs - r.timestamp)
    ⟨fun h => ⟨h.1, h.2.1, h.2.2.1, h.2.2.2⟩, fun h => ⟨h.zone, h.rejection, h.lock, h.age⟩⟩

/-- The circuit breaker, brought up to date for `now`, holds no pause. -/
structure NotPaused (cfg : Settings) (c : Coordinator) (now : ℤ)
    (load : ℤ → List ClosedSignalRecord) (nowMs : ℤ) : Prop where
  ready : (c.maybeRollover cfg now load nowMs).2 = none
  free : (c.maybeRollover cfg now load nowMs).1.pausedMinutes now = none

variable {b : Backtest} {v : LtfView} {z : HtfRange} {r : RejectionCandle} {st st' : BacktestState}
  {d : DedupState} {c : Coordinator} {now nowMs : ℤ} {load : ℤ → List ClosedSignalRecord}
  {s : TradeSignal}

/-! ## The tests of the backtest -/

/-- The signal the builder makes of a candidate. -/
def Backtest.buildFor (b : Backtest) (v : LtfView) (z : HtfRange) (r : RejectionCandle)
    (attempt : ℕ) : Option TradeSignal :=
  (evaluateSetup b.symbol v.pair.1 v.pair.2 z r
    ⟨b.symbol, v.pair.1, v.pair.2, r.timestamp, z.signalDirection⟩
    (b.profileOf v.pair.1 v.pair.2)).signal.map fun s =>
      { s with
        setupCandleOpenAt := some r.timestamp
        setupCandleCloseAt := some (r.timestamp + intervalMs v.pair.2)
        zoneAttempt := attempt }

theorem signalFor_of_passes (h : Passes b v z r st) :
    b.signalFor v z r st =
      b.buildFor v z r (st.zoneSignalCounts (b.zoneKey v.pair z) + 1) := by
  rw [Backtest.signalFor, if_neg h.rejection, if_neg h.lock, if_neg h.age]
  rfl

/-- A signal comes out of the tests with the next attempt of its zone. -/
theorem signalFor_attempt (h : b.signalFor v z r st = some s) :
    s.zoneAttempt = st.zoneSignalCounts (b.zoneKey v.pair z) + 1 := by
  unfold Backtest.signalFor at h
  split at h
  · cases h
  split at h
  · cases h
  split at h
  · cases h
  obtain ⟨built, -, rfl⟩ := Option.map_eq_some_iff.mp h
  rfl

theorem Passes.onlyCaches (h : OnlyCaches st st') : Passes b v z r st' ↔ Passes b v z r st := by
  constructor
  · rintro ⟨hzone, hrejection, hlock, hage⟩
    exact ⟨h.deadZones_eq ▸ h.counts_eq ▸ hzone, h.seenRej_eq ▸ hrejection, h.openDir_eq ▸ hlock,
      hage⟩
  · rintro ⟨hzone, hrejection, hlock, hage⟩
    refine ⟨?_, ?_, ?_, hage⟩
    · rwa [h.deadZones_eq, h.counts_eq]
    · rwa [h.seenRej_eq]
    · rwa [h.openDir_eq]

/-- A turn of the zone loop with a rejection emits what the builder makes of it exactly when it
    passes the tests. -/
theorem zoneTurn_passes
    (hbias : v.bias.any (fun s => !s.allows z.signalDirection) = false) {score : RejectionScore}
    (hrej : (b.rejResult v z (b.ltfLoIdx v z st).2 (b.ltfLoIdx v z st).1).2 = some (r, score)) :
    (b.zoneTurn v st z).2 =
      if Passes b v z r st then
        b.buildFor v z r (st.zoneSignalCounts (b.zoneKey v.pair z) + 1)
      else none := by
  unfold Backtest.zoneTurn
  dsimp only
  by_cases hzone : b.zoneKey v.pair z ∈ st.deadZones ∨
      b.cfg.maxSignalCountPerZone ≤ st.zoneSignalCounts (b.zoneKey v.pair z)
  · rw [if_pos hzone, if_neg (fun h : Passes b v z r st => h.zone hzone)]
  rw [if_neg hzone, hbias, if_neg Bool.false_ne_true]
  dsimp only
  rw [hrej, Option.bind_some]
  have hboth : OnlyCaches st
      (b.rejResult v z (b.ltfLoIdx v z st).2 (b.ltfLoIdx v z st).1).1 :=
    ltfLoIdx_onlyCaches.trans (rejResult_onlyCaches (b.ltfLoIdx v z st).2)
  by_cases hpass : Passes b v z r st
  · rw [if_pos hpass, signalFor_of_passes ((Passes.onlyCaches hboth).mpr hpass), hboth.counts_eq]
  · rw [if_neg hpass, Backtest.signalFor, hboth.seenRej_eq, hboth.openDir_eq]
    split
    · rfl
    next hseen =>
    split
    · rfl
    next hlock =>
    split
    · rfl
    next hage =>
    exact absurd ⟨hzone, hseen, hlock, hage⟩ hpass

/-! ## The gate of the live engine -/

theorem liveKey_injective : Function.Injective BacktestZone.liveKey := by
  rintro ⟨symbol, htf, ltf, ts, direction⟩ ⟨symbol', htf', ltf', ts', direction'⟩ h
  simp only [BacktestZone.liveKey, ZoneKey.mk.injEq] at h
  obtain ⟨rfl, rfl, rfl, rfl, hdirection⟩ := h
  cases direction <;> cases direction' <;> first | rfl | cases hdirection

theorem zoneKey_liveKey (b : Backtest) (v : LtfView) (z : HtfRange) (r : RejectionCandle) :
    (b.zoneKey v.pair z).liveKey = (b.setup v z r).zoneKey := rfl

theorem setup_dirKey (hmulti : b.profile.multiTfIndependentPositions =
    b.cfg.multiTfIndependentPositions) :
    (b.setup v z r).dirKey b.cfg.multiTfIndependentPositions =
      b.dirKey v.pair z.signalDirection := by
  rw [Backtest.dirKey, hmulti]
  rfl

theorem rejectionStaleHours_nonneg (ltf : Interval) : 0 ≤ rejectionStaleHours ltf := by
  unfold rejectionStaleHours pyRoundTo
  have hquot : 0 ≤ toDouble ((intervalToMinutes ltf : ℚ) * 2 / 60) :=
    toDouble_nonneg (by positivity)
  have hround : 0 ≤ pyRound (toDouble ((intervalToMinutes ltf : ℚ) * 2 / 60) * 10 ^ 4) :=
    roundEven_nonneg (by positivity)
  exact toDouble_nonneg (div_nonneg (by exact_mod_cast hround) (by positivity))

/-- The truncated age limit cuts where the limit itself does. -/
theorem staleMs_lt_iff (ltf : Interval) (age : ℤ) :
    staleMs ltf < age ↔ toDouble (rejectionStaleHours ltf * msPerHour) < (age : ℚ) := by
  have hnonneg : 0 ≤ toDouble (rejectionStaleHours ltf * msPerHour) :=
    toDouble_nonneg (mul_nonneg (rejectionStaleHours_nonneg ltf) (by unfold msPerHour; norm_num))
  rw [staleMs, pyInt, if_pos hnonneg, Int.floor_lt]

theorem shouldEmit_eq_none_iff {x : Setup} {staleHours : ℚ} {maxSignalCount : ℕ} :
    SignalEngine.shouldEmit d x now staleHours maxSignalCount = none ↔
      ¬ (x.zoneKey ∈ d.deadZones ∨ maxSignalCount ≤ d.zoneSignalCounts x.zoneKey) ∧
        ¬ toDouble (staleHours * msPerHour) < ((now - x.rejection.timestamp : ℤ) : ℚ) ∧
        x.rejKey ∉ d.seenRej := by
  unfold SignalEngine.shouldEmit
  dsimp only
  split
  · next hzone => exact iff_of_false (fun h => by cases h) (fun h => h.1 hzone)
  next hzone =>
  split
  · next hage => exact iff_of_false (fun h => by cases h) (fun h => h.2.1 hage)
  next hage =>
  split
  · next hseen => exact iff_of_false (fun h => by cases h) (fun h => h.2.2 hseen)
  next hseen => exact iff_of_true rfl ⟨hzone, hage, hseen⟩

/-- The gate while the breaker holds no pause. -/
theorem shouldEmit_notPaused {cfg : Settings} {x : Setup} (h : NotPaused cfg c now load nowMs) :
    (c.shouldEmit cfg x now load nowMs).1.state = c.state.releaseExpiredDirections now ∧
      ((c.shouldEmit cfg x now load nowMs).2 = .ok none ↔
        x.dirKey cfg.multiTfIndependentPositions ∉
            (c.state.releaseExpiredDirections now).openKeys ∧
          SignalEngine.shouldEmit (c.state.releaseExpiredDirections now) x now
            (rejectionStaleHours x.ltfInterval) cfg.maxSignalCountPerZone = none) := by
  have hstate : (c.maybeRollover cfg now load nowMs).1.state = c.state := maybeRollover_state
  obtain ⟨hready, hfree⟩ := h
  unfold Coordinator.shouldEmit
  generalize c.maybeRollover cfg now load nowMs = rolled at hstate hready hfree
  obtain ⟨c', e⟩ := rolled
  dsimp only at hstate hready hfree
  subst hready
  have hpaused : ({ c' with state := c'.state.releaseExpiredDirections now } :
      Coordinator).pausedMinutes now = none := hfree
  dsimp only
  rw [hpaused, hstate]
  dsimp only
  split
  · next hopen =>
      exact ⟨rfl, iff_of_false (fun h => by cases h) (fun h => h.1 (of_decide_eq_true hopen))⟩
  · next hopen =>
      refine ⟨rfl, ?_⟩
      rw [Except.ok.injEq]
      exact ⟨fun hrules => ⟨fun hmem => hopen (decide_eq_true hmem), hrules⟩, fun h => h.2⟩

/-! ## Both together -/

theorem Corresponds.allowed_iff (h : Corresponds v.pairCurrentTs c.state st)
    (hmulti : b.profile.multiTfIndependentPositions = b.cfg.multiTfIndependentPositions)
    (hpause : NotPaused b.cfg c v.pairCurrentTs load nowMs) (z : HtfRange) (r : RejectionCandle) :
    (c.shouldEmit b.cfg (b.setup v z r) v.pairCurrentTs load nowMs).2 = .ok none ↔
      Passes b v z r st := by
  have hzone : (b.zoneKey v.pair z ∈ st.deadZones ∨
      b.cfg.maxSignalCountPerZone ≤ st.zoneSignalCounts (b.zoneKey v.pair z)) ↔
      ((b.setup v z r).zoneKey ∈ c.state.deadZones ∨
        b.cfg.maxSignalCountPerZone ≤ c.state.zoneSignalCounts (b.setup v z r).zoneKey) := by
    rw [h.dead_iff, h.counts_eq, zoneKey_liveKey b v z r]
  have hage := staleMs_lt_iff v.pair.2 (v.pairCurrentTs - r.timestamp)
  rw [(shouldEmit_notPaused hpause).2, shouldEmit_eq_none_iff, setup_dirKey hmulti, ← h.locks_iff]
  constructor
  · rintro ⟨hlock, hlimit, hstale, hseen⟩
    exact ⟨fun hdead => hlimit (hzone.mp hdead), h.seen_eq ▸ hseen, hlock,
      fun hold => hstale (hage.mp hold)⟩
  · intro hpass
    refine ⟨hpass.lock, fun hdead => hpass.zone (hzone.mpr hdead), fun hold => hpass.age
      (hage.mpr hold), ?_⟩
    have hseen := hpass.rejection
    rwa [h.seen_eq] at hseen

/-- A lock that is registered has no release time, so it is held like the others. -/
theorem mem_openKeys_register_release {x : Setup} {multi : Bool} {maxSignalCount : ℕ}
    (k : DirKey) :
    k ∈ (((d.releaseExpiredDirections now).register x multi
        maxSignalCount).1.releaseExpiredDirections now).openKeys ↔
      k = x.dirKey multi ∨ k ∈ (d.releaseExpiredDirections now).openKeys := by
  have hheld : ∀ e ∈ ((d.releaseExpiredDirections now).register x multi maxSignalCount).1.openDir,
      ∀ ts, e.2 = some ts → ¬ ts ≤ now := by
    intro e he
    rcases mem_of_mem_put he with rfl | he
    · exact fun ts hts => by cases hts
    · exact of_decide_eq_true (List.mem_filter.mp he).2
  have hkeep : ((d.releaseExpiredDirections now).register x multi
      maxSignalCount).1.releaseExpiredDirections now =
      ((d.releaseExpiredDirections now).register x multi maxSignalCount).1 := by
    rw [DedupState.releaseExpiredDirections,
      List.filter_eq_self.mpr fun e he => decide_eq_true (hheld e he)]
  rw [hkeep]
  exact mem_openKeys_register k

/-- Registering on both sides, with the attempt number both compute. -/
theorem Corresponds.register (h : Corresponds v.pairCurrentTs d st)
    (hmulti : b.profile.multiTfIndependentPositions = b.cfg.multiTfIndependentPositions)
    (hs : s.zoneAttempt = st.zoneSignalCounts (b.zoneKey v.pair z) + 1)
    (hr : s.rejectionCandle = r) (analysisClose : ℤ) (res : BacktestResult) :
    ((d.releaseExpiredDirections v.pairCurrentTs).register (b.setup v z r)
        b.cfg.multiTfIndependentPositions b.cfg.maxSignalCountPerZone).2 = s.zoneAttempt ∧
      Corresponds v.pairCurrentTs
        ((d.releaseExpiredDirections v.pairCurrentTs).register (b.setup v z r)
          b.cfg.multiTfIndependentPositions b.cfg.maxSignalCountPerZone).1
        (b.record analysisClose v.pair z s res st) := by
  have hattempt : d.zoneSignalCounts (b.setup v z r).zoneKey + 1 = s.zoneAttempt := by
    rw [hs, h.counts_eq, zoneKey_liveKey b v z r]
  have hkey : ∀ k : BacktestZone, k = b.zoneKey v.pair z ↔ k.liveKey = (b.setup v z r).zoneKey := by
    intro k
    rw [← zoneKey_liveKey b v z r]
    exact liveKey_injective.eq_iff.symm
  refine ⟨hattempt, ⟨fun k => ?_, fun k => ?_, ?_, fun k => ?_⟩⟩
  · rw [mem_deadZones_register]
    dsimp only [Backtest.record, DedupState.releaseExpiredDirections]
    rw [hattempt, ← h.dead_iff, ← hkey]
    by_cases hlimit : b.cfg.maxSignalCountPerZone ≤ s.zoneAttempt
    · rw [if_pos (decide_eq_true hlimit), Finset.mem_insert, or_comm,
        and_iff_left hlimit]
    · rw [if_neg (by simpa using hlimit), iff_false_intro hlimit, and_false, or_false]
  · rw [register_counts]
    dsimp only [Backtest.record, DedupState.releaseExpiredDirections]
    by_cases hk : k = b.zoneKey v.pair z
    · subst hk
      rw [Function.update_self, zoneKey_liveKey b v z r, if_pos rfl]
      exact hattempt.symm
    · rw [Function.update_of_ne hk, if_neg (fun heq => hk ((hkey k).mpr heq.symm)), Nat.add_zero]
      exact h.counts_eq k
  · rw [register_seenRej]
    dsimp only [Backtest.record, DedupState.releaseExpiredDirections]
    rw [h.seen_eq, hr]
    rfl
  · rw [mem_openKeys_register_release, setup_dirKey hmulti, ← h.locks_iff]
    dsimp only [Backtest.record]
    by_cases hk : k = b.dirKey v.pair z.signalDirection
    · subst hk
      rw [Function.update_self]
      exact iff_of_true rfl (Or.inl rfl)
    · rw [Function.update_of_ne hk, or_iff_right hk]

/-- **One gate**: with corresponding tables and no pause, the live engine allows exactly the
    candidates that pass the backtest's tests, and registering the signal on both sides gives the
    same attempt and corresponding tables again. -/
theorem sameGate (h : Corresponds v.pairCurrentTs c.state st)
    (hmulti : b.profile.multiTfIndependentPositions = b.cfg.multiTfIndependentPositions)
    (hpause : NotPaused b.cfg c v.pairCurrentTs load nowMs) (z : HtfRange) (r : RejectionCandle) :
    let asked := c.shouldEmit b.cfg (b.setup v z r) v.pairCurrentTs load nowMs
    (asked.2 = .ok none ↔ Passes b v z r st) ∧
      ∀ s, b.signalFor v z r st = some s → ∀ analysisClose res,
        (asked.1.registerSignal b.cfg (b.setup v z r)).2 = s.zoneAttempt ∧
          Corresponds v.pairCurrentTs (asked.1.registerSignal b.cfg (b.setup v z r)).1.state
            (b.record analysisClose v.pair z s res st) := by
  refine ⟨h.allowed_iff hmulti hpause z r, fun s hs analysisClose res => ?_⟩
  have hregister := h.register hmulti (signalFor_attempt hs) (signalFor_trade hs).1 analysisClose
    res
  unfold Coordinator.registerSignal
  dsimp only
  rw [(shouldEmit_notPaused hpause).1]
  exact hregister

/-! A zone that has emitted once: its rejection is seen, and its lock ends at `7200000`. -/

def onceBacktest : Backtest where
  cfg := { sampleSettings with maxSignalCountPerZone := 2 }
  symbol := "XAUUSD"
  pairs := [(oneHour, fiveMin)]
  pairs_ne := samplePair_ne
  profileOf := fun _ _ => sampleProfile

def onceLive : Coordinator where
  sessionDay := 0
  state :=
    { zoneSignalCounts := Function.update (fun _ => 0) ⟨"XAUUSD", oneHour, fiveMin, 0, .long⟩ 1
      seenRej := {⟨"XAUUSD", oneHour, fiveMin, 3600000⟩}
      openDir := [(⟨"XAUUSD", .long, some (oneHour, fiveMin)⟩, some 7200000)] }

def onceTables : BacktestState where
  zoneSignalCounts := Function.update (fun _ => 0) ⟨"XAUUSD", oneHour, fiveMin, 0, .bullish⟩ 1
  seenRej := {⟨"XAUUSD", oneHour, fiveMin, 3600000⟩}

def onceView : LtfView := ⟨(oneHour, fiveMin), none, 7500000, 0, [], fun _ => 0⟩

theorem once_corresponds : Corresponds 7500000 onceLive.state onceTables where
  dead_iff := fun k => by simp [onceLive, onceTables]
  counts_eq := fun k => by
    by_cases hk : k = ⟨"XAUUSD", oneHour, fiveMin, 0, .bullish⟩
    · subst hk
      decide
    · have hlive : k.liveKey ≠ ⟨"XAUUSD", oneHour, fiveMin, 0, .long⟩ :=
        fun heq => hk (liveKey_injective heq)
      simp [onceLive, onceTables, Function.update_of_ne hk, Function.update_of_ne hlive]
  seen_eq := rfl
  locks_iff := fun k => iff_of_false (by simp [onceTables]) (by
    have hfree : (onceLive.state.releaseExpiredDirections 7500000).openKeys = [] := by decide
    simp [hfree])

theorem once_allowed :
    Passes onceBacktest onceView sampleRange sampleRejection onceTables ∧
      (onceLive.shouldEmit onceBacktest.cfg
        (onceBacktest.setup onceView sampleRange sampleRejection) 7500000 (fun _ => []) 0).2 =
        .ok none := by
  have hpass : Passes onceBacktest onceView sampleRange sampleRejection onceTables := by
    decide +kernel
  exact ⟨hpass, (sameGate (b := onceBacktest) (v := onceView) once_corresponds rfl
    ⟨rfl, by decide⟩ sampleRange sampleRejection).1.mpr hpass⟩

end SignalEngine
