/-
  Run: the live engine along a backtest run.

  Model. The operations of a backtest run are read as calls of the live engine: the expiry of
  the locks at a master candle is the tick of the watchlist at its close, a visit of a pair is
  the analysis of the pair, in the order of `tf_pairs`. `InStep` relates the two states after
  the same operations, up to the candle time `t`.

  Proved: `live_follows`: along any prefix of a run, the live engine has emitted the
  backtest's signals in their order, it has told the end of exactly the trades that the
  backtest has closed by then, with the backtest's results, and it watches the others.
-/
import SignalEngine.Backtest.EmitTiming
import SignalEngine.Lib.Parts
import SignalEngine.Parity.Turn
import SignalEngine.Services.LockSafety

namespace SignalEngine

open Lib

/-! ## The live side of a run -/

/-- What the live engine is given at each analysis close. -/
structure LiveSide where
  profileOf : String → Interval → Interval → AssetProfile
  raises : ℕ → Bool
  clock : ℤ → SignalId → ℤ
  fetch : ℤ → FetchRange
  now : ℤ → ℤ
  io : ℤ → Interval × Interval → PairInputs

/-- The call of the live engine that stands for an operation of the backtest. -/
def LiveSide.call (L : LiveSide) (b : Backtest) : BacktestOp → ServiceCall
  | .expireLocks c =>
      .evaluateGroup (L.clock (b.analysisClose c)) b.symbol b.masterLtf
        (L.fetch (b.analysisClose c)) (L.now (b.analysisClose c))
  | .visit c pair =>
      .analyzePair b.symbol pair.1 pair.2 (b.analysisClose c) (L.io (b.analysisClose c) pair)

/-- A new process after the calls for these operations. -/
def LiveSide.run (L : LiveSide) (b : Backtest) (c₀ : Coordinator) (ops : List BacktestOp) :
    Service :=
  Service.run b.cfg L.profileOf L.raises { coordinator := c₀ } (ops.map (L.call b))

/-- The live engine finds the rejection of an emission fresh enough. -/
def LiveSide.Timely (L : LiveSide) (b : Backtest) (e : Emission) : Prop :=
  (L.io e.analysisClose e.pair).realNow e.signal.htfRange -
    (e.signal.rejectionCandle.timestamp + intervalMs b.masterLtf) ≤ b.cfg.maxEmitLagMs

instance (L : LiveSide) (b : Backtest) (e : Emission) : Decidable (L.Timely b e) :=
  inferInstanceAs (Decidable (_ ≤ _))

/-- The candle time a run has come to. -/
def reachedTime (ops : List BacktestOp) : ℤ := (ops.getLast?.map BacktestOp.time).getD 0

/-- The two states after the same operations, up to the candle time `t`. -/
structure InStep (b : Backtest) (D : History) (t : ℤ) (st : Service) (bst : BacktestState) :
    Prop where
  tables : Corresponds t st.coordinator.state bst
  locks : LockInv b.cfg st
  emitted_eq : (liveEmitted st.events).map TradeSignal.bare = bst.results.map Emission.signal
  watched_eq : st.watchlist.map TradeSignal.bare =
    bst.results.filterMap fun e => staying (b.playedTo D t e)
  ended_perm : ((liveEnded st.events).map TradeSignal.bare).Perm
    (bst.results.filterMap fun e => ending (b.playedTo D t e))
  booked : ∀ e ∈ bst.results, BookedTrade b D e
  past : ∀ e ∈ bst.results, pairCurrentTs b.masterLtf e.analysisClose ≤ t

/-- What the live engine is given along the operations: at each master candle a tick that ends
    there and reads the history, for each analysis its part of the history, and no pause of the
    circuit breaker. -/
structure LiveFed (b : Backtest) (D : History) (L : LiveSide) (c₀ : Coordinator)
    (ops : List BacktestOp) : Prop where
  fetches : ∀ m, .expireLocks m ∈ ops →
    FetchesRange b.masterLtf (D.master b) (L.fetch (b.analysisClose m))
  ticks : ∀ m, .expireLocks m ∈ ops →
    lastClosedOpen b.masterLtf (L.now (b.analysisClose m)) = m.timestamp
  fed : ∀ m pair, .visit m pair ∈ ops →
    PairFed b D pair (b.analysisClose m) (L.io (b.analysisClose m) pair)
  free : ∀ done m pair, done ++ [.visit m pair] <+: ops → ∀ z,
    NotPaused b.cfg (L.run b c₀ done).coordinator m.timestamp
      (L.io (b.analysisClose m) pair).load ((L.io (b.analysisClose m) pair).streakNow z)

/-- The live engine follows the backtest up to the candle time `t`: its tables are the
    backtest's, it has emitted the same signals, it watches the trades that have not closed by
    `t`, each as its candles leave it, and it has told the ends of the others. -/
structure FollowsBacktest (b : Backtest) (D : History) (t : ℤ) (st : Service)
    (bst : BacktestState) : Prop where
  tables : Corresponds t st.coordinator.state bst
  emitted_eq : (liveEmitted st.events).map TradeSignal.bare = bst.results.map Emission.signal
  watched_eq : st.watchlist.map TradeSignal.bare =
    (bst.results.filter fun e => !decide (e.result.ClosedBy t)).map fun e =>
      (b.playedTo D t e).1
  ended_perm : ((liveEnded st.events).map TradeSignal.bare).Perm
    ((bst.results.filter fun e => decide (e.result.ClosedBy t)).map fun e => e.result.signal)

variable {b : Backtest} {D : History} {L : LiveSide} {c₀ : Coordinator} {t : ℤ} {e : Emission}
  {st st' : Service} {bst bst' bst₁ : BacktestState} {ops : List BacktestOp} {m : Candle}
  {pair : Interval × Interval} {s : TradeSignal} {z : HtfRange} {res : BacktestResult}
  {profileOf : String → Interval → Interval → AssetProfile} {fetch : FetchRange} {now : ℤ}
  {fetched : List Candle}

/-! ## What a visit books -/

/-- A signal of the zone loop with what its visit makes of it. -/
theorem signalFor_booked {v : LtfView} {r : RejectionCandle} (hpair : v.pair ∈ b.pairs)
    (hltf : v.pair.2 = b.masterLtf)
    (hsource : (b.profileOf v.pair.1 v.pair.2).signalPriceSource = .candleClose)
    (hs : b.signalFor v z r bst = some s) (analysisClose : ℤ) (res : BacktestResult)
    (hsetup : ∃ c ∈ D.master b, c.timestamp = r.timestamp ∧
      c.timestamp ≤ pairCurrentTs b.masterLtf analysisClose)
    (hsim : simulate (b.profileOf v.pair.1 v.pair.2) b.trailingGivebackPct s
      ((D.master b).filter fun c =>
        decide (pairCurrentTs b.masterLtf analysisClose < c.timestamp)) = .ok res) :
    BookedTrade b D ⟨analysisClose, s, res⟩ := by
  unfold Backtest.signalFor at hs
  split at hs
  · cases hs
  split at hs
  · cases hs
  split at hs
  · cases hs
  obtain ⟨built, hbuilt, rfl⟩ := Option.map_eq_some_iff.mp hs
  rw [evaluateSetup_signal] at hbuilt
  have hmarks := buildSignal_marks hsource b.symbol v.pair.1 v.pair.2 z r
    ⟨b.symbol, v.pair.1, v.pair.2, r.timestamp, z.signalDirection⟩ "" none none
  rw [hbuilt, Option.map_some, Option.some.injEq] at hmarks
  have hb := buildSignal_eq_some hbuilt
  have hof : (built.htfInterval, built.ltfInterval) = v.pair :=
    Prod.ext hb.htfInterval_eq hb.ltfInterval_eq
  exact
    { fresh := ⟨hb.fresh.1, hb.fresh.2, hb.fresh.3, hb.fresh.4, hb.fresh.5, hb.fresh.6,
        hb.fresh.7, hb.fresh.8, hb.fresh.9⟩
      bare_eq := congrArg (fun s : TradeSignal =>
        { s with
          setupCandleOpenAt := some r.timestamp
          setupCandleCloseAt := some (r.timestamp + intervalMs v.pair.2)
          zoneAttempt := bst.zoneSignalCounts (b.zoneKey v.pair z) + 1 }) hmarks
      symbol_eq := hb.symbol_eq
      pair_mem := hof.symm ▸ hpair
      named := hb.id_named
      createdAt_eq := hb.createdAt_eq.trans (congrArg _ hb.rejectionCandle_eq.symm)
      triggeredAt_eq := by
        rw [← hltf]
        exact hb.triggeredAt_eq.trans (by rw [← hb.createdAt_eq])
      setup_mem := by
        rw [← hb.createdAt_eq] at hsetup
        exact hsetup
      simulated := by
        have hprofile : b.profileOf built.htfInterval built.ltfInterval =
            b.profileOf v.pair.1 v.pair.2 := by rw [← hof]
        rw [← hprofile] at hsim
        exact hsim }

theorem booked_of_scan (hist : SameHistory b D) (rules : SameRules b profileOf)
    (hops : ops ++ [.visit m pair] <+: b.schedule D)
    (hrun : b.runOps D ops = .ok bst) (hstable : StableZones b D (ops ++ [.visit m pair]))
    (hscan : b.scan D (b.analysisClose m) pair bst = .ok (bst₁, some (z, s)))
    (hsim : simulate (b.profileOf pair.1 pair.2) b.trailingGivebackPct s
      (backtestFeed pair.2 (D.ltfCandles pair.2) (b.analysisClose m)) = .ok res) :
    BookedTrade b D ⟨b.analysisClose m, s, res⟩ := by
  obtain ⟨before, pre, post, hbefore, hpairs, -⟩ := schedule_split hops
  have hpair : pair ∈ b.pairs := by rw [hpairs]; simp
  have hltf := hist.ltf_eq pair hpair
  obtain ⟨r, hlooks, hs⟩ := scan_eq_some_iff.mp hscan
  obtain ⟨ca, bias, zones, pre', post', bst₀, score, hstage, hhi, hzones, hpre, -, -, hrej⟩ :=
    hlooks
  have hfresh := freshTurn_of_stable hist.sorted hops hrun hstable hstage hzones hpre
  have hentry := hfresh.entry_eq.symm.trans (congrArg Prod.snd hrej)
  obtain ⟨c, hc, hat⟩ := findEntry_mem hentry
  have hsorted : SortedBy Candle.timestamp (D.ltfCandles pair.2) := hist.sorted.ltf pair.2
  have hfeed : backtestFeed pair.2 (D.ltfCandles pair.2) (b.analysisClose m) =
      (D.ltfCandles pair.2).filter fun d =>
        decide (pairCurrentTs pair.2 (b.analysisClose m) < d.timestamp) := by
    rw [backtestFeed, Nat.sub_add_cancel (Nat.one_le_iff_ne_zero.mpr hhi), ltfHiIdx,
      drop_bisectRight hsorted]
  have hvisible := List.mem_of_mem_drop hc
  rw [History.ltfView] at hvisible
  dsimp only at hvisible
  rw [ltfHiIdx, take_bisectRight hsorted] at hvisible
  obtain ⟨hmem, hle⟩ := List.mem_filter.mp hvisible
  have hle := of_decide_eq_true hle
  rw [hfeed] at hsim
  have hmaster : D.ltfCandles pair.2 = D.master b := by rw [hltf, History.master]
  rw [hmaster, show pairCurrentTs pair.2 = pairCurrentTs b.masterLtf by rw [hltf]] at hsim
  rw [hmaster] at hmem
  rw [hltf] at hle
  exact signalFor_booked hpair hltf (rules.source pair hpair) hs (b.analysisClose m) res
    ⟨c, hmem, hat.symm, hle⟩ hsim

/-! ## Which trades run on -/

/-- A trade runs on at `t` exactly when the backtest's lock outlasts `t`. -/
theorem running_iff (hist : SameHistory b D) (rules : SameRules b profileOf)
    (hbooked : BookedTrade b D e) (hfair : FairTrade b D e)
    (ht : ∃ c ∈ D.master b, t ≤ c.timestamp) :
    (b.playedTo D t e).2 = false ↔ t < b.heldUntil e := by
  have hover := (playedTo_over (hist.sorted.ltf b.masterLtf) hist.valid rules.pct hbooked hfair
    t).1
  rw [← Bool.not_eq_true, hover]
  cases hclose : e.result.closeTs with
  | none =>
      obtain ⟨c, hc, hle⟩ := ht
      refine iff_of_true ?_ (hle.trans_lt (hfair.unended hclose c hc))
      rintro ⟨ts, hts, -⟩
      rw [hclose] at hts
      cases hts
  | some ts =>
      obtain ⟨c, hc, rfl⟩ := closeTs_mem hbooked.fresh.running hbooked.simulated hclose
      have hpos := hist.positive c (List.mem_of_mem_filter hc)
      have hheld : b.heldUntil e = c.timestamp := by
        rw [Backtest.heldUntil, Backtest.lockUntil, hclose, pyOr, Option.getD_some,
          if_pos hpos.ne']
      rw [hheld, ← not_le]
      refine not_congr ⟨?_, fun hle => ⟨c.timestamp, hclose, hle⟩⟩
      rintro ⟨ts, hts, hle⟩
      rw [hclose] at hts
      cases hts
      exact hle

theorem sameTrade_bare (s : TradeSignal) : SameTrade s.bare s := by
  constructor <;> rfl

/-- A watched signal is a trade of the backtest that runs on. -/
theorem mem_watched (hw : st.watchlist.map TradeSignal.bare =
      bst.results.filterMap fun e => staying (b.playedTo D t e)) (hs : s ∈ st.watchlist) :
    ∃ e ∈ bst.results, (b.playedTo D t e).2 = false ∧ SameTrade e.signal s := by
  have hmem : s.bare ∈ st.watchlist.map TradeSignal.bare := List.mem_map_of_mem hs
  rw [hw] at hmem
  obtain ⟨e, he, hstay⟩ := List.mem_filterMap.mp hmem
  unfold staying at hstay
  split at hstay
  · cases hstay
  next hrun =>
  have hsame : SameTrade e.signal (b.playedTo D t e).1 := loop_sameTrade e.signal _
  rw [Option.some.inj hstay] at hsame
  exact ⟨e, he, Bool.not_eq_true _ ▸ hrun, hsame.trans (sameTrade_bare s)⟩

/-- A trade of the backtest that runs on is watched. -/
theorem watched_of_mem (hw : st.watchlist.map TradeSignal.bare =
      bst.results.filterMap fun e => staying (b.playedTo D t e)) (he : e ∈ bst.results)
    (hrun : (b.playedTo D t e).2 = false) : ∃ s ∈ st.watchlist, SameTrade e.signal s := by
  have hmem : (b.playedTo D t e).1 ∈ st.watchlist.map TradeSignal.bare := by
    rw [hw]
    refine List.mem_filterMap.mpr ⟨e, he, ?_⟩
    rw [staying, hrun, if_neg Bool.false_ne_true]
  obtain ⟨s, hs, hbare⟩ := List.mem_map.mp hmem
  have hsame : SameTrade e.signal (b.playedTo D t e).1 := loop_sameTrade e.signal _
  rw [← hbare] at hsame
  exact ⟨s, hs, hsame.trans (sameTrade_bare s)⟩

theorem lockKey_eq_lockOf (hmulti : b.profile.multiTfIndependentPositions =
      b.cfg.multiTfIndependentPositions) (hbooked : BookedTrade b D e)
    (hsame : SameTrade e.signal s) : lockKey b.cfg s = b.lockOf e := by
  rw [hsame.lockKey_eq, Backtest.lockOf, Backtest.dirKey, hmulti, lockKey, hbooked.symbol_eq]
  rfl

/-- The locks of the watched signals are those of the trades that run on. -/
theorem mem_locks_iff (hw : st.watchlist.map TradeSignal.bare =
      bst.results.filterMap fun e => staying (b.playedTo D t e))
    (hmulti : b.profile.multiTfIndependentPositions = b.cfg.multiTfIndependentPositions)
    (hbooked : ∀ e ∈ bst.results, BookedTrade b D e) (k : DirKey) :
    k ∈ st.watchlist.map (lockKey b.cfg) ↔
      ∃ e ∈ bst.results, (b.playedTo D t e).2 = false ∧ b.lockOf e = k := by
  rw [List.mem_map]
  constructor
  · rintro ⟨s, hs, rfl⟩
    obtain ⟨e, he, hrun, hsame⟩ := mem_watched hw hs
    exact ⟨e, he, hrun, (lockKey_eq_lockOf hmulti (hbooked e he) hsame).symm⟩
  · rintro ⟨e, he, hrun, rfl⟩
    obtain ⟨s, hs, hsame⟩ := watched_of_mem hw he hrun
    exact ⟨s, hs, lockKey_eq_lockOf hmulti (hbooked e he) hsame⟩

/-! ## One tick -/

theorem fetchedClosed_eq {ltf : Interval} {cs : List Candle} (hfetch : FetchesRange ltf cs fetch)
    (oldestTs now : ℤ) : fetchedClosed fetch ltf oldestTs now =
      cs.filter fun c =>
        decide (oldestTs ≤ c.timestamp ∧ c.timestamp ≤ lastClosedOpen ltf now) := by
  have hrange := hfetch oldestTs (lastClosedOpen ltf now + intervalMs ltf)
  rw [fetchedClosed]
  refine (List.filter_congr fun c _ => ?_).trans
    (hrange.trans (List.filter_congr fun c _ => ?_)) <;> simp

/-- The tick reads every candle that a running trade has to read. -/
theorem InStep.tick_turn (h : InStep b D t st bst) (hist : SameHistory b D)
    (rules : SameRules b profileOf) (hm : m ∈ D.master b) (ht : t < m.timestamp)
    (hfetch : FetchesRange b.masterLtf (D.master b) fetch)
    (hnow : lastClosedOpen b.masterLtf now = m.timestamp) (raises : ℕ → Bool)
    (clock : SignalId → ℤ) :
    ∃ fetched, (∀ e ∈ bst.results, (b.playedTo D t e).2 = false →
        newerCandles e.signal fetched = newerCandles e.signal (D.masterTo b m.timestamp)) ∧
      WatchTurn st
        (st.evaluateGroup b.cfg profileOf raises clock b.symbol b.masterLtf fetch now).1
        (st.watchlist.filterMap fun s => staying (playedBy profileOf fetched s))
        (st.watchlist.filterMap fun s => ending (playedBy profileOf fetched s)) := by
  by_cases hw : st.watchlist = []
  · refine ⟨D.masterTo b m.timestamp, fun e he hrun => rfl, ?_⟩
    have hrefl := WatchTurn.refl st
    rw [hw] at hrefl
    rw [Service.evaluateGroup, Service.group, hw]
    exact hrefl
  have hltf : ∀ e ∈ bst.results, e.signal.ltfInterval = b.masterLtf :=
    fun e he => hist.ltf_eq e.pair (h.booked e he).pair_mem
  have hentered : ∀ e ∈ bst.results,
      e.signal.triggeredAt.getD 0 = e.signal.createdAt + intervalMs b.masterLtf := by
    intro e he
    rw [(h.booked e he).triggeredAt_eq, Option.getD_some]
  have hpos := intervalMs_pos b.masterLtf
  obtain ⟨oldestTs, hmin⟩ : ∃ a, (st.watchlist.map TradeSignal.createdAt).min? = some a := by
    refine Option.isSome_iff_exists.mp (Option.isSome_iff_ne_none.mpr fun hnone => hw ?_)
    exact List.map_eq_nil_iff.mp (List.min?_eq_none_iff.mp hnone)
  obtain ⟨hmem, hleast⟩ := List.min?_eq_some_iff.mp hmin
  have hclosed := fetchedClosed_eq hfetch oldestTs now
  rw [hnow] at hclosed
  refine ⟨fetchedClosed fetch b.masterLtf oldestTs now, fun e he hrun => ?_, ?_⟩
  · obtain ⟨s, hs, hsame⟩ := watched_of_mem h.watched_eq he hrun
    have hold := hleast s.createdAt (List.mem_map_of_mem hs)
    rw [hsame.createdAt_eq] at hold
    have hentry := hentered e he
    rw [newerCandles, newerCandles, hclosed, History.masterTo, List.filter_filter,
      List.filter_filter]
    refine List.filter_congr fun c _ => ?_
    rw [← Bool.decide_and, ← Bool.decide_and, decide_eq_decide]
    omega
  · refine evaluateGroup_turn rules.losses h.locks.toWatching (fun s hs => ?_) hmin
      (fun c hc => ?_) ?_
    · obtain ⟨e, he, -, hsame⟩ := mem_watched h.watched_eq hs
      exact ⟨hsame.symbol_eq.trans (h.booked e he).symbol_eq,
        hsame.ltfInterval_eq.trans (hltf e he)⟩
    · rw [hclosed] at hc
      exact hist.valid c (List.mem_of_mem_filter hc)
    · obtain ⟨s, hs, rfl⟩ := List.mem_map.mp hmem
      obtain ⟨e, he, -, hsame⟩ := mem_watched h.watched_eq hs
      obtain ⟨c, hc, hat, hle⟩ := (h.booked e he).setup_mem
      have hpast := h.past e he
      have hcreated := hsame.createdAt_eq
      have hin : ∀ d ∈ D.master b, d = c ∨ d = m →
          d ∈ fetchedClosed fetch b.masterLtf s.createdAt now := by
        intro d hd hcase
        rw [hclosed]
        refine List.mem_filter.mpr ⟨hd, decide_eq_true ?_⟩
        rcases hcase with rfl | rfl <;> constructor <;> omega
      have hne : c ≠ m := by
        rintro rfl
        omega
      exact two_le_length_of_ne (hin c hc (Or.inl rfl)) (hin m hm (Or.inr rfl)) hne

/-- The tick takes a running trade to its next reading. -/
theorem playedBy_next (hist : SameHistory b D) (rules : SameRules b profileOf)
    (hbooked : BookedTrade b D e) (hfair : FairTrade b D e) (hm : m ∈ D.master b)
    (ht : t < m.timestamp) (hpast : pairCurrentTs b.masterLtf e.analysisClose ≤ t)
    (hfetched : newerCandles e.signal fetched =
      newerCandles e.signal (D.masterTo b m.timestamp))
    (hrun : (b.playedTo D t e).2 = false) :
    playedBy profileOf fetched (b.playedTo D t e).1 = b.playedTo D m.timestamp e := by
  have hsame : SameTrade e.signal (b.playedTo D t e).1 := loop_sameTrade e.signal _
  have hprofile : profileOf (b.playedTo D t e).1.symbol (b.playedTo D t e).1.htfInterval
      (b.playedTo D t e).1.ltfInterval = b.profileFor e := by
    rw [hsame.symbol_eq, hsame.htfInterval_eq, hsame.ltfInterval_eq, hbooked.symbol_eq]
    exact rules.profile_eq e.pair hbooked.pair_mem
  obtain ⟨c, hc, -, hle⟩ := hbooked.setup_mem
  have hne : c ≠ m := by
    rintro rfl
    omega
  have hcs : c ∈ D.masterTo b m.timestamp := List.mem_filter.mpr ⟨hc, decide_eq_true (by omega)⟩
  have hms : m ∈ D.masterTo b m.timestamp := List.mem_filter.mpr ⟨hm, decide_eq_true le_rfl⟩
  rw [playedBy, hprofile]
  exact played_next hbooked.fresh.status_eq
    (masterTo_isPrefix (hist.sorted.ltf b.masterLtf) ht.le) hfetched
    (two_le_length_of_ne hcs hms hne) (fun d hd => hist.valid d (List.mem_of_mem_filter hd))
    (hfair.reread t) hrun

/-- What a tick makes of the watched signals, read off the trades. -/
theorem InStep.carried (h : InStep b D t st bst) {G : TradeSignal × Bool → Option TradeSignal}
    (hG : ∀ r, G (r.1.bare, r.2) = (G r).map TradeSignal.bare) (fetched : List Candle) :
    (st.watchlist.filterMap fun s => G (playedBy profileOf fetched s)).map TradeSignal.bare =
      bst.results.filterMap fun e =>
        (staying (b.playedTo D t e)).bind fun x => G (playedBy profileOf fetched x) := by
  have hbare : ∀ s : TradeSignal, (G (playedBy profileOf fetched s)).map TradeSignal.bare =
      G (playedBy profileOf fetched s.bare) := by
    intro s
    rw [← hG]
    exact congrArg G (played_bare _ fetched s).symm
  have hfold := (List.filterMap_map (f := TradeSignal.bare)
    (g := fun x => G (playedBy profileOf fetched x)) (l := st.watchlist)).symm
  rw [h.watched_eq, List.filterMap_filterMap] at hfold
  rw [List.map_filterMap, ← hfold]
  exact List.filterMap_congr fun s _ => hbare s

theorem staying_bare (r : TradeSignal × Bool) :
    staying (r.1.bare, r.2) = (staying r).map TradeSignal.bare := by
  unfold staying
  dsimp only
  split <;> rfl

theorem ending_bare (r : TradeSignal × Bool) :
    ending (r.1.bare, r.2) = (ending r).map TradeSignal.bare := by
  unfold ending
  dsimp only
  split <;> rfl

section Carried

variable {t' : ℤ}
  (hover : ∀ e ∈ bst.results, (b.playedTo D t e).2 = true →
    b.playedTo D t' e = b.playedTo D t e)
  (hnext : ∀ e ∈ bst.results, (b.playedTo D t e).2 = false →
    playedBy profileOf fetched (b.playedTo D t e).1 = b.playedTo D t' e)

include hover hnext

/-- After the tick the trades that still run on are watched. -/
theorem InStep.watched_next (h : InStep b D t st bst)
    (hturn : WatchTurn st st'
      (st.watchlist.filterMap fun s => staying (playedBy profileOf fetched s))
      (st.watchlist.filterMap fun s => ending (playedBy profileOf fetched s))) :
    st'.watchlist.map TradeSignal.bare =
      bst.results.filterMap fun e => staying (b.playedTo D t' e) := by
  rw [hturn.watchlist_eq, h.carried staying_bare]
  refine List.filterMap_congr fun e he => ?_
  cases hrun : (b.playedTo D t e).2 with
  | true => rw [hover e he hrun, staying, hrun, if_pos rfl, Option.bind_none]
  | false =>
      have hstay : staying (b.playedTo D t e) = some (b.playedTo D t e).1 := by
        rw [staying, hrun, if_neg Bool.false_ne_true]
      rw [hstay, Option.bind_some, hnext e he hrun]

/-- After the tick the ends told are those of the trades over by then: the ones told before, and
    the ones the tick has brought. -/
theorem InStep.ended_next (h : InStep b D t st bst)
    (hturn : WatchTurn st st'
      (st.watchlist.filterMap fun s => staying (playedBy profileOf fetched s))
      (st.watchlist.filterMap fun s => ending (playedBy profileOf fetched s))) :
    ((liveEnded st'.events).map TradeSignal.bare).Perm
      (bst.results.filterMap fun e => ending (b.playedTo D t' e)) := by
  rw [hturn.ended_eq, List.map_append, h.carried ending_bare]
  refine (h.ended_perm.append_right _).trans ?_
  have hboth : bst.results.filterMap (fun e => ending (b.playedTo D t' e)) =
      bst.results.filterMap fun e => (ending (b.playedTo D t e)).or
        ((staying (b.playedTo D t e)).bind fun x => ending (playedBy profileOf fetched x)) := by
    refine List.filterMap_congr fun e he => ?_
    cases hrun : (b.playedTo D t e).2 with
    | true =>
        rw [hover e he hrun, ending, staying, hrun, if_pos rfl, if_pos rfl, Option.some_or]
    | false =>
        rw [← hnext e he hrun]
        simp only [ending, staying, hrun, Bool.false_eq_true, if_false, Option.none_or,
          Option.bind_some]
  rw [hboth]
  -- no trade is told twice: an end told before leaves nothing to carry
  refine (filterMap_or_perm fun e _ hsome => ?_).symm
  have hend : (b.playedTo D t e).2 = true := by
    by_contra hrun
    rw [ending, if_neg hrun] at hsome
    cases hsome
  rw [staying, hend, if_pos rfl, Option.bind_none]

end Carried

/-- The locks that the backtest keeps at a master candle are those of the trades that run on. -/
theorem InStep.expireLocks_iff (h : InStep b D t st bst) (hinv : BacktestInv b t bst)
    (hist : SameHistory b D) (rules : SameRules b profileOf)
    (hfair : ∀ e ∈ bst.results, FairTrade b D e) (hm : m ∈ D.master b) (ht : t < m.timestamp)
    (k : DirKey) :
    ((Backtest.expireLocks m bst).openDir k).isSome ↔
      ∃ e ∈ bst.results, (b.playedTo D m.timestamp e).2 = false ∧ b.lockOf e = k := by
  have hnow : ∀ e ∈ bst.results,
      ((b.playedTo D m.timestamp e).2 = false ↔ m.timestamp < b.heldUntil e) :=
    fun e he => running_iff hist rules (h.booked e he) (hfair e he) ⟨m, hm, le_rfl⟩
  have hold : ∀ e ∈ bst.results, ((b.playedTo D t e).2 = false ↔ t < b.heldUntil e) :=
    fun e he => running_iff hist rules (h.booked e he) (hfair e he) ⟨m, hm, ht.le⟩
  rw [Option.isSome_iff_exists]
  constructor
  · rintro ⟨ts, hts⟩
    obtain ⟨hopen, hlater⟩ := Option.filter_eq_some_iff.mp hts
    have hheld := (h.tables.locks_iff k).mp (Option.isSome_iff_exists.mpr ⟨ts, hopen⟩)
    rw [releaseExpiredDirections_of_none h.locks.locks_lasting, h.locks.locks_iff,
      mem_locks_iff h.watched_eq rules.multi h.booked] at hheld
    obtain ⟨e, he, hrun, rfl⟩ := hheld
    have hout := (hold e he).mp hrun
    rcases hinv.held e he with hkept | hpast
    · rw [hopen, Option.some.injEq] at hkept
      subst hkept
      refine ⟨e, he, (hnow e he).mpr ?_, rfl⟩
      simpa using hlater
    · omega
  · rintro ⟨e, he, hrun, rfl⟩
    have hout := (hnow e he).mp hrun
    rcases hinv.held e he with hkept | hpast
    · refine ⟨b.heldUntil e, Option.filter_eq_some_iff.mpr ⟨hkept, ?_⟩⟩
      simpa using hout
    · omega

/-- **One tick**: the watchlist after the tick at a master candle, and the locks that the
    backtest keeps at it. -/
theorem InStep.tick (h : InStep b D t st bst) (hinv : BacktestInv b t bst)
    (hist : SameHistory b D) (rules : SameRules b profileOf)
    (hfair : ∀ e ∈ bst.results, FairTrade b D e) (hm : m ∈ D.master b) (ht : t < m.timestamp)
    (hfetch : FetchesRange b.masterLtf (D.master b) fetch)
    (hnow : lastClosedOpen b.masterLtf now = m.timestamp) (raises : ℕ → Bool)
    (clock : SignalId → ℤ) :
    InStep b D m.timestamp
      (st.evaluateGroup b.cfg profileOf raises clock b.symbol b.masterLtf fetch now).1
      (Backtest.expireLocks m bst) := by
  obtain ⟨fetched, hfetched, hturn⟩ := h.tick_turn hist rules hm ht hfetch hnow raises clock
  have hlocks : LockInv b.cfg
      (st.evaluateGroup b.cfg profileOf raises clock b.symbol b.masterLtf fetch now).1 :=
    h.locks.moves (evaluateGroup_moves profileOf clock b.symbol b.masterLtf fetch now
      h.locks.toWatching)
  generalize (st.evaluateGroup b.cfg profileOf raises clock b.symbol b.masterLtf fetch now).1 =
    st' at hturn hlocks ⊢
  have hnext : ∀ e ∈ bst.results, (b.playedTo D t e).2 = false →
      playedBy profileOf fetched (b.playedTo D t e).1 = b.playedTo D m.timestamp e :=
    fun e he hrun => playedBy_next hist rules (h.booked e he) (hfair e he) hm ht (h.past e he)
      (hfetched e he hrun) hrun
  have hover : ∀ e ∈ bst.results, (b.playedTo D t e).2 = true →
      b.playedTo D m.timestamp e = b.playedTo D t e :=
    fun e _ he => live_of_over (masterTo_isPrefix (hist.sorted.ltf b.masterLtf) ht.le) he
  have hwatched := h.watched_next hover hnext hturn
  have hended := h.ended_next hover hnext hturn
  refine ⟨⟨?_, ?_, ?_, fun k => ?_⟩, hlocks, ?_, hwatched, hended, h.booked, fun e he => ?_⟩
  · intro k
    rw [hturn.deadZones_eq]
    exact h.tables.dead_iff k
  · intro k
    rw [hturn.counts_eq]
    exact h.tables.counts_eq k
  · rw [hturn.seenRej_eq]
    exact h.tables.seen_eq
  · rw [h.expireLocks_iff hinv hist rules hfair hm ht,
      releaseExpiredDirections_of_none hlocks.locks_lasting, hlocks.locks_iff]
    exact (mem_locks_iff hwatched rules.multi h.booked k).symm
  · rw [hturn.emitted_eq]
    exact h.emitted_eq
  · exact (h.past e he).trans ht.le

/-! ## One visit -/

theorem InStep.readyAt (h : InStep b D m.timestamp st bst) (hinv : BacktestInv b m.timestamp bst)
    {io : PairInputs}
    (hfree : ∀ z, NotPaused b.cfg st.coordinator m.timestamp io.load (io.streakNow z)) :
    ReadyAt b m.timestamp io st bst := by
  refine ⟨h.tables, h.locks.locks_lasting, hfree, fun s hs => ?_⟩
  obtain ⟨e, he, -, hsame⟩ := mem_watched h.watched_eq hs
  have hbooked := h.booked e he
  have hkey : s.id.rejKey = b.rejOf e := by
    rw [hsame.id_eq, hbooked.named, Backtest.rejOf, Backtest.rejKey, SignalId.rejKey,
      TradeSignal.namedId, hbooked.symbol_eq]
    rfl
  rw [hkey, hinv.seen_iff]
  exact List.mem_map_of_mem he

/-- A trade that has just been emitted has read nothing yet. -/
theorem playedTo_emitted (hist : SameHistory b D) (hbooked : BookedTrade b D e)
    (hfair : FairTrade b D e) (hclose : pairCurrentTs b.masterLtf e.analysisClose = t) :
    b.playedTo D t e = (e.signal, false) := by
  have hnone : (D.masterTo b t).filter (fun c => decide (t < c.timestamp)) = [] := by
    refine List.filter_eq_nil_iff.mpr fun c hc hlt => ?_
    have hle := of_decide_eq_true (List.mem_filter.mp hc).2
    have hlt := of_decide_eq_true hlt
    omega
  rw [playedTo_eq (hist.sorted.ltf b.masterLtf) hbooked hfair, hclose, hnone]
  rfl

/-- A visit that books nothing. -/
theorem InStep.skipped (h : InStep b D t st bst) (hskip : SkipTurn st st')
    (htables : Corresponds t st'.coordinator.state bst') (hlocks : LockInv b.cfg st')
    (hresults : bst'.results = bst.results) : InStep b D t st' bst' := by
  refine ⟨htables, hlocks, ?_, ?_, ?_, ?_, ?_⟩
  · rw [hskip.emitted_eq, hresults]
    exact h.emitted_eq
  · rw [hskip.watchlist_eq, hresults]
    exact h.watched_eq
  · rw [hskip.ended_eq, hresults]
    exact h.ended_perm
  · rw [hresults]
    exact h.booked
  · rw [hresults]
    exact h.past

/-- A visit that books the trade `e`. -/
theorem InStep.emitted (h : InStep b D t st bst) (hemit : EmitTurn st st' s)
    (htables : Corresponds t st'.coordinator.state bst') (hlocks : LockInv b.cfg st')
    (hresults : bst'.results = bst.results ++ [e]) (hbare : s.bare = e.signal)
    (hbooked : BookedTrade b D e) (hplayed : b.playedTo D t e = (e.signal, false))
    (hpast : pairCurrentTs b.masterLtf e.analysisClose ≤ t) : InStep b D t st' bst' := by
  refine ⟨htables, hlocks, ?_, ?_, ?_, ?_, ?_⟩
  · rw [hemit.emitted_eq, hresults, List.map_append, List.map_append, h.emitted_eq,
      List.map_singleton, List.map_singleton, hbare]
  · rw [hemit.watchlist_eq, hresults, List.map_append, List.filterMap_append, h.watched_eq,
      List.filterMap_cons, hplayed, List.map_singleton, hbare]
    rfl
  · rw [hemit.ended_eq, hresults, List.filterMap_append, List.filterMap_cons, hplayed]
    exact h.ended_perm.trans (List.append_nil _ ▸ List.Perm.refl _)
  · rw [hresults, List.forall_mem_append, List.forall_mem_singleton]
    exact ⟨h.booked, hbooked⟩
  · rw [hresults, List.forall_mem_append, List.forall_mem_singleton]
    exact ⟨h.past, hpast⟩

/-- **One visit**: the analysis of a pair after the visit of the backtest. -/
theorem InStep.visit (h : InStep b D m.timestamp st bst) (hinv : BacktestInv b m.timestamp bst)
    (hist : SameHistory b D) (rules : SameRules b L.profileOf)
    (hops : ops ++ [.visit m pair] <+: b.schedule D) (hrun : b.runOps D ops = .ok bst)
    (hstable : StableZones b D (ops ++ [.visit m pair]))
    (hfed : PairFed b D pair (b.analysisClose m) (L.io (b.analysisClose m) pair))
    (hfree : ∀ z, NotPaused b.cfg st.coordinator m.timestamp (L.io (b.analysisClose m) pair).load
      ((L.io (b.analysisClose m) pair).streakNow z))
    (hv : b.visit D (b.analysisClose m) pair bst = .ok bst')
    (hfair : ∀ e ∈ bst'.results, FairTrade b D e) (htimely : ∀ e ∈ bst'.results, L.Timely b e) :
    InStep b D m.timestamp (st.analyzePair b.cfg L.profileOf L.raises b.symbol pair.1 pair.2
      (b.analysisClose m) (L.io (b.analysisClose m) pair)).1 bst' := by
  have hready := h.readyAt hinv hfree
  have hlocks : LockInv b.cfg (st.analyzePair b.cfg L.profileOf L.raises b.symbol pair.1 pair.2
      (b.analysisClose m) (L.io (b.analysisClose m) pair)).1 :=
    h.locks.moves (analyzePair_moves L.profileOf b.symbol pair.1 pair.2 (b.analysisClose m)
      (L.io (b.analysisClose m) pair))
  rcases visit_cases hv with hscan | ⟨bst₁, z, s, r, hscan, hsim, rfl⟩
  · obtain ⟨st', o, heq, hagree⟩ := scan_turn hist rules hops hrun hstable hfed hready hscan
      (fun z s hfound => by cases hfound) L.raises
    rw [heq] at hlocks ⊢
    have hresults := (scan_onlyCaches hscan).results_eq
    cases hagree with
    | skip hskip hready' => exact h.skipped hskip hready'.tables hlocks hresults
  · have hresults : (b.record (b.analysisClose m) pair z s r bst₁).results =
        bst.results ++ [⟨b.analysisClose m, s, r⟩] := by
      rw [← (scan_onlyCaches hscan).results_eq]
      rfl
    have hnew : (⟨b.analysisClose m, s, r⟩ : Emission) ∈
        (b.record (b.analysisClose m) pair z s r bst₁).results := by
      rw [hresults]
      simp
    have hadmitted := scan_admitted hscan
    have hbooked := booked_of_scan hist rules hops hrun hstable hscan hsim
    have hm : m ∈ D.master b := by
      obtain ⟨before, pre, post, hbefore, -⟩ := schedule_split hops
      exact List.mem_of_mem_drop (hbefore.subset (by simp))
    have hcurrent := (hist.close hm).2
    have hplayed := playedTo_emitted hist hbooked (hfair _ hnew) hcurrent
    have hlag : ∀ z' s', some (z, s) = some (z', s') →
        (L.io (b.analysisClose m) pair).realNow z' -
          (s'.rejectionCandle.timestamp + intervalMs b.masterLtf) ≤ b.cfg.maxEmitLagMs := by
      rintro _ _ ⟨⟩
      have htime := htimely _ hnew
      have hof : (⟨b.analysisClose m, s, r⟩ : Emission).pair = pair := hadmitted.pair_eq
      rw [LiveSide.Timely, hof] at htime
      rw [← hadmitted.htfRange_eq]
      exact htime
    obtain ⟨st', o, heq, hagree⟩ := scan_turn hist rules hops hrun hstable hfed hready hscan
      hlag L.raises
    rw [heq] at hlocks ⊢
    cases hagree with
    | emit hbare hemit htables =>
        exact h.emitted hemit (htables (b.analysisClose m) r) hlocks hresults hbare hbooked hplayed
          hcurrent.le

/-! ## Runs -/

theorem LiveFed.mono {ops' : List BacktestOp} (h : LiveFed b D L c₀ ops') (hpre : ops <+: ops') :
    LiveFed b D L c₀ ops where
  fetches := fun m hm => h.fetches m (hpre.subset hm)
  ticks := fun m hm => h.ticks m (hpre.subset hm)
  fed := fun m pair hm => h.fed m pair (hpre.subset hm)
  free := fun done m pair hdone => h.free done m pair (hdone.trans hpre)

theorem LiveSide.run_concat (L : LiveSide) (b : Backtest) (c₀ : Coordinator) (ops : List BacktestOp)
    (op : BacktestOp) : L.run b c₀ (ops ++ [op]) =
      Service.call b.cfg L.profileOf L.raises (L.run b c₀ ops) (L.call b op) := by
  rw [LiveSide.run, Service.run, List.map_append, List.foldl_append]
  rfl

/-- Each step begins after the candle of the step before it. -/
theorem time_lt_of_expireLocks (hist : SameHistory b D)
    (hops : ops ++ [.expireLocks m] <+: b.schedule D) :
    m ∈ D.master b ∧ ∀ op ∈ ops, op.time < m.timestamp := by
  have hsteps : (b.schedule D).Pairwise fun op op' =>
      ∀ c, op' = .expireLocks c → op.time < c.timestamp := by
    refine List.pairwise_flatMap.mpr ⟨fun c _ => ?_, ?_⟩
    · refine List.pairwise_cons.mpr ⟨fun op hop d hd => ?_, ?_⟩
      · obtain ⟨pair, -, rfl⟩ := List.mem_map.mp hop
        cases hd
      · refine List.pairwise_of_forall_mem_list fun op _ op' hop' d hd => ?_
        obtain ⟨pair, -, rfl⟩ := List.mem_map.mp hop'
        cases hd
    · refine (hist.ltf_gapFree.chronological.sublist (List.drop_sublist _ _)).imp
        fun {c c'} hlt op hop op' hop' d hd => ?_
      have hat := time_stepOps b c' op' hop'
      rw [hd] at hat
      rw [time_stepOps b c op hop]
      exact hlt.trans_eq hat.symm
  have hmem : BacktestOp.expireLocks m ∈ b.schedule D := hops.subset (by simp)
  obtain ⟨c, hc, hop⟩ := List.mem_flatMap.mp hmem
  refine ⟨?_, fun op hop => ?_⟩
  · rcases List.mem_cons.mp hop with hhead | htail
    · cases hhead
      exact List.mem_of_mem_drop hc
    · obtain ⟨pair, -, heq⟩ := List.mem_map.mp htail
      cases heq
  · exact (List.pairwise_append.mp (hsteps.sublist hops.sublist)).2.2 op hop _
      (List.mem_singleton_self _) m rfl

theorem time_of_visit (hops : ops ++ [.visit m pair] <+: b.schedule D) :
    ∀ op ∈ ops.getLast?, op.time = m.timestamp := by
  obtain ⟨before, pre, post, -, -, rfl⟩ := schedule_split hops
  intro op hop
  rw [List.getLast?_append_of_ne_nil _ (List.cons_ne_nil _ _)] at hop
  have hmem := List.mem_of_getLast? hop
  rcases List.mem_cons.mp hmem with rfl | hmem
  · rfl
  · obtain ⟨pair, -, rfl⟩ := List.mem_map.mp hmem
    rfl

theorem InStep.start (b : Backtest) (D : History) (t : ℤ) (hstart : c₀.state = {}) :
    InStep b D t { coordinator := c₀ } {} := by
  have hlocks : LockInv b.cfg { coordinator := c₀ } :=
    ⟨⟨List.nodup_nil, fun s hs => by cases hs⟩, by simp [hstart],
      fun k => by simp [hstart, DedupState.openKeys], List.nodup_nil⟩
  refine ⟨⟨fun k => ?_, fun k => ?_, ?_, fun k => ?_⟩, hlocks, rfl, rfl, List.Perm.nil,
    fun e he => ?_, fun e he => ?_⟩
  · simp [hstart]
  · simp [hstart]
  · simp [hstart]
  · simp [hstart, DedupState.openKeys, DedupState.releaseExpiredDirections]
  · cases he
  · cases he

theorem inStep_run (hist : SameHistory b D) (rules : SameRules b L.profileOf)
    (hstart : c₀.state = {}) (hops : ops <+: b.schedule D) (hrun : b.runOps D ops = .ok bst)
    (hstable : StableZones b D ops) (hfed : LiveFed b D L c₀ ops)
    (hfair : ∀ e ∈ bst.results, FairTrade b D e) (htimely : ∀ e ∈ bst.results, L.Timely b e)
    (t : ℤ) (ht : ∀ op ∈ ops.getLast?, op.time = t) : InStep b D t (L.run b c₀ ops) bst := by
  induction ops using List.reverseRecOn generalizing bst t with
  | nil =>
      cases hrun
      exact InStep.start b D t hstart
  | append_singleton ops op ih =>
      obtain ⟨bst₀, hbst₀, happly⟩ := runOps_append_singleton hrun
      have hpre : ops <+: ops ++ [op] := List.prefix_append _ _
      have hsub : ops ⊆ ops ++ [op] := hpre.subset
      have hmono := results_mono hbst₀ hrun
      have hbefore := ih (hpre.trans hops) hbst₀
        (fun pair z z' hz hz' => hstable pair z z' (hz.mono hsub) (hz'.mono hsub))
        (hfed.mono hpre) (fun e he => hfair e (hmono e he)) (fun e he => htimely e (hmono e he))
      have hsorted : SortedBy BacktestOp.time ops :=
        (sorted_schedule (hist.sorted.ltf b.masterLtf)).sublist (hpre.trans hops).sublist
      have hinv : ∀ t₀, (∀ op ∈ ops.getLast?, op.time = t₀) → BacktestInv b t₀ bst₀ := by
        intro t₀ hlast
        refine inv_runOps hsorted hbst₀ fun op' hop' => ?_
        obtain ⟨last, hlast'⟩ := Option.isSome_iff_exists.mp
          (List.getLast?_isSome.mpr (List.ne_nil_of_mem hop'))
        exact (hsorted.le_getLast hlast' hop').trans_eq (hlast last hlast')
      have htime : op.time = t := ht op (by simp)
      rw [LiveSide.run_concat]
      cases op with
      | expireLocks m =>
          obtain ⟨hm, hlt⟩ := time_lt_of_expireLocks hist hops
          obtain ⟨t₀, hlast, ht₀⟩ : ∃ t₀, (∀ op ∈ ops.getLast?, op.time = t₀) ∧
              t₀ < m.timestamp := by
            cases hget : ops.getLast? with
            | none => exact ⟨m.timestamp - 1, fun op hop => (by cases hop), by omega⟩
            | some last =>
                refine ⟨last.time, fun op hop => ?_, hlt last (List.mem_of_getLast? hget)⟩
                cases hop
                rfl
          cases happly
          rw [← htime]
          exact (hbefore t₀ hlast).tick (hinv t₀ hlast) hist rules hfair hm ht₀
            (hfed.fetches m (by simp)) (hfed.ticks m (by simp)) L.raises _
      | visit m pair =>
          have hlast := time_of_visit hops
          rw [← htime]
          exact (hbefore m.timestamp hlast).visit (hinv m.timestamp hlast) hist rules hops hbst₀
            hstable (hfed.fed m pair (by simp)) (hfed.free ops m pair List.prefix_rfl) happly hfair
            htimely

theorem reachedTime_of_mem {op : BacktestOp} (h : op ∈ ops.getLast?) :
    op.time = reachedTime ops := by
  rw [reachedTime, Option.mem_def.mp h]
  rfl

/-- **The live engine follows the backtest.** On one history and one configuration, along any
    prefix of a run that has not raised: as long as the zones are stable, each emission is timely
    and each trade fair, the live engine emits what the backtest emits, in the same order, and
    each trade ends in both at the same candle with the same result, or in neither. -/
theorem live_follows (hist : SameHistory b D) (rules : SameRules b L.profileOf)
    (hstart : c₀.state = {}) (hops : ops <+: b.schedule D) (hrun : b.runOps D ops = .ok bst)
    (hstable : StableZones b D ops) (hfed : LiveFed b D L c₀ ops)
    (hfair : ∀ e ∈ bst.results, FairTrade b D e) (htimely : ∀ e ∈ bst.results, L.Timely b e) :
    FollowsBacktest b D (reachedTime ops) (L.run b c₀ ops) bst := by
  have h := inStep_run hist rules hstart hops hrun hstable hfed hfair htimely (reachedTime ops)
    fun op hop => reachedTime_of_mem hop
  have hover : ∀ e ∈ bst.results, ((b.playedTo D (reachedTime ops) e).2 = true ↔
      e.result.ClosedBy (reachedTime ops)) ∧ (e.result.ClosedBy (reachedTime ops) →
        (b.playedTo D (reachedTime ops) e).1 = e.result.signal) :=
    fun e he => playedTo_over (hist.sorted.ltf b.masterLtf) hist.valid rules.pct (h.booked e he)
      (hfair e he) (reachedTime ops)
  refine ⟨h.tables, h.emitted_eq, ?_, ?_⟩
  · rw [h.watched_eq, ← List.filterMap_eq_map, List.filterMap_filter]
    refine List.filterMap_congr fun e he => ?_
    by_cases hclosed : e.result.ClosedBy (reachedTime ops)
    · rw [staying, if_pos ((hover e he).1.mpr hclosed), if_neg (by simpa using hclosed)]
    · rw [staying, if_neg (mt (hover e he).1.mp hclosed), if_pos (by simpa using hclosed)]
      rfl
  · refine h.ended_perm.trans (List.Perm.of_eq ?_)
    rw [← List.filterMap_eq_map, List.filterMap_filter]
    refine List.filterMap_congr fun e he => ?_
    by_cases hclosed : e.result.ClosedBy (reachedTime ops)
    · rw [ending, if_pos ((hover e he).1.mpr hclosed), if_pos (by simpa using hclosed),
        (hover e he).2 hclosed]
      rfl
    · rw [ending, if_neg (mt (hover e he).1.mp hclosed), if_neg (by simpa using hclosed)]

/-! ## A sample run

The sample process's zone is entered at midnight; the second candle after the entry falls
through the stop. -/

def followFive : List Candle :=
  (List.range 100).map (fun i => quietCandle (1767195600000 + i * 300000)) ++
    [quietCandle 1767225600000 (82 / 10), quietCandle 1767225900000, fallCandle 1767226200000]

def followData : History where
  htfCandles := hourData.htfCandles
  ltfCandles := fun _ => followFive

def followBacktest : Backtest :=
  { hourBacktest 6 3 with profileOf := fun _ _ => { sampleProfile with htfLookback := 6 } }

/-- Fed from the same history, without delay. -/
def followSide : LiveSide where
  profileOf := sampleProfiles
  raises := fun _ => false
  clock := fun close _ => close
  fetch := fun _ => fetchFrom followFive
  now := fun close => close
  io := fun close _ =>
    { sampleInputs 1767225600000 with
      htfFull := lastBars 12
        ((followData.htfCandles oneHour).filter (fun c => decide (c.timestamp ≤ close)))
      fetchLtf := fun start stop =>
        followFive.filter (fun c => decide (start ≤ c.timestamp ∧ c.timestamp ≤ stop))
      realNow := fun _ => close }

/-- The run up to the tick of the last candle. -/
def followOps : List BacktestOp :=
  [.expireLocks (quietCandle 1767225600000 (82 / 10)),
    .visit (quietCandle 1767225600000 (82 / 10)) (oneHour, fiveMin),
    .expireLocks (quietCandle 1767225900000),
    .visit (quietCandle 1767225900000) (oneHour, fiveMin),
    .expireLocks (fallCandle 1767226200000)]

theorem rereadSafe_of_no_tp1 {p : AssetProfile} {s : TradeSignal} {q : List Candle}
    (h : ∀ c ∈ q, reachesTarget s.direction c s.tp1 = false) : RereadSafe p s q := by
  rintro ⟨pre, c, post, heq, -, htp1, -⟩
  have hmem : c ∈ newerCandles s q := heq ▸ by simp
  have hno := h c (newerCandles_mem hmem)
  rw [htp1.2.1] at hno
  cases hno

theorem followData_sameHistory : SameHistory followBacktest followData where
  sorted :=
    { htf := fun _ => by
        change SortedBy Candle.timestamp (hourData.htfCandles oneHour)
        unfold SortedBy
        decide +kernel
      ltf := fun _ => by
        change SortedBy Candle.timestamp followFive
        unfold SortedBy
        decide +kernel }
  ltf_eq := by decide
  ltf_gapFree := by
    change GapFree fiveMin followFive
    unfold GapFree
    decide +kernel
  htf_gapFree := fun pair hpair => by
    cases List.mem_singleton.mp hpair
    exact hourData_gapFree.1
  valid := by
    change ∀ c ∈ followFive, c.Valid
    decide +kernel
  positive := by
    change ∀ c ∈ followFive, 0 < c.timestamp
    decide +kernel
  on_grid := by
    change ∀ c ∈ followFive, c.timestamp % intervalMs fiveMin = 0
    decide +kernel

theorem followSide_sameRules : SameRules followBacktest followSide.profileOf where
  profile_eq := fun _ _ => rfl
  same := fun pair hpair => by
    cases List.mem_singleton.mp hpair
    exact ⟨rfl, rfl⟩
  source := fun _ _ => rfl
  multi := rfl
  lookback := by decide
  losses := by decide
  pct := rfl

theorem followOps_isPrefix : followOps <+: followBacktest.schedule followData := by
  have hdrop : followFive.drop followBacktest.ltfLb = [quietCandle 1767225600000 (82 / 10),
      quietCandle 1767225900000, fallCandle 1767226200000] := by
    decide +kernel
  have hmaster : followData.master followBacktest = followFive := rfl
  rw [Backtest.schedule, hmaster, hdrop]
  exact ⟨[.visit (fallCandle 1767226200000) (oneHour, fiveMin)], rfl⟩

theorem followOps_visits {m : Candle} {pair : Interval × Interval}
    (h : .visit m pair ∈ followOps) :
    (m = quietCandle 1767225600000 (82 / 10) ∨ m = quietCandle 1767225900000) ∧
      pair = (oneHour, fiveMin) := by
  simp only [followOps, List.mem_cons, reduceCtorEq, BacktestOp.visit.injEq, List.not_mem_nil,
    or_false, false_or] at h
  rcases h with ⟨hm, hpair⟩ | ⟨hm, hpair⟩
  · exact ⟨Or.inl hm, hpair⟩
  · exact ⟨Or.inr hm, hpair⟩

theorem followOps_stable : StableZones followBacktest followData followOps := by
  have honly : ∀ pair z, Found followBacktest followData followOps pair z → z = hourZone := by
    rintro pair z ⟨c, hc, -, hz⟩
    obtain ⟨hcandle, rfl⟩ := followOps_visits hc
    have hown : followBacktest.ownZones (oneHour, fiveMin) (followData.htfVisible oneHour
        (followBacktest.analysisClose c)) = [hourZone] := by
      rcases hcandle with rfl | rfl
      · decide +kernel
      · decide +kernel
    rw [hown] at hz
    exact List.mem_singleton.mp hz
  intro pair z z' hz hz' _
  rw [honly pair z hz, honly pair z' hz']
  exact ⟨rfl, rfl, rfl⟩

theorem followSide_fed :
    LiveFed followBacktest followData followSide { sessionDay := 20454 } followOps where
  fetches := fun _ _ => fetchesRange_fetchFrom fiveMin followFive
  ticks := fun m hm => by
    simp only [followOps, List.mem_cons, reduceCtorEq, BacktestOp.expireLocks.injEq,
      List.not_mem_nil, or_false, false_or] at hm
    rcases hm with rfl | rfl | rfl
    · decide +kernel
    · decide +kernel
    · decide +kernel
  fed := fun m pair hm => by
    obtain ⟨hcandle, rfl⟩ := followOps_visits hm
    refine ⟨⟨12, ⟨rfl, fun _ _ => rfl⟩, by decide⟩, ?_⟩
    rcases hcandle with rfl | rfl
    · exact ⟨by decide +kernel, by decide +kernel, by decide +kernel, by decide +kernel,
        by decide +kernel⟩
    · exact ⟨by decide +kernel, by decide +kernel, by decide +kernel, by decide +kernel,
        by decide +kernel⟩
  free := fun done m pair hdone => by
    obtain ⟨rest, hrest⟩ := hdone
    obtain _ | ⟨op₁, _ | ⟨op₂, _ | ⟨op₃, done⟩⟩⟩ := done
    · cases hrest
    · cases hrest
      exact fun _ => show NotPaused _ _ _ _ 1767225900000 from
        ⟨by decide +kernel, by decide +kernel⟩
    · cases hrest
    · obtain _ | ⟨op₄, _ | ⟨op₅, done⟩⟩ := done
      · cases hrest
        exact fun _ => show NotPaused _ _ _ _ 1767225900000 from
          ⟨by decide +kernel, by decide +kernel⟩
      · cases hrest
      · cases done <;> cases hrest

/-- One trade, stopped out at the last candle. -/
theorem followRun_trades : (followBacktest.runOps followData followOps).map (fun st =>
    (st.results.map (fun e => (e.analysisClose, e.result.closeTs)), decide (∀ e ∈ st.results,
      (∀ c ∈ followFive, ¬ (pairCurrentTs fiveMin e.analysisClose < c.timestamp ↔
        e.signal.triggeredAt.getD 0 < c.timestamp) →
          WaitsAt (followBacktest.profileFor e) e.signal c) ∧
      (∀ c ∈ followFive, reachesTarget e.signal.direction c e.signal.tp1 = false) ∧
      followSide.Timely followBacktest e))) =
    .ok ([(1767225900000, some 1767226200000)], true) := by
  decide +kernel

/-- The live engine emits the sample's trade and tells its stop at the candle of the backtest. -/
theorem followRun_followed : ∃ bst, followBacktest.runOps followData followOps = .ok bst ∧
    bst.results.map (fun e => (e.analysisClose, e.result.closeTs)) =
      [(1767225900000, some 1767226200000)] ∧
    FollowsBacktest followBacktest followData (reachedTime followOps)
      (followSide.run followBacktest { sessionDay := 20454 } followOps) bst := by
  obtain ⟨bst, hrun, heq⟩ := runOps_of_map followRun_trades
  obtain ⟨hresults, hfair⟩ := Prod.mk.inj heq
  have hfair := of_decide_eq_true hfair
  refine ⟨bst, hrun, hresults, live_follows followData_sameHistory followSide_sameRules rfl
    followOps_isPrefix hrun followOps_stable followSide_fed (fun e he => ?_)
    fun e he => (hfair e he).2.2⟩
  obtain ⟨hquiet, htp1, -⟩ := hfair e he
  have hclosed : (e.analysisClose, e.result.closeTs) ∈
      bst.results.map (fun e => (e.analysisClose, e.result.closeTs)) := List.mem_map_of_mem he
  rw [hresults, List.mem_singleton, Prod.mk.injEq] at hclosed
  refine ⟨hquiet, fun t => rereadSafe_of_no_tp1 fun c hc => ?_, fun hopen => ?_⟩
  · exact htp1 c (List.mem_of_mem_filter hc)
  · rw [hclosed.2] at hopen
    cases hopen

end SignalEngine
