/-
  Turn: one pair at one analysis close, in the live engine and in the backtest.

  Model. `ReadyAt` relates the two states while the pair is analysed: corresponding tables,
  no pause, and every watched signal of a rejection both have seen. A turn of the zone loop
  leaves the live engine as it was (`SkipTurn`) or emits one signal (`EmitTurn`).

  Proved: on a zone with the same entry both turns skip or both emit the same signal
  (`analyzeZone_turn`), and so do both zone loops (`analyzeZones_turn`).
-/
import SignalEngine.Backtest.DedupParity
import SignalEngine.Backtest.Parity
import SignalEngine.Backtest.ZoneCache
import SignalEngine.Parity.Trade
import SignalEngine.Services.EventLaw
import SignalEngine.Services.Pending
import SignalEngine.Services.SessionFiling

namespace SignalEngine

open Lib

/-! ## The two views -/

/-- The views of one pair at one close. -/
structure ViewsAgree (b : Backtest) (v : LtfView) (w : PairView) : Prop where
  symbol_eq : w.symbol = b.symbol
  htf_eq : w.htfInterval = v.pair.1
  ltf_eq : w.ltfInterval = v.pair.2
  profile_eq : w.profile = b.profileOf v.pair.1 v.pair.2
  fired_eq : w.pairFiredAt = v.pairCurrentTs
  bias_eq : w.bias = v.bias

/-- The live engine and the backtest while a pair is analysed at the candle time `now`. -/
structure ReadyAt (b : Backtest) (now : ℤ) (io : PairInputs) (st : Service)
    (bst : BacktestState) : Prop where
  tables : Corresponds now st.coordinator.state bst
  lasting : ∀ e ∈ st.coordinator.state.openDir, e.2 = none
  free : ∀ z, NotPaused b.cfg st.coordinator now io.load (io.streakNow z)
  known : ∀ s ∈ st.watchlist, s.id.rejKey ∈ bst.seenRej

/-- The turn leaves no trace but announced zones. -/
structure SkipTurn (st st' : Service) : Prop where
  watchlist_eq : st'.watchlist = st.watchlist
  state_eq : st'.coordinator.state = st.coordinator.state
  emitted_eq : liveEmitted st'.events = liveEmitted st.events
  ended_eq : liveEnded st'.events = liveEnded st.events

/-- The turn emits `s`. -/
structure EmitTurn (st st' : Service) (s : TradeSignal) : Prop where
  watchlist_eq : st'.watchlist = st.watchlist ++ [s]
  emitted_eq : liveEmitted st'.events = liveEmitted st.events ++ [s]
  ended_eq : liveEnded st'.events = liveEnded st.events

/-- Both engines skip, or both emit one signal; the backtest's is not yet recorded. -/
inductive TurnsAgree (b : Backtest) (pair : Interval × Interval) (now : ℤ) (io : PairInputs)
    (st : Service) :
    Service → Option TradeSignal → BacktestState → Option (HtfRange × TradeSignal) → Prop
  | skip {st' : Service} {bst' : BacktestState} : SkipTurn st st' → ReadyAt b now io st' bst' →
      TurnsAgree b pair now io st st' none bst' none
  | emit {st' : Service} {bst' : BacktestState} {z : HtfRange} {s s' : TradeSignal} :
      s'.bare = s → EmitTurn st st' s' →
      (∀ analysisClose res, Corresponds now st'.coordinator.state
        (b.record analysisClose pair z s res bst')) →
      TurnsAgree b pair now io st st' (some s') bst' (some (z, s))

variable {b : Backtest} {v : LtfView} {w : PairView} {z : HtfRange} {r : RejectionCandle}
  {io : PairInputs} {st st' st₁ : Service} {bst bst' : BacktestState} {now nowMs : ℤ}
  {cfg : Settings} {c : Coordinator} {x : Setup} {load : ℤ → List ClosedSignalRecord}
  {raises : ℕ → Bool} {s : TradeSignal} {p : AssetProfile} {pair : Interval × Interval}

theorem SkipTurn.refl (st : Service) : SkipTurn st st := ⟨rfl, rfl, rfl, rfl⟩

theorem SkipTurn.trans (h : SkipTurn st st₁) (h' : SkipTurn st₁ st') : SkipTurn st st' :=
  ⟨h'.watchlist_eq.trans h.watchlist_eq, h'.state_eq.trans h.state_eq,
    h'.emitted_eq.trans h.emitted_eq, h'.ended_eq.trans h.ended_eq⟩

theorem SkipTurn.emit (h : SkipTurn st st₁) (h' : EmitTurn st₁ st' s) : EmitTurn st st' s :=
  ⟨h'.watchlist_eq.trans (congrArg (· ++ [s]) h.watchlist_eq),
    h'.emitted_eq.trans (congrArg (· ++ [s]) h.emitted_eq), h'.ended_eq.trans h.ended_eq⟩

theorem TurnsAgree.after {o : Option TradeSignal} {found : Option (HtfRange × TradeSignal)}
    (hskip : SkipTurn st st₁) (h : TurnsAgree b pair now io st₁ st' o bst' found) :
    TurnsAgree b pair now io st st' o bst' found := by
  cases h with
  | skip hskip' hready => exact .skip (hskip.trans hskip') hready
  | emit hbare hemit htables => exact .emit hbare (hskip.emit hemit) htables

theorem notePending_skip (w : PairView) (z : HtfRange) (st : Service) :
    SkipTurn st (st.notePending w z) := by
  unfold Service.notePending
  split
  · exact SkipTurn.refl st
  · refine ⟨rfl, rfl, ?_, ?_⟩
    · rw [liveEmitted_append]
      exact List.append_nil _
    · rw [liveEnded_append]
      exact List.append_nil _

/-! ## The gate without a pause -/

/-- Without a pause the gate answers, and there is no pause after it either. -/
theorem NotPaused.shouldEmit (h : NotPaused cfg c now load nowMs) (x : Setup) :
    (∃ o, (c.shouldEmit cfg x now load nowMs).2 = .ok o) ∧
      ∀ load' nowMs', NotPaused cfg (c.shouldEmit cfg x now load nowMs).1 now load' nowMs' := by
  have hday : (c.shouldEmit cfg x now load nowMs).1.sessionDay = toDate now :=
    shouldEmit_sessionDay x load
  have hfree : (c.shouldEmit cfg x now load nowMs).1.pausedMinutes now = none ∧
      ∃ o, (c.shouldEmit cfg x now load nowMs).2 = .ok o := by
    obtain ⟨hready, hfree⟩ := h
    unfold Coordinator.shouldEmit
    generalize c.maybeRollover cfg now load nowMs = rolled at hready hfree
    obtain ⟨c', e⟩ := rolled
    dsimp only at hready hfree
    subst hready
    have hpaused : ({ c' with state := c'.state.releaseExpiredDirections now } :
        Coordinator).pausedMinutes now = none := hfree
    dsimp only
    rw [hpaused]
    dsimp only
    split
    · exact ⟨hfree, _, rfl⟩
    · exact ⟨hfree, _, rfl⟩
  refine ⟨hfree.2, fun load' nowMs' => ?_⟩
  have hsame : ∀ c' : Coordinator, c'.sessionDay = toDate now →
      c'.maybeRollover cfg now load' nowMs' = (c', none) := by
    intro c' hc'
    rw [Coordinator.maybeRollover, if_pos hc'.symm]
  refine ⟨?_, ?_⟩
  · rw [hsame _ hday]
  · rw [hsame _ hday]
    exact hfree.1

theorem Corresponds.onlyCaches {d : DedupState} (h : Corresponds now d bst)
    (hcaches : OnlyCaches bst bst') : Corresponds now d bst' where
  dead_iff := hcaches.deadZones_eq ▸ h.dead_iff
  counts_eq := hcaches.counts_eq ▸ h.counts_eq
  seen_eq := hcaches.seenRej_eq.trans h.seen_eq
  locks_iff := hcaches.openDir_eq ▸ h.locks_iff

theorem ReadyAt.skip (h : ReadyAt b now io st bst) (hskip : SkipTurn st st')
    (hcaches : OnlyCaches bst bst')
    (hfree : ∀ z, NotPaused b.cfg st'.coordinator now io.load (io.streakNow z)) :
    ReadyAt b now io st' bst' where
  tables := hskip.state_eq.symm ▸ h.tables.onlyCaches hcaches
  lasting := hskip.state_eq.symm ▸ h.lasting
  free := hfree
  known := by
    rw [hskip.watchlist_eq, hcaches.seenRej_eq]
    exact h.known

/-! ## The signal both sides build -/

/-- At the candle close the builder takes the live prices down and does not use them. -/
theorem buildSignal_marks (hsource : p.signalPriceSource = .candleClose) (symbol : String)
    (htf ltf : Interval) (z : HtfRange) (r : RejectionCandle) (i : SignalId) (broker : String)
    (liveBid liveAsk : Option ℚ) :
    (buildSignal symbol htf ltf z r i p broker liveBid liveAsk).map TradeSignal.bare =
      buildSignal symbol htf ltf z r i p "" none none := by
  have hentry : ∀ bid ask, entryFor p z.signalDirection r bid ask = r.close := by
    intro bid ask
    unfold entryFor
    rw [hsource]
  unfold buildSignal
  simp only [hentry]
  split_ifs <;> rfl

/-- What the live engine emits of what the builder has built. -/
theorem emittedSignal_bare (w : PairView) (io : PairInputs) (z : HtfRange) (r : RejectionCandle)
    (attempt : ℕ) (s : TradeSignal) :
    (emittedSignal w io z r attempt s).bare =
      { s.bare with
        setupCandleOpenAt := some r.timestamp
        setupCandleCloseAt := some (r.timestamp + intervalMs w.ltfInterval)
        zoneAttempt := attempt } := rfl

theorem buildFor_rejection {attempt : ℕ} (h : b.buildFor v z r attempt = some s) :
    s.rejectionCandle = r := by
  obtain ⟨built, hbuilt, rfl⟩ := Option.map_eq_some_iff.mp h
  rw [evaluateSetup_signal] at hbuilt
  exact (buildSignal_eq_some hbuilt).rejectionCandle_eq

/-! ## One zone -/

theorem zoneTurn_of_bias (h : v.bias.any (fun s => !s.allows z.signalDirection) = true) :
    (b.zoneTurn v bst z).2 = none := by
  unfold Backtest.zoneTurn
  dsimp only
  rw [h, if_pos rfl]
  split <;> rfl

theorem zoneTurn_of_noEntry
    (h : (b.rejResult v z (b.ltfLoIdx v z bst).2 (b.ltfLoIdx v z bst).1).2 = none) :
    (b.zoneTurn v bst z).2 = none := by
  unfold Backtest.zoneTurn
  dsimp only
  rw [h]
  split
  · rfl
  · split <;> rfl

section Zone

variable (hview : ViewsAgree b v w)
  (hmulti : b.profile.multiTfIndependentPositions = b.cfg.multiTfIndependentPositions)
  (hsource : (b.profileOf v.pair.1 v.pair.2).signalPriceSource = .candleClose)

include hview

theorem setup_eq (z : HtfRange) (r : RejectionCandle) : w.setup z r = b.setup v z r := by
  rw [PairView.setup, Backtest.setup, hview.symbol_eq, hview.htf_eq, hview.ltf_eq]

include hsource

/-- An allowed setup builds on both sides or on neither. -/
theorem emitSetup_turn (raises : ℕ → Bool) (io : PairInputs) (st : Service)
    (hknown : ∀ s ∈ st.watchlist, s.id.rejKey ∈ bst.seenRej)
    (hnew : b.rejKey v.pair r ∉ bst.seenRej) (attempt : ℕ)
    (hattempt : (st.coordinator.registerSignal b.cfg (b.setup v z r)).2 = attempt) :
    (b.buildFor v z r attempt = none → st.emitSetup b.cfg raises w io z r = (st, .skip)) ∧
      ∀ s, b.buildFor v z r attempt = some s →
        ∃ st' s', st.emitSetup b.cfg raises w io z r = (st', .emitted s') ∧ s'.bare = s ∧
          EmitTurn st st' s' ∧
          st'.coordinator = (st.coordinator.registerSignal b.cfg (b.setup v z r)).1 := by
  have hid : w.signalId z r = ⟨b.symbol, v.pair.1, v.pair.2, r.timestamp, z.signalDirection⟩ := by
    rw [PairView.signalId, hview.symbol_eq, hview.htf_eq, hview.ltf_eq]
  have hfresh : w.signalId z r ∉ keys TradeSignal.id st.watchlist := by
    intro hmem
    obtain ⟨y, hy, heq⟩ := mem_keys.mp hmem
    have hseen := hknown y hy
    rw [heq, hid] at hseen
    exact hnew hseen
  have hmarks := buildSignal_marks hsource b.symbol v.pair.1 v.pair.2 z r
    ⟨b.symbol, v.pair.1, v.pair.2, r.timestamp, z.signalDirection⟩ b.cfg.mt5Profile (io.tick z).1
    (io.tick z).2
  unfold Service.emitSetup Backtest.buildFor
  rw [if_neg hfresh, hid, hview.symbol_eq, hview.htf_eq, hview.ltf_eq, hview.profile_eq,
    evaluateSetup_signal, evaluateSetup_signal, setup_eq hview, ← hmarks]
  subst hattempt
  cases hbuilt : buildSignal b.symbol v.pair.1 v.pair.2 z r
      ⟨b.symbol, v.pair.1, v.pair.2, r.timestamp, z.signalDirection⟩
      (b.profileOf v.pair.1 v.pair.2) b.cfg.mt5Profile (io.tick z).1 (io.tick z).2 with
  | none => exact ⟨fun _ => rfl, fun s hs => by cases hs⟩
  | some built =>
      refine ⟨fun hnone => (by cases hnone), fun s hs => ?_⟩
      cases hs
      have hnewId : built.id ∉ keys TradeSignal.id st.watchlist := by
        rwa [(buildSignal_eq_some hbuilt).id_eq, ← hid]
      refine ⟨_, emittedSignal w io z r (st.coordinator.registerSignal b.cfg (b.setup v z r)).2
        built, rfl, ?_, ⟨put_of_new hnewId, ?_, ?_⟩, rfl⟩
      · rw [emittedSignal_bare, hview.ltf_eq]
      · exact liveEmitted_append _ _
      · exact (liveEnded_append _ _).trans (List.append_nil _)

include hmulti

/-- One zone: with the same entry on both sides the two turns agree. -/
theorem analyzeZone_turn (hready : ReadyAt b v.pairCurrentTs io st bst)
    (hentry : findEntry (w.ltfZone z) z.signalDirection z =
      (b.rejResult v z (b.ltfLoIdx v z bst).2 (b.ltfLoIdx v z bst).1).2)
    (htimely : ∀ s, (b.zoneTurn v bst z).2 = some s →
      io.realNow z - (s.rejectionCandle.timestamp + intervalMs v.pair.2) ≤ b.cfg.maxEmitLagMs)
    (raises : ℕ → Bool) :
    ∃ st' o, st.analyzeZone b.cfg raises w io z = (st', o.elim .skip .emitted) ∧
      TurnsAgree b v.pair v.pairCurrentTs io st st' o (b.zoneTurn v bst z).1
        ((b.zoneTurn v bst z).2.map (z, ·)) := by
  have hcaches := zoneTurn_onlyCaches b v bst z
  have hnoted := notePending_skip w z st
  have hskip : ∀ {st'}, SkipTurn st st' →
      (∀ y, NotPaused b.cfg st'.coordinator v.pairCurrentTs io.load (io.streakNow y)) →
      (b.zoneTurn v bst z).2 = none →
      TurnsAgree b v.pair v.pairCurrentTs io st st' none (b.zoneTurn v bst z).1
        ((b.zoneTurn v bst z).2.map (z, ·)) := by
    intro st' hturn hfree hnone
    rw [hnone]
    exact .skip hturn (hready.skip hturn hcaches hfree)
  unfold Service.analyzeZone
  cases hbias : w.bias.any (fun s => !s.allows z.signalDirection) with
  | true =>
      rw [hview.bias_eq] at hbias
      exact ⟨st, none, if_pos rfl, hskip (SkipTurn.refl st) hready.free (zoneTurn_of_bias hbias)⟩
  | false =>
  rw [if_neg Bool.false_ne_true]
  rw [hview.bias_eq] at hbias
  have hpause : ∀ y, NotPaused b.cfg (st.notePending w z).coordinator v.pairCurrentTs io.load
      (io.streakNow y) := by
    rw [notePending_coordinator]
    exact hready.free
  dsimp only
  cases hfind : findEntry (w.ltfZone z) z.signalDirection z with
  | none =>
      exact ⟨_, none, rfl, hskip hnoted hpause (zoneTurn_of_noEntry (hentry.symm.trans hfind))⟩
  | some found =>
  obtain ⟨r, score⟩ := found
  have hturn := zoneTurn_passes hbias (hentry.symm.trans hfind)
  dsimp only
  by_cases hlag : b.cfg.maxEmitLagMs < io.realNow z - (r.timestamp + intervalMs w.ltfInterval)
  · rw [if_pos hlag]
    refine ⟨_, none, rfl, hskip hnoted hpause (Option.eq_none_iff_forall_ne_some.mpr ?_)⟩
    intro s hs
    have hlate := htimely s hs
    rw [hturn] at hs
    split at hs
    · rw [buildFor_rejection hs, ← hview.ltf_eq] at hlate
      omega
    · cases hs
  rw [if_neg hlag, hview.fired_eq, setup_eq hview]
  have hgate := sameGate (hnoted.state_eq.symm ▸ hready.tables.onlyCaches hcaches) hmulti
    (hpause z) z r
  obtain ⟨⟨o, ho⟩, hfree⟩ := (hpause z).shouldEmit (b.setup v z r)
  have hstate := shouldEmit_state_of_none b.cfg (hnoted.state_eq.symm ▸ hready.lasting)
    (b.setup v z r) v.pairCurrentTs io.load (io.streakNow z)
  dsimp only at hgate
  generalize (st.notePending w z).coordinator.shouldEmit b.cfg (b.setup v z r) v.pairCurrentTs
    io.load (io.streakNow z) = asked at hgate ho hfree hstate ⊢
  obtain ⟨c, answer⟩ := asked
  dsimp only at hgate ho hfree hstate ⊢
  subst ho
  have hchecked : SkipTurn st { st.notePending w z with coordinator := c } :=
    ⟨hnoted.watchlist_eq, hstate.trans hnoted.state_eq, hnoted.emitted_eq, hnoted.ended_eq⟩
  have hpasses : Passes b v z r (b.zoneTurn v bst z).1 ↔ Passes b v z r bst :=
    Passes.onlyCaches hcaches
  rw [hpasses] at hgate
  cases o with
  | some reason =>
      have hblocked : ¬ Passes b v z r bst := fun hpass => by cases hgate.1.mpr hpass
      rw [if_neg hblocked] at hturn
      exact ⟨_, none, rfl, hskip hchecked (fun y => hfree io.load (io.streakNow y)) hturn⟩
  | none =>
      have hpass := hgate.1.mp rfl
      rw [if_pos hpass] at hturn
      have hattempt : (c.registerSignal b.cfg (b.setup v z r)).2 =
          bst.zoneSignalCounts (b.zoneKey v.pair z) + 1 := by
        rw [hready.tables.counts_eq, zoneKey_liveKey b v z r, ← hnoted.state_eq, ← hstate]
        rfl
      have hknown : ∀ s ∈ (st.notePending w z).watchlist, s.id.rejKey ∈ bst.seenRej := by
        rw [hnoted.watchlist_eq]
        exact hready.known
      obtain ⟨hnone, hsome⟩ := emitSetup_turn hview hsource raises io
        { st.notePending w z with coordinator := c } hknown hpass.rejection _ hattempt
      cases hbuilt : b.buildFor v z r (bst.zoneSignalCounts (b.zoneKey v.pair z) + 1) with
      | none =>
          rw [hbuilt] at hturn
          exact ⟨_, none, hnone hbuilt,
            hskip hchecked (fun y => hfree io.load (io.streakNow y)) hturn⟩
      | some s =>
          rw [hbuilt] at hturn
          obtain ⟨st', s', heq, hbare, hemit, hcoordinator⟩ := hsome s hbuilt
          refine ⟨st', some s', heq, ?_⟩
          rw [hturn]
          refine .emit hbare (hchecked.emit hemit) fun analysisClose res => ?_
          rw [hcoordinator]
          refine (hgate.2 s ?_ analysisClose res).2
          rw [signalFor_of_passes (hpasses.mpr hpass), hcaches.counts_eq]
          exact hbuilt

/-- **The zone loop**: where each zone's entry is the same on both sides, both loops come to the
    end without a signal, or stop at the same zone with the same signal. -/
theorem analyzeZones_turn {zs : List HtfRange} (hready : ReadyAt b v.pairCurrentTs io st bst)
    (hentry : ∀ pre z post bst₁, zs = pre ++ z :: post → b.scanZones v bst pre = (bst₁, none) →
      findEntry (w.ltfZone z) z.signalDirection z =
        (b.rejResult v z (b.ltfLoIdx v z bst₁).2 (b.ltfLoIdx v z bst₁).1).2)
    (htimely : ∀ z s, (b.scanZones v bst zs).2 = some (z, s) →
      io.realNow z - (s.rejectionCandle.timestamp + intervalMs v.pair.2) ≤ b.cfg.maxEmitLagMs)
    (raises : ℕ → Bool) :
    ∃ st' o, st.analyzeZones b.cfg raises w io zs = (st', .ok o.toList) ∧
      TurnsAgree b v.pair v.pairCurrentTs io st st' o (b.scanZones v bst zs).1
        (b.scanZones v bst zs).2 := by
  induction zs generalizing st bst with
  | nil => exact ⟨st, none, rfl, .skip (SkipTurn.refl st) hready⟩
  | cons z zs ih =>
      have hfirst := analyzeZone_turn hview hmulti hsource hready
        (hentry [] z zs bst rfl rfl) (fun s hs => htimely z s ?_) raises
      swap
      · rw [Backtest.scanZones]
        generalize b.zoneTurn v bst z = turn at hs ⊢
        obtain ⟨bst₁, found⟩ := turn
        dsimp only at hs
        subst hs
        rfl
      obtain ⟨st₁, o, heq, hagree⟩ := hfirst
      rw [Service.analyzeZones, heq, Backtest.scanZones]
      have hlater : ∀ pre y post bst₁ bst₂, zs = pre ++ y :: post →
          b.zoneTurn v bst z = (bst₁, none) → b.scanZones v bst₁ pre = (bst₂, none) →
          findEntry (w.ltfZone y) y.signalDirection y =
            (b.rejResult v y (b.ltfLoIdx v y bst₂).2 (b.ltfLoIdx v y bst₂).1).2 := by
        intro pre y post bst₁ bst₂ hzs hturn hscan
        refine hentry (z :: pre) y post bst₂ (by rw [hzs]; rfl) ?_
        rw [Backtest.scanZones, hturn]
        exact hscan
      have hlast : ∀ bst₁, b.zoneTurn v bst z = (bst₁, none) → ∀ y s,
          (b.scanZones v bst₁ zs).2 = some (y, s) → io.realNow y -
            (s.rejectionCandle.timestamp + intervalMs v.pair.2) ≤ b.cfg.maxEmitLagMs := by
        intro bst₁ hturn y s hs
        refine htimely y s ?_
        rw [Backtest.scanZones, hturn]
        exact hs
      generalize b.zoneTurn v bst z = turn at hagree hlater hlast ⊢
      obtain ⟨bst₁, _ | s⟩ := turn
      · rw [Option.map_none] at hagree
        cases hagree with
        | skip hskip hready₁ =>
            obtain ⟨st', o, heq', hrest⟩ := ih hready₁
              (fun pre y post bst₂ hzs => hlater pre y post bst₁ bst₂ hzs rfl) (hlast bst₁ rfl)
            exact ⟨st', o, heq', hrest.after hskip⟩
      · rw [Option.map_some] at hagree
        cases hagree with
        | emit hbare hemit htables => exact ⟨st₁, _, rfl, .emit hbare hemit htables⟩

end Zone

/-! ## One visit -/

/-- One history on one LTF, as the backtest loads it. -/
structure SameHistory (b : Backtest) (D : History) : Prop where
  sorted : D.Sorted
  ltf_eq : ∀ pair ∈ b.pairs, pair.2 = b.masterLtf
  ltf_gapFree : GapFree b.masterLtf (D.master b)
  htf_gapFree : ∀ pair ∈ b.pairs, GapFree pair.1 (D.htfCandles pair.1)
  valid : ∀ c ∈ D.master b, c.Valid
  positive : ∀ c ∈ D.master b, 0 < c.timestamp
  on_grid : ∀ c ∈ D.master b, c.timestamp % intervalMs b.masterLtf = 0

/-- One configuration for both engines, with entries at the candle close and no trailing. -/
structure SameRules (b : Backtest) (profileOf : String → Interval → Interval → AssetProfile) :
    Prop where
  profile_eq : ∀ pair ∈ b.pairs, profileOf b.symbol pair.1 pair.2 = b.profileOf pair.1 pair.2
  same : ∀ pair ∈ b.pairs, SameProfile b pair (b.profileOf pair.1 pair.2)
  source : ∀ pair ∈ b.pairs, (b.profileOf pair.1 pair.2).signalPriceSource = .candleClose
  multi : b.profile.multiTfIndependentPositions = b.cfg.multiTfIndependentPositions
  lookback : ∀ pair ∈ b.pairs, 1 ≤ b.resolveLookback pair
  losses : 1 ≤ b.cfg.maxConsecutiveLosses
  pct : b.trailingGivebackPct = 0

/-- What an analysis of the pair is given: enough of the history. -/
structure PairFed (b : Backtest) (D : History) (pair : Interval × Interval) (analysisClose : ℤ)
    (io : PairInputs) : Prop where
  data : ∃ outputsize, LiveData D pair analysisClose outputsize io ∧
    b.resolveLookback pair + max b.cfg.displacementAtrPeriod 0 ≤ outputsize - 1
  gates : GatesPass b D pair analysisClose (b.profileOf pair.1 pair.2) io

variable {D : History} {ops : List BacktestOp} {m : Candle}
  {profileOf : String → Interval → Interval → AssetProfile}
  {found : Option (HtfRange × TradeSignal)}

theorem pairView_agrees {symbol : String} {htf ltf : Interval} {analysisClose : ℤ}
    (h : pairView cfg p symbol htf ltf analysisClose io = some w) :
    w.symbol = symbol ∧ w.htfInterval = htf ∧ w.ltfInterval = ltf ∧ w.profile = p ∧
      w.pairFiredAt = pairCurrentTs ltf analysisClose := by
  unfold pairView at h
  split at h
  · cases h
  split at h
  · cases h
  dsimp only at h
  split at h
  · cases h
  split at h
  · cases h
  · split_ifs at h
    all_goals cases h
    all_goals exact ⟨rfl, rfl, rfl, rfl, rfl⟩

/-- A master candle closes on the grid, and it is the newest closed one then. -/
theorem SameHistory.close (h : SameHistory b D) (hm : m ∈ D.master b) :
    b.analysisClose m % intervalMs b.masterLtf = 0 ∧
      pairCurrentTs b.masterLtf (b.analysisClose m) = m.timestamp := by
  have hpos := intervalMs_pos b.masterLtf
  have hclose : b.analysisClose m % intervalMs b.masterLtf = 0 := by
    rw [Backtest.analysisClose, Int.add_emod_right]
    exact h.on_grid m hm
  refine ⟨hclose, ?_⟩
  rw [pairCurrentTs, Int.ediv_mul_cancel (Int.dvd_of_emod_eq_zero hclose), Backtest.analysisClose]
  omega

/-- With one LTF the pair is the only one of its HTF. -/
theorem SameHistory.sharesStructure (h : SameHistory b D) {pair : Interval × Interval}
    (hpair : pair ∈ b.pairs) (visible : List Candle) : b.SharesStructure pair visible := by
  intro q hq
  unfold Backtest.firstEvaluated at hq
  have hfound := List.find?_some (Option.mem_def.mp hq)
  obtain ⟨hhtf, -⟩ := of_decide_eq_true hfound
  have hltf := h.ltf_eq q (List.mem_of_find?_eq_some hq)
  rw [show q = pair from Prod.ext hhtf (hltf.trans (h.ltf_eq pair hpair).symm)]

/-- **One visit**: the live analysis of a pair and the backtest's scan agree. -/
theorem scan_turn (hist : SameHistory b D) (rules : SameRules b profileOf)
    (hops : ops ++ [.visit m pair] <+: b.schedule D) (hrun : b.runOps D ops = .ok bst)
    (hstable : StableZones b D (ops ++ [.visit m pair]))
    (hfed : PairFed b D pair (b.analysisClose m) io)
    (hready : ReadyAt b m.timestamp io st bst)
    (hscan : b.scan D (b.analysisClose m) pair bst = .ok (bst', found))
    (htimely : ∀ z s, found = some (z, s) → io.realNow z -
      (s.rejectionCandle.timestamp + intervalMs b.masterLtf) ≤ b.cfg.maxEmitLagMs)
    (raises : ℕ → Bool) :
    ∃ st' o, st.analyzePair b.cfg profileOf raises b.symbol pair.1 pair.2 (b.analysisClose m) io =
        (st', .ok o.toList) ∧ TurnsAgree b pair m.timestamp io st st' o bst' found := by
  obtain ⟨before, pre, post, hbefore, hpairs, -⟩ := schedule_split hops
  have hpair : pair ∈ b.pairs := by rw [hpairs]; simp
  have hm : m ∈ D.master b := List.mem_of_mem_drop (hbefore.subset (by simp))
  obtain ⟨hclose, hcurrent⟩ := hist.close hm
  have hltf := hist.ltf_eq pair hpair
  rw [← hltf] at hclose hcurrent
  have hgap : GapFree pair.2 (D.ltfCandles pair.2) := by
    rw [hltf]
    exact hist.ltf_gapFree
  obtain ⟨outputsize, hlive, hsize⟩ := hfed.data
  have hcovered := covered (hist.htf_gapFree pair hpair) (rules.same pair hpair)
    (rules.lookback pair hpair) hlive hsize hfed.gates
  have hsame := sameCandidates (hist.htf_gapFree pair hpair) hgap hclose (rules.same pair hpair)
    (rules.lookback pair hpair) hlive hsize hfed.gates
  have heval : b.Evaluated pair (D.htfVisible pair.1 (b.analysisClose m)) :=
    ⟨not_lt.mp hfed.gates.window, hcovered.window_ne⟩
  have hown := (caches_transparent_iff hist.sorted hops hrun heval).mpr
    (hist.sharesStructure hpair _)
  have hstage := hown.stage_eq.trans hsame.stage_eq
  unfold Backtest.scan at hscan
  unfold Service.analyzePair
  rw [rules.profile_eq pair hpair]
  generalize hstaged : b.htfStage pair (D.htfVisible pair.1 (b.analysisClose m)) bst.caches =
    staged at hstage hscan
  obtain e | ⟨ca, o⟩ := staged
  · cases hstage
  have ho : o = (pairView b.cfg (b.profileOf pair.1 pair.2) b.symbol pair.1 pair.2
      (b.analysisClose m) io).map (fun v => (v.bias, v.zones)) := by
    simpa [Except.map] using hstage
  have hcaches : OnlyCaches bst { bst with caches := ca } := ⟨rfl, rfl, rfl, rfl, rfl⟩
  cases hw : pairView b.cfg (b.profileOf pair.1 pair.2) b.symbol pair.1 pair.2
      (b.analysisClose m) io with
  | none =>
      rw [hw, Option.map_none] at ho
      subst ho
      cases hscan
      exact ⟨st, none, rfl,
        .skip (SkipTurn.refl st) (hready.skip (SkipTurn.refl st) hcaches hready.free)⟩
  | some w =>
      rw [hw, Option.map_some] at ho
      subst ho
      dsimp only at hscan ⊢
      rw [if_neg hfed.gates.hi] at hscan
      have hzones := Except.ok.inj hscan
      obtain ⟨hsymbol, hhtf, hltf', hprofile, hfired⟩ := pairView_agrees hw
      have hview : ViewsAgree b (D.ltfView pair (b.analysisClose m) w.bias) w :=
        ⟨hsymbol, hhtf, hltf', hprofile, hfired, rfl⟩
      have hevict : SkipTurn st (st.evictPending b.cfg w.pairFiredAt) := ⟨rfl, rfl, rfl, rfl⟩
      have hready' : ReadyAt b (D.ltfView pair (b.analysisClose m) w.bias).pairCurrentTs io
          (st.evictPending b.cfg w.pairFiredAt) { bst with caches := ca } := by
        rw [show (D.ltfView pair (b.analysisClose m) w.bias).pairCurrentTs = m.timestamp from
          hcurrent]
        exact hready.skip hevict hcaches hready.free
      have hentry : ∀ pre z post bst₁, w.zones = pre ++ z :: post →
          b.scanZones (D.ltfView pair (b.analysisClose m) w.bias) { bst with caches := ca } pre =
            (bst₁, none) →
          findEntry (w.ltfZone z) z.signalDirection z =
            (b.rejResult (D.ltfView pair (b.analysisClose m) w.bias) z
              (b.ltfLoIdx (D.ltfView pair (b.analysisClose m) w.bias) z bst₁).2
              (b.ltfLoIdx (D.ltfView pair (b.analysisClose m) w.bias) z bst₁).1).2 := by
        intro pre z post bst₁ hzs hpre
        have hfresh := freshTurn_of_stable hist.sorted hops hrun hstable hstaged hzs hpre
        have hfound := (hsame.zone_eq w (by rw [hw]; rfl) z (by rw [hzs]; simp)).2
        exact hfound.trans hfresh.entry_eq.symm
      have hlag : ∀ z s, (b.scanZones (D.ltfView pair (b.analysisClose m) w.bias)
          { bst with caches := ca } w.zones).2 = some (z, s) → io.realNow z -
            (s.rejectionCandle.timestamp + intervalMs pair.2) ≤ b.cfg.maxEmitLagMs := by
        intro z s hs
        rw [hzones] at hs
        rw [hltf]
        exact htimely z s hs
      obtain ⟨st', o, heq, hagree⟩ := analyzeZones_turn hview rules.multi
        (rules.source pair hpair) hready' hentry hlag raises
      refine ⟨st', o, heq, ?_⟩
      rw [hzones] at hagree
      have hagree' : TurnsAgree b pair m.timestamp io (st.evictPending b.cfg w.pairFiredAt) st' o
          bst' found := hcurrent ▸ hagree
      exact hagree'.after hevict

end SignalEngine
