/-
  Trade: one trade in the live engine and in the backtest.

  Model. `bare` takes from a signal what only one side notes on it: the broker, the prices
  and the times of its detection. `b.playedTo D t e` is the live reading of an emission: one
  replay of the candles up to `t` that are newer than its entry. The backtest has played the
  emission on all the candles after the close it was emitted at.

  Proved: nothing that is played out looks at the marks (`loop_bare`); a tick goes from the
  replay up to one candle to the replay up to a later one (`played_next`); and on a fair trade
  the replay up to `t` is over exactly when the backtest's close is not after `t`, with the
  backtest's result (`playedTo_over`).
-/
import SignalEngine.Backtest.RunSafety
import SignalEngine.Backtest.TrailReplay
import SignalEngine.Parity.WatchTick

namespace SignalEngine

open Lib

/-! ## Marks -/

/-- The signal without the marks of where and when it was found. -/
def TradeSignal.bare (s : TradeSignal) : TradeSignal :=
  { s with
    broker := ""
    liveBidAtSignal := none
    liveAskAtSignal := none
    detectedAt := none
    emittedAt := none }

/-- The master candles that open by `t`. -/
def History.masterTo (D : History) (b : Backtest) (t : ℤ) : List Candle :=
  (D.master b).filter fun c => decide (c.timestamp ≤ t)

def Backtest.profileFor (b : Backtest) (e : Emission) : AssetProfile :=
  b.profileOf e.pair.1 e.pair.2

/-- The live reading of an emission up to the candle that opens at `t`. -/
def Backtest.playedTo (b : Backtest) (D : History) (t : ℤ) (e : Emission) : TradeSignal × Bool :=
  live (b.profileFor e) e.signal (D.masterTo b t)

/-- What a run books of each of its emissions. -/
structure BookedTrade (b : Backtest) (D : History) (e : Emission) : Prop where
  fresh : FreshSignal e.signal
  bare_eq : e.signal.bare = e.signal
  symbol_eq : e.signal.symbol = b.symbol
  pair_mem : e.pair ∈ b.pairs
  named : e.signal.id = e.signal.namedId
  createdAt_eq : e.signal.createdAt = e.signal.rejectionCandle.timestamp
  triggeredAt_eq : e.signal.triggeredAt = some (e.signal.createdAt + intervalMs b.masterLtf)
  setup_mem : ∃ c ∈ D.master b, c.timestamp = e.signal.createdAt ∧
    c.timestamp ≤ pairCurrentTs b.masterLtf e.analysisClose
  simulated : simulate (b.profileFor e) b.trailingGivebackPct e.signal
    ((D.master b).filter fun c =>
      decide (pairCurrentTs b.masterLtf e.analysisClose < c.timestamp)) = .ok e.result

/-- A trade on which the two engines do the same: what only one of them reads passes it by,
    reading a candle again cannot end it, and a trade left open has not run out. -/
structure FairTrade (b : Backtest) (D : History) (e : Emission) : Prop where
  quiet : ∀ c ∈ D.master b,
    ¬ (pairCurrentTs b.masterLtf e.analysisClose < c.timestamp ↔
      e.signal.triggeredAt.getD 0 < c.timestamp) → WaitsAt (b.profileFor e) e.signal c
  reread : ∀ t, RereadSafe (b.profileFor e) e.signal (D.masterTo b t)
  unended : e.result.closeTs = none → ∀ c ∈ D.master b, c.timestamp < b.heldUntil e

instance (p : AssetProfile) (s : TradeSignal) (c : Candle) : Decidable (WaitsAt p s c) :=
  inferInstanceAs (Decidable (_ ∧ _ ∧ _))

variable {b : Backtest} {D : History} {p : AssetProfile} {s s' : TradeSignal} {c : Candle}
  {cs hist : List Candle} {e : Emission} {t t' : ℤ} {r : BacktestResult}

@[simp] theorem bare_status (s : TradeSignal) : s.bare.status = s.status := rfl

@[simp] theorem bare_direction (s : TradeSignal) : s.bare.direction = s.direction := rfl

theorem expireSignal_bare (s : TradeSignal) (c : Candle) (p : AssetProfile) (now : ℤ) :
    expireSignal s.bare c p now = (expireSignal s c p now).bare := by
  unfold expireSignal
  rw [bare_status]
  split_ifs <;> rfl

theorem advance_bare (s : TradeSignal) (c : Candle) (p : AssetProfile) (now : ℤ) :
    advance s.bare c p now = ((advance s c p now).1.bare, (advance s c p now).2) := by
  have hexp : isExpired s.bare p now = isExpired s p now := rfl
  have hsl : effectiveSl s.bare p = effectiveSl s p := rfl
  have htp1 : s.bare.tp1 = s.tp1 := rfl
  have htp2 : s.bare.tp2 = s.tp2 := rfl
  unfold advance tp1HitBlock
  simp only [hexp, hsl, htp1, htp2, bare_status, bare_direction, expireSignal_bare]
  split_ifs <;> rfl

theorem advanceAt_bare (p : AssetProfile) (s : TradeSignal) (c : Candle) :
    advanceAt p s.bare c = ((advanceAt p s c).1.bare, (advanceAt p s c).2) := by
  unfold advanceAt
  rw [advance_bare]

/-- Nothing that plays a trade out looks at the marks. -/
theorem loop_bare (p : AssetProfile) (s : TradeSignal) (cs : List Candle) :
    loopUntil (advanceAt p) s.bare cs =
      ((loopUntil (advanceAt p) s cs).1.bare, (loopUntil (advanceAt p) s cs).2) :=
  loopUntil_map (advanceAt_bare p) s cs

theorem played_bare (p : AssetProfile) (cs : List Candle) (s : TradeSignal) :
    played p cs s.bare = ((played p cs s).1.bare, (played p cs s).2) :=
  loop_bare p s (newerCandles s cs)

/-! ## The next tick -/

/-- A tick reads the candles of the trade from the first one on and comes to the replay of the
    longer history. -/
theorem played_next (hs : s.status = .triggered) {q q' fetched : List Candle} (hpre : q <+: q')
    (hfetched : newerCandles s fetched = newerCandles s q') (hlen : 2 ≤ q'.length)
    (hvalid : ∀ c ∈ q', c.Valid) (hsafe : RereadSafe p s q) (hrun : (live p s q).2 = false) :
    played p fetched (live p s q).1 = live p s q' := by
  have hopen : s.status.isOpen = true := by rw [hs]; rfl
  have hrunning : (live p s q).1.status.isOpen = true := by
    rw [live, loop_isOpen hopen]
    exact congrArg Bool.not hrun
  have hsame := loop_sameTrade (p := p) s (newerCandles s q)
  have htick := updateWatched_live hs hpre hlen hvalid hsafe
  rw [updateWatched_of_running hrun hrunning hsame hlen hvalid] at htick
  have hnewer : newerCandles (live p s q).1 fetched = newerCandles s q' := by
    rw [← hfetched]
    exact newerCandles_congr hsame fetched
  rw [played, hnewer]
  simp only [watchedAfter, WatchedSignal.mk.injEq, Bool.not_inj_iff] at htick
  exact Prod.ext htick.1 htick.2

/-- A replay that is over stays so. -/
theorem live_of_over {q q' : List Candle} (hpre : q <+: q') (hover : (live p s q).2 = true) :
    live p s q' = live p s q := by
  obtain ⟨rest, rfl⟩ := hpre
  rw [live, newerCandles_append]
  exact loopUntil_append_of_broke hover _

/-! ## What the backtest books -/

theorem loop_running (h : Running s) (hpass : (loopUntil (advanceAt p) s cs).2 = false) :
    Running (loopUntil (advanceAt p) s cs).1 := by
  induction cs generalizing s with
  | nil => exact h
  | cons c cs ih =>
      have hstep := h.advance p c c.timestamp
      cases hc : (advanceAt p s c).2 with
      | true => rw [loopUntil_cons_of_break hc, hc] at hpass; cases hpass
      | false =>
          rw [loopUntil_cons_of_pass hc] at hpass ⊢
          exact ih (hstep.1 hc) hpass

theorem loop_outcome (h : Running s) (hbroke : (loopUntil (advanceAt p) s cs).2 = true) :
    ∃ o, (loopUntil (advanceAt p) s cs).1.outcome = some o := by
  obtain ⟨c, -, s', hs', heq⟩ := exists_break Running
    (fun s c hs hpass => (hs.advance p c c.timestamp).1 hpass) h hbroke
  rw [← heq] at hbroke ⊢
  exact ((hs'.advance p c c.timestamp).2 hbroke).1

/-- The result of a replay is where the loop has ended; it has a close when the loop broke. -/
theorem simulateReplay_loop (h : Running s) (hcs : ∀ c ∈ cs, c.Valid)
    (hr : simulateReplay p s cs = .ok r) :
    r.signal = (loopUntil (advanceAt p) s cs).1 ∧
      r.closeTs = if (loopUntil (advanceAt p) s cs).2 then
        (loopUntil (advanceAt p) s cs).1.closedAt else none := by
  unfold simulateReplay at hr
  rw [replaySignalLifecycle_eq_loop p hcs] at hr
  dsimp only at hr
  cases hend : (loopUntil (advanceAt p) s cs).2 with
  | true =>
      obtain ⟨o, ho⟩ := loop_outcome h hend
      rw [ho] at hr
      cases hr
      exact ⟨rfl, rfl⟩
  | false =>
      rw [(loop_running h hend).outcome_eq] at hr
      cases hr
      exact ⟨rfl, rfl⟩

/-- Candles that a triggered trade waits through may be left out at the start. -/
theorem loop_later (hsorted : SortedBy Candle.timestamp hist) (hs : s.status = .triggered)
    {x y : ℤ} (hxy : x ≤ y)
    (hwait : ∀ c ∈ hist, x < c.timestamp → c.timestamp ≤ y → WaitsAt p s c) :
    loopUntil (advanceAt p) s (hist.filter fun c => decide (x < c.timestamp)) =
      loopUntil (advanceAt p) s (hist.filter fun c => decide (y < c.timestamp)) := by
  have hlater : SortedBy Candle.timestamp (hist.filter fun c => decide (x < c.timestamp)) :=
    hsorted.filter _
  have hend : (hist.filter fun c => decide (x < c.timestamp)).filter
      (fun c => decide (y < c.timestamp)) = hist.filter fun c => decide (y < c.timestamp) := by
    rw [List.filter_filter]
    refine List.filter_congr fun c _ => ?_
    rw [← Bool.decide_and, decide_eq_decide]
    omega
  have hquiet : loopUntil (advanceAt p) s ((hist.filter fun c => decide (x < c.timestamp)).filter
      (fun c => decide (c.timestamp ≤ y))) = (s, false) := by
    refine loopUntil_of_quiet fun c hc => advanceAt_of_waitsAt hs ?_
    obtain ⟨hc, hy⟩ := List.mem_filter.mp hc
    obtain ⟨hc, hx⟩ := List.mem_filter.mp hc
    exact hwait c hc (of_decide_eq_true hx) (of_decide_eq_true hy)
  rw [← hlater.filter_append_filter y, loopUntil_append_of_pass (by rw [hquiet]), hquiet, hend]

/-! ## A fair trade -/

theorem masterTo_isPrefix (hsorted : SortedBy Candle.timestamp (D.master b)) (ht : t ≤ t') :
    D.masterTo b t <+: D.masterTo b t' := by
  have hkeep : D.masterTo b t =
      (D.masterTo b t').filter (fun c => decide (c.timestamp ≤ t)) := by
    rw [History.masterTo, History.masterTo, List.filter_filter]
    refine List.filter_congr fun c _ => ?_
    rw [← Bool.decide_and, decide_eq_decide]
    omega
  have hto : SortedBy Candle.timestamp (D.masterTo b t') := hsorted.filter _
  exact ⟨_, (congrArg (· ++ _) hkeep).trans (hto.filter_append_filter t)⟩

/-- The candles only one side reads make no difference. -/
theorem playedTo_eq (hsorted : SortedBy Candle.timestamp (D.master b)) (hbooked : BookedTrade b D e)
    (hfair : FairTrade b D e) (t : ℤ) :
    b.playedTo D t e = loopUntil (advanceAt (b.profileFor e)) e.signal
      ((D.masterTo b t).filter fun c =>
        decide (pairCurrentTs b.masterLtf e.analysisClose < c.timestamp)) := by
  have htrig := hbooked.fresh.status_eq
  have hto : SortedBy Candle.timestamp (D.masterTo b t) := hsorted.filter _
  rw [Backtest.playedTo, live, newerCandles]
  rcases le_total (e.signal.triggeredAt.getD 0)
    (pairCurrentTs b.masterLtf e.analysisClose) with hle | hle
  · refine loop_later hto htrig hle fun c hc hx hy => hfair.quiet c (List.mem_of_mem_filter hc) ?_
    omega
  · refine (loop_later hto htrig hle fun c hc hx hy =>
      hfair.quiet c (List.mem_of_mem_filter hc) ?_).symm
    omega

/-- **One trade**: the live reading is over at `t` exactly when the backtest's trade has closed
    by `t`, and with the same signal. -/
theorem playedTo_over (hsorted : SortedBy Candle.timestamp (D.master b))
    (hvalid : ∀ c ∈ D.master b, c.Valid) (hpct : b.trailingGivebackPct = 0)
    (hbooked : BookedTrade b D e) (hfair : FairTrade b D e) (t : ℤ) :
    ((b.playedTo D t e).2 = true ↔ e.result.ClosedBy t) ∧
      (e.result.ClosedBy t → (b.playedTo D t e).1 = e.result.signal) := by
  have hrun := hbooked.fresh.running
  set x := pairCurrentTs b.masterLtf e.analysisClose with hx
  set F := (D.master b).filter fun c => decide (x < c.timestamp) with hF
  have hFsorted : SortedBy Candle.timestamp F := hsorted.filter _
  have hFvalid : ∀ c ∈ F, c.Valid := fun c hc => hvalid c (List.mem_of_mem_filter hc)
  have hcut : (D.masterTo b t).filter (fun c => decide (x < c.timestamp)) =
      F.filter fun c => decide (c.timestamp ≤ t) := by
    rw [History.masterTo, hF, List.filter_filter, List.filter_filter]
    exact List.filter_congr fun c _ => Bool.and_comm _ _
  have hplayed := playedTo_eq hsorted hbooked hfair t
  rw [← hx, hcut] at hplayed
  have hsim := hbooked.simulated
  rw [hpct, simulate_zero _ hrun] at hsim
  obtain ⟨hsignal, hclose⟩ := simulateReplay_loop hrun hFvalid hsim
  have hsplit := hFsorted.filter_append_filter t
  rw [← hsplit] at hsignal hclose
  rw [hplayed]
  cases hend : (loopUntil (advanceAt (b.profileFor e)) e.signal
      (F.filter fun c => decide (c.timestamp ≤ t))).2 with
  | true =>
      rw [loopUntil_append_of_broke hend] at hsignal hclose
      rw [hend, if_pos rfl] at hclose
      obtain ⟨c, hc, hat⟩ := loop_closedAt hrun.isOpen hend
      have hle := of_decide_eq_true (List.mem_filter.mp hc).2
      exact ⟨iff_of_true rfl ⟨c.timestamp, hclose.trans hat, hle⟩, fun _ => hsignal.symm⟩
  | false =>
      have hopen : ¬ e.result.ClosedBy t := by
        rintro ⟨ts, hts, hle⟩
        rw [loopUntil_append_of_pass hend] at hclose
        rw [hclose] at hts
        split at hts
        · next hbroke =>
            obtain ⟨c, hc, hat⟩ := loop_closedAt (loop_running hrun hend).isOpen hbroke
            rw [hat] at hts
            have hlt := of_decide_eq_true (List.mem_filter.mp hc).2
            cases hts
            omega
        · cases hts
      exact ⟨iff_of_false Bool.false_ne_true hopen, fun hclosed => absurd hclosed hopen⟩

end SignalEngine
