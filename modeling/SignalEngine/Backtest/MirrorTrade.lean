/-
  Mirror trade: longs and shorts are managed alike.

  A trade is reflected by `TradeSignal.mirror`: the direction is exchanged, every price `p`
  becomes `K - p`, and what is no price stays. `advance` and `trailStep` commute with the
  reflection, branch by branch, and so do the runs over them. The trailing simulator reads a
  best price of zero as missing; on prices strictly between `0` and `K` (`Candle.Within`)
  neither the trade nor its reflection ever has one.
-/
import SignalEngine.Backtest.TrailStop
import SignalEngine.Domain.Mirror
import SignalEngine.Engine.Lifecycle

namespace SignalEngine

def TradeSignal.mirror (K : ℚ) (s : TradeSignal) : TradeSignal :=
  { s with
    direction := s.direction.flip
    entryPrice := K - s.entryPrice
    stopLoss := K - s.stopLoss
    tp1 := K - s.tp1
    tp2 := K - s.tp2
    htfRange := s.htfRange.mirror K
    rejectionCandle := s.rejectionCandle.mirror K
    candleClosePrice := s.candleClosePrice.map (K - ·)
    liveBidAtSignal := s.liveAskAtSignal.map (K - ·)
    liveAskAtSignal := s.liveBidAtSignal.map (K - ·)
    priceDrift := s.priceDrift.map (-·)
    closePrice := s.closePrice.map (K - ·) }

def TrailState.mirror (K : ℚ) (st : TrailState) : TrailState :=
  { st with
    probe := st.probe.mirror K
    currentSl := K - st.currentSl
    trailMfePrice := st.trailMfePrice.map (K - ·)
    trailedSl := st.trailedSl.map (K - ·) }

def BacktestResult.mirror (K : ℚ) (r : BacktestResult) : BacktestResult :=
  { r with
    signal := r.signal.mirror K
    closePrice := r.closePrice.map (K - ·)
    trailMfePrice := r.trailMfePrice.map (K - ·)
    trailedSl := r.trailedSl.map (K - ·) }

/-- The extremes of the candle and of its reflection are positive. -/
structure Candle.Within (K : ℚ) (c : Candle) : Prop where
  low_pos : 0 < c.low
  high_pos : 0 < c.high
  low_lt : c.low < K
  high_lt : c.high < K

variable {K : ℚ} {s : TradeSignal} {c : Candle} {p : AssetProfile} {pct : ℚ} {st : TrailState}
  {F : List Candle}

/-! ## Hit tests -/

theorem reachesStop_mirror (K : ℚ) (d : SignalDirection) (c : Candle) (x : ℚ) :
    reachesStop d.flip (c.mirror K) (K - x) = reachesStop d c x := by
  cases d <;> simp only [reachesStop, SignalDirection.flip, Candle.mirror, sub_le_sub_iff_left]

theorem reachesTarget_mirror (K : ℚ) (d : SignalDirection) (c : Candle) (x : ℚ) :
    reachesTarget d.flip (c.mirror K) (K - x) = reachesTarget d c x := by
  cases d <;> simp only [reachesTarget, SignalDirection.flip, Candle.mirror, sub_le_sub_iff_left]

theorem normalizeCandle_mirror (K : ℚ) (c : Candle) :
    normalizeCandle (c.mirror K) = (normalizeCandle c).map (Candle.mirror K) := by
  unfold normalizeCandle
  simp only [Candle.mirror, sub_lt_sub_iff_left]
  split
  · rfl
  split
  · rfl
  · rfl

/-! ## The lifecycle -/

theorem effectiveSl_mirror (K : ℚ) (s : TradeSignal) (p : AssetProfile) :
    effectiveSl (s.mirror K) p = K - effectiveSl s p :=
  (apply_ite (K - ·) (s.status = .tp1Hit ∧ p.moveSlToBeOnTp1 = true) s.entryPrice s.stopLoss).symm

theorem expireSignal_mirror (K : ℚ) (s : TradeSignal) (c : Candle) (p : AssetProfile) (now : ℤ) :
    expireSignal (s.mirror K) (c.mirror K) p now = (expireSignal s c p now).mirror K := by
  have hstatus : (s.mirror K).status = s.status := rfl
  unfold expireSignal
  rw [hstatus]
  split
  · rfl
  split
  · split <;> rfl
  · rfl

theorem tp1HitBlock_mirror (K : ℚ) (s : TradeSignal) (p : AssetProfile) (now : ℤ)
    (tp2Hit slHit : Bool) (effSl : ℚ) (emitTp1 : Bool) :
    tp1HitBlock (s.mirror K) p now tp2Hit slHit (K - effSl) emitTp1 =
      Prod.map (TradeSignal.mirror K) id (tp1HitBlock s p now tp2Hit slHit effSl emitTp1) := by
  unfold tp1HitBlock
  split
  · rfl
  split
  · split <;> rfl
  · rfl

theorem advance_mirror (K : ℚ) (s : TradeSignal) (c : Candle) (p : AssetProfile) (now : ℤ) :
    advance (s.mirror K) (c.mirror K) p now =
      Prod.map (TradeSignal.mirror K) id (advance s c p now) := by
  have hexp : isExpired (s.mirror K) p now = isExpired s p now := rfl
  have hstatus : (s.mirror K).status = s.status := rfl
  have hstop : reachesStop (s.mirror K).direction (c.mirror K) (effectiveSl (s.mirror K) p) =
      reachesStop s.direction c (effectiveSl s p) := by
    rw [effectiveSl_mirror]
    exact reachesStop_mirror K s.direction c _
  have htp1 : reachesTarget (s.mirror K).direction (c.mirror K) (s.mirror K).tp1 =
      reachesTarget s.direction c s.tp1 := reachesTarget_mirror K s.direction c s.tp1
  have htp2 : reachesTarget (s.mirror K).direction (c.mirror K) (s.mirror K).tp2 =
      reachesTarget s.direction c s.tp2 := reachesTarget_mirror K s.direction c s.tp2
  unfold advance
  dsimp only
  rw [hexp, hstatus, hstop, htp1, htp2, effectiveSl_mirror, expireSignal_mirror]
  split
  · rfl
  split
  · split
    · rfl
    split
    · rfl
    split
    · exact tp1HitBlock_mirror K { s with status := .tp1Hit, tp1HitAt := some now } p now _ _ _ _
    · rfl
  split
  · exact tp1HitBlock_mirror K s p now _ _ _ _
  · rfl

theorem stepSignalState_mirror (K : ℚ) (s : TradeSignal) (c : Candle) (p : AssetProfile)
    (now : ℤ) :
    stepSignalState (s.mirror K) (c.mirror K) p now =
      (stepSignalState s c p now).map (Prod.map (TradeSignal.mirror K) id) := by
  unfold stepSignalState
  rw [normalizeCandle_mirror]
  cases normalizeCandle c with
  | error e => rfl
  | ok c' => exact congrArg Except.ok (advance_mirror K s c' p now)

/-- A recorded step of a run, reflected. -/
def mirrorRecord (K : ℚ) (x : Candle × TradeSignal × StepOutcome) :
    Candle × TradeSignal × StepOutcome := (x.1.mirror K, x.2.1.mirror K, x.2.2)

theorem lifecycleSteps_mirror (K : ℚ) (p : AssetProfile) (s : TradeSignal) (F : List Candle) :
    lifecycleSteps p (s.mirror K) (F.map (Candle.mirror K)) =
      (lifecycleSteps p s F).map (List.map (mirrorRecord K)) := by
  induction F generalizing s with
  | nil => rfl
  | cons c cs ih =>
      rw [List.map_cons, lifecycleSteps, lifecycleSteps, mirror_timestamp, stepSignalState_mirror]
      cases stepSignalState s c p c.timestamp with
      | error e => rfl
      | ok r =>
          obtain ⟨s', out⟩ := r
          simp only [Except.map, Prod.map, id_eq]
          cases out.terminal with
          | true => rfl
          | false =>
              simp only [Bool.false_eq_true, if_false]
              rw [ih s']
              cases lifecycleSteps p s' cs <;> rfl

theorem replaySignalLifecycle_mirror (K : ℚ) (p : AssetProfile) (s : TradeSignal)
    (F : List Candle) :
    replaySignalLifecycle (s.mirror K) (F.map (Candle.mirror K)) p =
      (replaySignalLifecycle s F p).map (TradeSignal.mirror K) := by
  induction F generalizing s with
  | nil => rfl
  | cons c cs ih =>
      rw [List.map_cons, replaySignalLifecycle, replaySignalLifecycle, mirror_timestamp,
        stepSignalState_mirror]
      cases stepSignalState s c p c.timestamp with
      | error e => rfl
      | ok r =>
          obtain ⟨s', out⟩ := r
          simp only [Except.map, Prod.map, id_eq]
          cases out.terminal with
          | true => rfl
          | false => exact ih s'

theorem simulateReplay_mirror (K : ℚ) (p : AssetProfile) (s : TradeSignal) (F : List Candle) :
    simulateReplay p (s.mirror K) (F.map (Candle.mirror K)) =
      (simulateReplay p s F).map (BacktestResult.mirror K) := by
  unfold simulateReplay
  rw [replaySignalLifecycle_mirror]
  cases replaySignalLifecycle s F p with
  | error e => rfl
  | ok r =>
      have houtcome : (r.mirror K).outcome = r.outcome := rfl
      simp only [Except.map, houtcome]
      cases r.outcome <;> rfl

/-! ## The trailing simulator -/

/-- The best price is one of a candle within `K`. -/
def TrailState.MfeWithin (K : ℚ) (st : TrailState) : Prop :=
  ∀ b, st.trailMfePrice = some b → 0 < b ∧ b < K

/-- A best price that is positive on both sides is read as it is. -/
theorem pyOr_mirror {o : Option ℚ} (h : ∀ b, o = some b → 0 < b ∧ b < K) (x : ℚ) :
    pyOr (o.map (K - ·)) (K - x) = K - pyOr o x := by
  cases o with
  | none => simp [pyOr]
  | some b =>
      obtain ⟨hpos, hlt⟩ := h b rfl
      have hb : b ≠ 0 := hpos.ne'
      have hb' : K - b ≠ 0 := (sub_pos.mpr hlt).ne'
      simp [pyOr, hb, hb']

theorem rrAtPrice_mirror (K : ℚ) (s : TradeSignal) (price : ℚ) :
    rrAtPrice (s.mirror K) (K - price) = rrAtPrice s price := by
  unfold rrAtPrice
  cases hd : s.direction with
  | long | short =>
      simp only [TradeSignal.mirror, hd, SignalDirection.flip]
      congr 1
      ring

theorem advanceGivebackSl_mirror (hst : st.MfeWithin K) :
    advanceGivebackSl pct (st.mirror K) (c.mirror K) = (advanceGivebackSl pct st c).mirror K := by
  have hentry : (st.mirror K).probe.entryPrice = K - st.probe.entryPrice := rfl
  have hdir : (st.mirror K).probe.direction = st.probe.direction.flip := rfl
  have hmfe : (st.mirror K).trailMfePrice = st.trailMfePrice.map (K - ·) := rfl
  have hsl : (st.mirror K).currentSl = K - st.currentSl := rfl
  unfold advanceGivebackSl
  rw [hdir]
  cases hd : st.probe.direction with
  | long =>
      have hbest : min (pyOr (st.mirror K).trailMfePrice (c.mirror K).low) (c.mirror K).low =
          K - max (pyOr st.trailMfePrice c.high) c.high := by
        rw [hmfe, ← min_sub_sub_left, ← pyOr_mirror hst]
        rfl
      simp only [SignalDirection.flip]
      rw [hbest, hentry, hsl]
      generalize max (pyOr st.trailMfePrice c.high) c.high = best
      have hmove : K - st.probe.entryPrice - (K - best) = best - st.probe.entryPrice := by ring
      have hclose : (c.mirror K).close = K - c.close := rfl
      rw [hmove, hclose]
      have hprop : K - st.probe.entryPrice - (best - st.probe.entryPrice) * (1 - pct / 100) =
          K - (st.probe.entryPrice + (best - st.probe.entryPrice) * (1 - pct / 100)) := by ring
      simp only [hprop, sub_lt_sub_iff_left]
      split
      · rfl
      split
      · rfl
      · rfl
  | short =>
      have hbest : max (pyOr (st.mirror K).trailMfePrice (c.mirror K).high) (c.mirror K).high =
          K - min (pyOr st.trailMfePrice c.low) c.low := by
        rw [hmfe, ← max_sub_sub_left, ← pyOr_mirror hst]
        rfl
      simp only [SignalDirection.flip]
      rw [hbest, hentry, hsl]
      generalize min (pyOr st.trailMfePrice c.low) c.low = best
      have hmove : K - best - (K - st.probe.entryPrice) = st.probe.entryPrice - best := by ring
      have hclose : (c.mirror K).close = K - c.close := rfl
      rw [hmove, hclose]
      have hprop : K - st.probe.entryPrice + (st.probe.entryPrice - best) * (1 - pct / 100) =
          K - (st.probe.entryPrice - (st.probe.entryPrice - best) * (1 - pct / 100)) := by ring
      simp only [hprop, sub_lt_sub_iff_left]
      split
      · rfl
      split
      · rfl
      · rfl

/-- The best price stays within `K` when the candles are: it is the old one or an extreme. -/
theorem advanceGivebackSl_within (hc : c.Within K) (hst : st.MfeWithin K) :
    (advanceGivebackSl pct st c).MfeWithin K := by
  have hextreme : 0 < favourableExtreme st.probe c ∧ favourableExtreme st.probe c < K := by
    unfold favourableExtreme
    cases st.probe.direction with
    | long => exact ⟨hc.high_pos, hc.high_lt⟩
    | short => exact ⟨hc.low_pos, hc.low_lt⟩
  have hpyOr : 0 < pyOr st.trailMfePrice (favourableExtreme st.probe c) ∧
      pyOr st.trailMfePrice (favourableExtreme st.probe c) < K := by
    unfold pyOr
    split
    · next hne =>
        cases hm : st.trailMfePrice with
        | none => rw [hm] at hne; exact absurd rfl hne
        | some b => exact hst b hm
    · exact hextreme
  obtain ⟨-, -, best, hbest, hgain, -⟩ := advanceGivebackSl_spec pct st c
  intro b hb
  obtain rfl := Option.some.inj (hbest.symm.trans hb)
  rcases max_choice (gain st.probe (pyOr st.trailMfePrice (favourableExtreme st.probe c)))
    (gain st.probe (favourableExtreme st.probe c)) with hmax | hmax
  · rw [hmax] at hgain
    rw [gain_injective _ hgain]
    exact hpyOr
  · rw [hmax] at hgain
    rw [gain_injective _ hgain]
    exact hextreme

theorem seeTp1_mirror (K : ℚ) (p : AssetProfile) (st : TrailState) (c : Candle) :
    (st.mirror K).seeTp1 p (c.mirror K) = (st.seeTp1 p c).mirror K := by
  have htp1 : reachesTarget (st.mirror K).probe.direction (c.mirror K) (st.mirror K).probe.tp1 =
      reachesTarget st.probe.direction c st.probe.tp1 :=
    reachesTarget_mirror K st.probe.direction c st.probe.tp1
  have hseen : (st.mirror K).tp1Seen = st.tp1Seen := rfl
  unfold TrailState.seeTp1
  rw [htp1, hseen]
  split
  · cases hbe : p.moveSlToBeOnTp1 <;> rfl
  · rfl

theorem touch_mirror (K : ℚ) (st : TrailState) (c : Candle) :
    (st.mirror K).touch (c.mirror K) = (st.touch c).mirror K := by
  have hentry : reachesStop (st.mirror K).probe.direction (c.mirror K)
      (st.mirror K).probe.entryPrice = reachesStop st.probe.direction c st.probe.entryPrice :=
    reachesStop_mirror K st.probe.direction c st.probe.entryPrice
  unfold TrailState.touch
  rw [hentry]
  rfl

theorem next_mirror (hc : c.Within K) (hst : st.MfeWithin K) :
    (st.mirror K).next p pct (c.mirror K) = (st.next p pct c).mirror K ∧
      (st.next p pct c).MfeWithin K := by
  have hsee : ((st.touch c).seeTp1 p c).MfeWithin K := by
    unfold TrailState.seeTp1
    split
    · exact hst
    · exact hst
  have hprot : ∀ st' : TrailState, (st'.mirror K).protects p = st'.protects p := fun _ => rfl
  unfold TrailState.next TrailState.trail
  rw [touch_mirror, seeTp1_mirror, hprot]
  split
  · exact ⟨advanceGivebackSl_mirror hsee, advanceGivebackSl_within hc hsee⟩
  · exact ⟨rfl, hsee⟩

theorem trailingResult_mirror (K pct : ℚ) (st : TrailState) (outcome : SignalOutcome)
    (realizedRr : ℚ) (closeTs : ℤ) (closePx : ℚ) (tp2Hit : Bool) :
    trailingResult pct (st.mirror K) outcome realizedRr closeTs (K - closePx) tp2Hit =
      (trailingResult pct st outcome realizedRr closeTs closePx tp2Hit).mirror K := by
  cases tp2Hit <;> rfl

theorem trailStep_mirror (p : AssetProfile) (pct : ℚ) (hc : c.Within K) (hst : st.MfeWithin K) :
    trailStep p pct (st.mirror K) (c.mirror K) =
      (trailStep p pct st c).map (BacktestResult.mirror K) (TrailState.mirror K) := by
  have heff : (st.mirror K).effectiveSl p = K - st.effectiveSl p :=
    (apply_ite (K - ·) (st.protects p = true) st.currentSl st.probe.stopLoss).symm
  have hstop : reachesStop (st.mirror K).probe.direction (c.mirror K)
      ((st.mirror K).effectiveSl p) = reachesStop st.probe.direction c (st.effectiveSl p) := by
    rw [heff]
    exact reachesStop_mirror K st.probe.direction c _
  have hwins : (st.mirror K).wins (c.mirror K) = st.wins c :=
    congrArg₂ (fun a b => (st.tp1Seen || a) && b)
      (reachesTarget_mirror K st.probe.direction c st.probe.tp1)
      (reachesTarget_mirror K st.probe.direction c st.probe.tp2)
  have hrr : rrAtPrice (st.mirror K).probe ((st.mirror K).effectiveSl p) =
      rrAtPrice st.probe (st.effectiveSl p) := by
    rw [heff]
    exact rrAtPrice_mirror K st.probe _
  have hcut : expiryCutoff p (st.mirror K).probe = expiryCutoff p st.probe := rfl
  have hprot : (st.mirror K).protects p = st.protects p := rfl
  rw [trailStep_eq, trailStep_eq, hcut, mirror_timestamp, hprot, hwins, hstop, hrr, heff,
    (next_mirror hc hst).1, touch_mirror]
  split
  · split <;> rfl
  split
  · exact congrArg Sum.inl (trailingResult_mirror K pct (st.touch c) _ _ _ st.probe.tp2 true)
  split
  · split
    · exact congrArg Sum.inl (trailingResult_mirror K pct (st.touch c) _ _ _ _ false)
    · exact congrArg Sum.inl
        (trailingResult_mirror K pct (st.touch c) _ _ _ st.probe.stopLoss false)
  · rfl

theorem trailLoop_mirror (p : AssetProfile) (pct : ℚ) (hF : ∀ c ∈ F, c.Within K)
    (hst : st.MfeWithin K) :
    trailLoop p pct (st.mirror K) (F.map (Candle.mirror K)) = (trailLoop p pct st F).mirror K := by
  induction F generalizing st with
  | nil => rfl
  | cons c cs ih =>
      have hc := hF c List.mem_cons_self
      have hcs : ∀ c' ∈ cs, c'.Within K := fun c' h => hF c' (List.mem_cons_of_mem _ h)
      have hstep := trailStep_step p pct st c
      rw [List.map_cons, trailLoop, trailLoop, trailStep_mirror p pct hc hst]
      generalize trailStep p pct st c = r at hstep
      cases hstep with
      | expireProtected | expire | win | stopProtected | stop => rfl
      | next => exact ih hcs (next_mirror hc hst).2

/-- Playing a trade out, with or without trailing, commutes with the reflection. -/
theorem simulate_mirror (p : AssetProfile) (pct : ℚ) (s : TradeSignal)
    (hF : ∀ c ∈ F, c.Within K) :
    simulate p pct (s.mirror K) (F.map (Candle.mirror K)) =
      (simulate p pct s F).map (BacktestResult.mirror K) := by
  cases F with
  | nil => rfl
  | cons c cs =>
      have hne : (c :: cs).map (Candle.mirror K) ≠ [] := List.cons_ne_nil _ _
      have hnone : (TrailState.start s).MfeWithin K := fun b hb => by cases hb
      have hstart : ({ probe := s.mirror K, currentSl := (s.mirror K).stopLoss } : TrailState) =
          (TrailState.start s).mirror K := rfl
      unfold simulate
      rw [if_neg hne, if_neg (List.cons_ne_nil c cs), hstart, trailLoop_mirror p pct hF hnone,
        simulateReplay_mirror]
      by_cases hpct : 0 < pct
      · rw [if_pos hpct, if_pos hpct]
        rfl
      · rw [if_neg hpct, if_neg hpct]

/-- **Mirror symmetry of trade management.** On prices that are positive before and after the
    reflection, every step, every run and every simulation of the reflected trade is the
    reflection of the one it had: the same status, outcome, R, times and entry touch, and the
    reflected close price, trailed stop and best price. -/
theorem mirror_tradeManagement (K : ℚ) (p : AssetProfile) (s : TradeSignal) (F : List Candle)
    (hF : ∀ c ∈ F, c.Within K) :
    (∀ c now, stepSignalState (s.mirror K) (c.mirror K) p now =
      (stepSignalState s c p now).map (Prod.map (TradeSignal.mirror K) id)) ∧
    lifecycleSteps p (s.mirror K) (F.map (Candle.mirror K)) =
      (lifecycleSteps p s F).map (List.map (mirrorRecord K)) ∧
    ∀ pct, simulate p pct (s.mirror K) (F.map (Candle.mirror K)) =
      (simulate p pct s F).map (BacktestResult.mirror K) :=
  ⟨fun c now => stepSignalState_mirror K s c p now, lifecycleSteps_mirror K p s F,
    fun pct => simulate_mirror p pct s hF⟩

/-- The sample long and its reflection at 300, a short, through a candle at TP1 and one back at
    the trailed stop. -/
theorem mirror_sampleSignal :
    simulate sampleProfile 50 (sampleSignal.mirror 300)
        ([⟨7500000, 106, 120, 105, 119, 0⟩, ⟨7800000, 119, 119, 104, 105, 0⟩].map
          (Candle.mirror 300)) =
      (simulate sampleProfile 50 sampleSignal
        [⟨7500000, 106, 120, 105, 119, 0⟩, ⟨7800000, 119, 119, 104, 105, 0⟩]).map
          (BacktestResult.mirror 300) := by
  refine (mirror_tradeManagement 300 sampleProfile sampleSignal _ fun c hc => ?_).2.2 50
  simp only [List.mem_cons, List.not_mem_nil, or_false] at hc
  rcases hc with rfl | rfl
  · constructor <;> norm_num
  · constructor <;> norm_num

end SignalEngine
