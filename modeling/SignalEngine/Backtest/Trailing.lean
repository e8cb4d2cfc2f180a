/-
  Trailing: what one candle can do to a trade in `_simulate_with_giveback_trailing`.

  `TrailStep` lists the ways out of `trailStep`, guards included, as `LifecycleStep` does for
  the replay (`trailStep_step`). Later facts about the trailing simulator are read off its six
  cases.
-/
import SignalEngine.Backtest.Simulate

namespace SignalEngine

/-- `expiry_cutoff`. -/
def expiryCutoff (p : AssetProfile) (s : TradeSignal) : ℤ :=
  pyInt (s.createdAt + p.signalExpiryHours * msPerHour)

/-- `hit_entry_after_tp1` once the candle has been looked at. -/
def TrailState.touch (st : TrailState) (c : Candle) : TrailState :=
  { st with
    hitEntryAfterTp1 := st.hitEntryAfterTp1 ||
      (st.tp1Seen && reachesStop st.probe.direction c st.probe.entryPrice) }

/-- The state handed to the next candle. -/
def TrailState.next (p : AssetProfile) (pct : ℚ) (st : TrailState) (c : Candle) : TrailState :=
  ((st.touch c).seeTp1 p c).trail p pct c

/-- TP1 has been reached by this candle or before, and this one reaches TP2. -/
def TrailState.wins (st : TrailState) (c : Candle) : Bool :=
  (st.tp1Seen || reachesTarget st.probe.direction c st.probe.tp1) &&
    reachesTarget st.probe.direction c st.probe.tp2

/-- The trade the simulation starts from. -/
def TrailState.start (s : TradeSignal) : TrailState := { probe := s, currentSl := s.stopLoss }

/-- The candles of the trailing simulator, one constructor for each way out of `trailStep`. -/
inductive TrailStep (p : AssetProfile) (pct : ℚ) (c : Candle) (st : TrailState) :
    BacktestResult ⊕ TrailState → Prop
  | expireProtected : expiryCutoff p st.probe < c.timestamp → st.protects p = true →
      TrailStep p pct c st (.inl (trailingResult pct st .breakeven (protectedBeRr st.probe p)
        c.timestamp st.probe.entryPrice))
  | expire : expiryCutoff p st.probe < c.timestamp → st.protects p = false →
      TrailStep p pct c st (.inl (trailingResult pct st .expired 0 c.timestamp c.close))
  | win : c.timestamp ≤ expiryCutoff p st.probe → st.wins c = true →
      TrailStep p pct c st (.inl (trailingResult pct (st.touch c) .winFull
        st.probe.riskRewardRatio c.timestamp st.probe.tp2 true))
  | stopProtected : c.timestamp ≤ expiryCutoff p st.probe → st.wins c = false →
      st.protects p = true → reachesStop st.probe.direction c st.currentSl = true →
      TrailStep p pct c st (.inl (trailingResult pct (st.touch c) .breakeven
        (max (protectedBeRr st.probe p) (rrAtPrice st.probe st.currentSl)) c.timestamp
        st.currentSl))
  | stop : c.timestamp ≤ expiryCutoff p st.probe → st.wins c = false →
      st.protects p = false → reachesStop st.probe.direction c st.probe.stopLoss = true →
      TrailStep p pct c st (.inl (trailingResult pct (st.touch c) .loss (-1) c.timestamp
        st.probe.stopLoss))
  | next : c.timestamp ≤ expiryCutoff p st.probe → st.wins c = false →
      reachesStop st.probe.direction c (st.effectiveSl p) = false →
      TrailStep p pct c st (.inr (st.next p pct c))

variable {s : TradeSignal} {p : AssetProfile} {c : Candle} {pct : ℚ} {st : TrailState}

theorem effectiveSl_of_protects (h : st.protects p = true) : st.effectiveSl p = st.currentSl := by
  rw [TrailState.effectiveSl, if_pos h]

theorem effectiveSl_of_not_protects (h : st.protects p = false) :
    st.effectiveSl p = st.probe.stopLoss := by
  rw [TrailState.effectiveSl, h, if_neg Bool.false_ne_true]

/-- `trailStep` in the words of this module. -/
theorem trailStep_eq (p : AssetProfile) (pct : ℚ) (st : TrailState) (c : Candle) :
    trailStep p pct st c =
      if expiryCutoff p st.probe < c.timestamp then
        if st.protects p then
          .inl (trailingResult pct st .breakeven (protectedBeRr st.probe p) c.timestamp
            st.probe.entryPrice)
        else .inl (trailingResult pct st .expired 0 c.timestamp c.close)
      else if st.wins c then
        .inl (trailingResult pct (st.touch c) .winFull st.probe.riskRewardRatio c.timestamp
          st.probe.tp2 true)
      else if reachesStop st.probe.direction c (st.effectiveSl p) then
        if st.protects p then
          .inl (trailingResult pct (st.touch c) .breakeven
            (max (protectedBeRr st.probe p) (rrAtPrice st.probe (st.effectiveSl p))) c.timestamp
            (st.effectiveSl p))
        else .inl (trailingResult pct (st.touch c) .loss (-1) c.timestamp st.probe.stopLoss)
      else .inr (st.next p pct c) := rfl

/-- Every candle is one of the six. -/
theorem trailStep_step (p : AssetProfile) (pct : ℚ) (st : TrailState) (c : Candle) :
    TrailStep p pct c st (trailStep p pct st c) := by
  rw [trailStep_eq]
  by_cases hexp : expiryCutoff p st.probe < c.timestamp
  · rw [if_pos hexp]
    cases hprot : st.protects p with
    | true => exact .expireProtected hexp hprot
    | false => exact .expire hexp hprot
  · have hle : c.timestamp ≤ expiryCutoff p st.probe := not_lt.mp hexp
    rw [if_neg hexp]
    cases hwin : st.wins c with
    | true => exact .win hle hwin
    | false =>
        rw [if_neg Bool.false_ne_true]
        cases hstop : reachesStop st.probe.direction c (st.effectiveSl p) with
        | false => exact .next hle hwin hstop
        | true =>
            rw [if_pos rfl]
            cases hprot : st.protects p with
            | true =>
                rw [effectiveSl_of_protects hprot] at hstop ⊢
                exact .stopProtected hle hwin hprot hstop
            | false =>
                rw [effectiveSl_of_not_protects hprot] at hstop
                exact .stop hle hwin hprot hstop

/-! ## The parts a candle leaves alone -/

@[simp] theorem touch_probe : (st.touch c).probe = st.probe := rfl

@[simp] theorem touch_tp1Seen : (st.touch c).tp1Seen = st.tp1Seen := rfl

theorem protects_eq_true_iff :
    st.protects p = true ↔ st.tp1Seen = true ∧ p.moveSlToBeOnTp1 = true := by
  rw [TrailState.protects, Bool.and_eq_true]

theorem protects_of_not_seen (h : st.tp1Seen = false) : st.protects p = false := by
  rw [TrailState.protects, h, Bool.false_and]

theorem wins_of_not_seen (h : st.tp1Seen = false) :
    st.wins c = (reachesTarget st.probe.direction c st.probe.tp1 &&
      reachesTarget st.probe.direction c st.probe.tp2) := by
  rw [TrailState.wins, h, Bool.false_or]

theorem wins_of_seen (h : st.tp1Seen = true) :
    st.wins c = reachesTarget st.probe.direction c st.probe.tp2 := by
  rw [TrailState.wins, h, Bool.true_or, Bool.true_and]

end SignalEngine
