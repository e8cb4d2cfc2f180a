/-
  Simulate: how the backtest plays a signal out on the candles that follow.

  Model. Without trailing, `_simulate` is `replay_signal_lifecycle`; with a giveback percentage
  it is its own loop, here `trailLoop` over `trailStep`, which does not validate candles.

  Proved: a trade that closes does so at a candle of the list, a trade closed on a part of the
  list is closed alike on all of it (`simulate_append`), and the record keeps the trade that
  was emitted (`sameTrade_simulate`). The inductions are on the candle list.
-/
import SignalEngine.Domain.Builder
import SignalEngine.Engine.Replay

namespace SignalEngine

structure BacktestResult where
  signal : TradeSignal
  outcome : SignalOutcome
  realizedRr : ℚ
  closeTs : Option ℤ
  closePrice : Option ℚ
  hitEntryAfterTp1 : Bool := false
  trailMfePrice : Option ℚ := none
  trailedSl : Option ℚ := none
  trailingGivebackPct : ℚ := 0
  deriving DecidableEq, Repr

/-! ## Replay -/

def simulateReplay (p : AssetProfile) (s : TradeSignal) (future : List Candle) :
    Except CandleError BacktestResult :=
  match replaySignalLifecycle s future p with
  | .error e => .error e
  | .ok replayed =>
      match replayed.outcome with
      | none => .ok ⟨replayed, .expired, 0, none, none, false, none, none, 0⟩
      | some o =>
          .ok ⟨replayed, o, replayed.realizedRr.getD 0, replayed.closedAt, replayed.closePrice,
            false, none, none, 0⟩

/-! ## Giveback trailing -/

structure TrailState where
  probe : TradeSignal
  currentSl : ℚ
  trailMfePrice : Option ℚ := none
  trailedSl : Option ℚ := none
  tp1Seen : Bool := false
  hitEntryAfterTp1 : Bool := false

/-- `_rr_at_price`. -/
def rrAtPrice (s : TradeSignal) (price : ℚ) : ℚ :=
  match s.direction with
  | .long => (price - s.entryPrice) / s.riskPips
  | .short => (s.entryPrice - price) / s.riskPips

/-- `_advance_giveback_sl`. -/
def advanceGivebackSl (pct : ℚ) (st : TrailState) (c : Candle) : TrailState :=
  let entry := st.probe.entryPrice
  match st.probe.direction with
  | .long =>
      let best := max (pyOr st.trailMfePrice c.high) c.high
      let proposed := entry + (best - entry) * (1 - pct / 100)
      if best - entry ≤ 0 then { st with trailMfePrice := some best }
      else if st.currentSl < proposed ∧ proposed < c.close then
        { st with currentSl := proposed, trailMfePrice := some best, trailedSl := some proposed }
      else { st with trailMfePrice := some best }
  | .short =>
      let best := min (pyOr st.trailMfePrice c.low) c.low
      let proposed := entry - (entry - best) * (1 - pct / 100)
      if entry - best ≤ 0 then { st with trailMfePrice := some best }
      else if proposed < st.currentSl ∧ c.close < proposed then
        { st with currentSl := proposed, trailMfePrice := some best, trailedSl := some proposed }
      else { st with trailMfePrice := some best }

/-- `_trailing_result`. -/
def trailingResult (pct : ℚ) (st : TrailState) (outcome : SignalOutcome) (realizedRr : ℚ)
    (closeTs : ℤ) (closePx : ℚ) (tp2Hit : Bool := false) : BacktestResult where
  signal :=
    { st.probe with
      outcome := some outcome
      realizedRr := some realizedRr
      closePrice := some closePx
      closedAt := some closeTs
      tp2HitAt := if tp2Hit then some closeTs else st.probe.tp2HitAt }
  outcome := outcome
  realizedRr := realizedRr
  closeTs := some closeTs
  closePrice := some closePx
  hitEntryAfterTp1 := st.hitEntryAfterTp1
  trailMfePrice := st.trailMfePrice
  trailedSl := st.trailedSl
  trailingGivebackPct := pct

/-- TP1 has been seen and moves the stop. -/
def TrailState.protects (p : AssetProfile) (st : TrailState) : Bool :=
  st.tp1Seen && p.moveSlToBeOnTp1

/-- `effective_sl`. -/
def TrailState.effectiveSl (p : AssetProfile) (st : TrailState) : ℚ :=
  if st.protects p then st.currentSl else st.probe.stopLoss

/-- The first candle at TP1. -/
def TrailState.seeTp1 (p : AssetProfile) (st : TrailState) (c : Candle) : TrailState :=
  if reachesTarget st.probe.direction c st.probe.tp1 && !st.tp1Seen then
    { st with
      tp1Seen := true
      probe := { st.probe with tp1HitAt := some c.timestamp }
      currentSl :=
        if p.moveSlToBeOnTp1 then protectedBePrice st.probe p else st.probe.stopLoss }
  else st

/-- The stop moves along once TP1 protects the trade. -/
def TrailState.trail (p : AssetProfile) (pct : ℚ) (st : TrailState) (c : Candle) : TrailState :=
  if st.protects p then advanceGivebackSl pct st c else st

/-- One candle of `_simulate_with_giveback_trailing`: a result, or the state for the next. -/
def trailStep (p : AssetProfile) (pct : ℚ) (st : TrailState) (c : Candle) :
    BacktestResult ⊕ TrailState :=
  let s := st.probe
  let effSl := st.effectiveSl p
  if pyInt (s.createdAt + p.signalExpiryHours * msPerHour) < c.timestamp then
    if st.protects p then
      .inl (trailingResult pct st .breakeven (protectedBeRr s p) c.timestamp (protectedBePrice s p))
    else .inl (trailingResult pct st .expired 0 c.timestamp c.close)
  else
    let entryNow := reachesStop s.direction c s.entryPrice
    let st := { st with hitEntryAfterTp1 := st.hitEntryAfterTp1 || (st.tp1Seen && entryNow) }
    if (st.tp1Seen || reachesTarget s.direction c s.tp1) && reachesTarget s.direction c s.tp2 then
      .inl (trailingResult pct st .winFull s.riskRewardRatio c.timestamp s.tp2 true)
    else if reachesStop s.direction c effSl then
      if st.protects p then
        .inl (trailingResult pct st .breakeven (max (protectedBeRr s p) (rrAtPrice s effSl))
          c.timestamp effSl)
      else .inl (trailingResult pct st .loss (-1) c.timestamp s.stopLoss)
    else .inr ((st.seeTp1 p c).trail p pct c)

def trailLoop (p : AssetProfile) (pct : ℚ) (st : TrailState) : List Candle → BacktestResult
  | [] =>
      ⟨st.probe, .expired, 0, none, none, st.hitEntryAfterTp1, st.trailMfePrice, st.trailedSl, pct⟩
  | c :: cs =>
      match trailStep p pct st c with
      | .inl r => r
      | .inr st => trailLoop p pct st cs

/-- `_simulate`. -/
def simulate (p : AssetProfile) (pct : ℚ) (s : TradeSignal) (future : List Candle) :
    Except CandleError BacktestResult :=
  if future = [] then .ok ⟨s, .expired, 0, none, none, false, none, none, 0⟩
  else if 0 < pct then .ok (trailLoop p pct { probe := s, currentSl := s.stopLoss } future)
  else simulateReplay p s future

/-! ## The trade that was emitted -/

variable {p : AssetProfile} {pct : ℚ} {s : TradeSignal} {st : TrailState} {c : Candle}
  {F G : List Candle} {r : BacktestResult}

theorem sameTrade_replay {r : TradeSignal} (h : replaySignalLifecycle s F p = .ok r) :
    SameTrade s r := by
  induction F generalizing s with
  | nil => cases h; exact SameTrade.refl _
  | cons c cs ih =>
      rw [replaySignalLifecycle] at h
      split at h
      · cases h
      next s' step hstep =>
      have hsame := sameTrade_stepSignalState hstep
      split at h
      · cases h; exact hsame
      · exact hsame.trans (ih h)

@[simp] theorem advanceGivebackSl_probe : (advanceGivebackSl pct st c).probe = st.probe := by
  unfold advanceGivebackSl
  dsimp only
  split
  · split
    · rfl
    · split <;> rfl
  · split
    · rfl
    · split <;> rfl

theorem sameTrade_trail (h : st.probe = s) :
    SameTrade s ((st.seeTp1 p c).trail p pct c).probe := by
  subst h
  have htrail : ((st.seeTp1 p c).trail p pct c).probe = (st.seeTp1 p c).probe := by
    unfold TrailState.trail
    split
    · exact advanceGivebackSl_probe
    · rfl
  rw [htrail, TrailState.seeTp1]
  split <;> constructor <;> rfl

/-- What a trailing step can do: close at its candle, or keep the trade. -/
theorem trailStep_cases (p : AssetProfile) (pct : ℚ) (st : TrailState) (c : Candle) :
    (∃ r, trailStep p pct st c = .inl r ∧ SameTrade st.probe r.signal ∧
      r.closeTs = some c.timestamp) ∨
    ∃ st', trailStep p pct st c = .inr st' ∧ SameTrade st.probe st'.probe := by
  unfold trailStep
  dsimp only
  split
  · split
    · exact Or.inl ⟨_, rfl, by constructor <;> rfl, rfl⟩
    · exact Or.inl ⟨_, rfl, by constructor <;> rfl, rfl⟩
  split
  · exact Or.inl ⟨_, rfl, by constructor <;> rfl, rfl⟩
  split
  · split
    · exact Or.inl ⟨_, rfl, by constructor <;> rfl, rfl⟩
    · exact Or.inl ⟨_, rfl, by constructor <;> rfl, rfl⟩
  · exact Or.inr ⟨_, rfl, sameTrade_trail rfl⟩

theorem sameTrade_trailLoop (st : TrailState) :
    SameTrade st.probe (trailLoop p pct st F).signal := by
  induction F generalizing st with
  | nil => exact SameTrade.refl _
  | cons c cs ih =>
      rw [trailLoop]
      rcases trailStep_cases p pct st c with
        ⟨r, hr, hsame, -⟩ | ⟨st', hst, hsame⟩
      · rw [hr]; exact hsame
      · rw [hst]; exact hsame.trans (ih st')

theorem sameTrade_simulate (h : simulate p pct s F = .ok r) : SameTrade s r.signal := by
  unfold simulate at h
  split at h
  · cases h; exact SameTrade.refl s
  split at h
  · cases h; exact sameTrade_trailLoop { probe := s, currentSl := s.stopLoss }
  · unfold simulateReplay at h
    split at h
    · cases h
    next replayed hreplay =>
    have hsame := sameTrade_replay hreplay
    split at h
    · cases h; exact hsame
    · cases h; exact hsame

/-! ## Closing -/

/-- The result is the one reached on `F`, at a candle of `F`; or `F` leaves the trade running
    and a later close happens at a candle of `G`. -/
def ClosesAlike (sim : List Candle → Except CandleError BacktestResult) (F G : List Candle)
    (r : BacktestResult) : Prop :=
  (∃ c ∈ F, r.closeTs = some c.timestamp ∧ sim F = .ok r) ∨
    ((∃ r', sim F = .ok r' ∧ r'.closeTs = none) ∧
      ∀ ts, r.closeTs = some ts → ∃ c ∈ G, ts = c.timestamp)

theorem trailLoop_append (p : AssetProfile) (pct : ℚ) (st : TrailState) (F G : List Candle) :
    ClosesAlike (fun cs => .ok (trailLoop p pct st cs)) F G (trailLoop p pct st (F ++ G)) := by
  induction F generalizing st with
  | nil =>
      refine Or.inr ⟨⟨_, rfl, rfl⟩, ?_⟩
      rw [List.nil_append]
      induction G generalizing st with
      | nil => intro ts h; cases h
      | cons c cs ih =>
          intro ts h
          rw [trailLoop] at h
          rcases trailStep_cases p pct st c with
            ⟨r, hr, -, hts⟩ | ⟨st', hst, -⟩
          · rw [hr] at h
            dsimp only at h
            rw [hts] at h
            cases h
            exact ⟨c, List.mem_cons_self, rfl⟩
          · rw [hst] at h
            obtain ⟨d, hd, heq⟩ := ih st' ts h
            exact ⟨d, List.mem_cons_of_mem _ hd, heq⟩
  | cons c cs ih =>
      rcases trailStep_cases p pct st c with
        ⟨r, hr, -, hts⟩ | ⟨st', hst, -⟩
      · refine Or.inl ⟨c, List.mem_cons_self, ?_, ?_⟩
        · rw [List.cons_append, trailLoop, hr]
          exact hts
        · dsimp only
          rw [List.cons_append, trailLoop, trailLoop, hr]
      · have hstep : ∀ xs, trailLoop p pct st (c :: xs) = trailLoop p pct st' xs := by
          intro xs
          rw [trailLoop, hst]
        rw [List.cons_append, hstep]
        rcases ih st' with ⟨d, hd, hts, heq⟩ | ⟨hopen, hlater⟩
        · refine Or.inl ⟨d, List.mem_cons_of_mem _ hd, hts, ?_⟩
          dsimp only
          rw [hstep]
          exact heq
        · refine Or.inr ⟨?_, hlater⟩
          dsimp only
          rw [hstep]
          exact hopen

/-- A trade under way: open, with no result yet. -/
structure Running (s : TradeSignal) : Prop where
  isOpen : s.status.isOpen = true
  outcome_eq : s.outcome = none
  closedAt_eq : s.closedAt = none

theorem FreshSignal.running (h : FreshSignal s) : Running s :=
  ⟨by rw [h.status_eq]; rfl, h.outcome_eq, h.closedAt_eq⟩

theorem Running.advance (h : Running s) (p : AssetProfile) (c : Candle) (now : ℤ) :
    ((SignalEngine.advance s c p now).2.terminal = false →
      Running (SignalEngine.advance s c p now).1) ∧
    ((SignalEngine.advance s c p now).2.terminal = true →
      (∃ o, (SignalEngine.advance s c p now).1.outcome = some o) ∧
        (SignalEngine.advance s c p now).1.closedAt = some now) := by
  have hcase := advance_cases h.isOpen c p now
  generalize SignalEngine.advance s c p now = r at hcase ⊢
  cases hcase with
  | tp1 => exact ⟨fun _ => ⟨rfl, h.outcome_eq, h.closedAt_eq⟩, fun ht => by cases ht⟩
  | wait | hold => exact ⟨fun _ => h, fun ht => by cases ht⟩
  | expireTriggered | expireBreakeven | expireAfterTp1 =>
      exact ⟨fun ht => (by cases ht), fun _ => ⟨⟨_, rfl⟩, rfl⟩⟩
  | bothTargets | stop | tp2AfterTp1 | breakeven | stopAfterTp1 =>
      exact ⟨fun ht => (by cases ht), fun _ => ⟨⟨_, rfl⟩, rfl⟩⟩

theorem simulateReplay_nil (h : Running s) :
    simulateReplay p s [] = .ok ⟨s, .expired, 0, none, none, false, none, none, 0⟩ := by
  simp only [simulateReplay, replaySignalLifecycle, h.outcome_eq]

/-- One candle of the replay: it raises, closes the trade, or passes it on. -/
theorem simulateReplay_cons (h : Running s) (c : Candle) :
    (∃ e, ∀ cs, simulateReplay p s (c :: cs) = .error e) ∨
    (∃ r, (∀ cs, simulateReplay p s (c :: cs) = .ok r) ∧ r.closeTs = some c.timestamp) ∨
    ∃ s', Running s' ∧ ∀ cs, simulateReplay p s (c :: cs) = simulateReplay p s' cs := by
  cases hstep : stepSignalState s c p c.timestamp with
  | error e =>
      refine Or.inl ⟨e, fun cs => ?_⟩
      simp only [simulateReplay, replaySignalLifecycle, hstep]
  | ok a =>
      obtain ⟨s', out⟩ := a
      obtain ⟨-, hadv⟩ := stepSignalState_eq_ok hstep
      have hrun := h.advance p c c.timestamp
      rw [← hadv] at hrun
      cases hterm : out.terminal with
      | false =>
          refine Or.inr (Or.inr ⟨s', hrun.1 hterm, fun cs => ?_⟩)
          simp only [simulateReplay, replaySignalLifecycle, hstep, hterm, Bool.false_eq_true,
            if_false]
      | true =>
          obtain ⟨⟨o, ho⟩, hclosed⟩ := hrun.2 hterm
          dsimp only at ho hclosed
          refine Or.inr (Or.inl ⟨⟨s', o, s'.realizedRr.getD 0, s'.closedAt, s'.closePrice,
            false, none, none, 0⟩, fun cs => ?_, hclosed⟩)
          simp only [simulateReplay, replaySignalLifecycle, hstep, hterm, if_true, ho]

theorem simulateReplay_append (h : Running s) (hr : simulateReplay p s (F ++ G) = .ok r) :
    ClosesAlike (simulateReplay p s) F G r := by
  induction F generalizing s with
  | nil =>
      refine Or.inr ⟨⟨_, simulateReplay_nil h, rfl⟩, ?_⟩
      rw [List.nil_append] at hr
      induction G generalizing s with
      | nil =>
          rw [simulateReplay_nil h] at hr
          cases hr
          intro ts hts
          cases hts
      | cons c cs ih =>
          intro ts hts
          rcases simulateReplay_cons (p := p) h c with ⟨e, he⟩ | ⟨r', hr', hts'⟩ | ⟨s', h', hs'⟩
          · rw [he] at hr; cases hr
          · rw [hr'] at hr
            cases hr
            rw [hts'] at hts
            cases hts
            exact ⟨c, List.mem_cons_self, rfl⟩
          · rw [hs'] at hr
            obtain ⟨d, hd, heq⟩ := ih h' hr ts hts
            exact ⟨d, List.mem_cons_of_mem _ hd, heq⟩
  | cons c cs ih =>
      rw [List.cons_append] at hr
      rcases simulateReplay_cons (p := p) h c with ⟨e, he⟩ | ⟨r', hr', hts'⟩ | ⟨s', h', hs'⟩
      · rw [he] at hr; cases hr
      · rw [hr'] at hr
        cases hr
        exact Or.inl ⟨c, List.mem_cons_self, hts', hr' cs⟩
      · rw [hs'] at hr
        rcases ih h' hr with ⟨d, hd, hts, heq⟩ | ⟨hopen, hlater⟩
        · exact Or.inl ⟨d, List.mem_cons_of_mem _ hd, hts, by rw [hs', heq]⟩
        · refine Or.inr ⟨?_, hlater⟩
          rw [hs']
          exact hopen

/-- What closes on a part of the future is closed alike on all of it. -/
theorem simulate_append (h : Running s) (hr : simulate p pct s (F ++ G) = .ok r) :
    ClosesAlike (simulate p pct s) F G r := by
  by_cases hF : F = []
  · subst hF
    refine Or.inr ⟨⟨_, if_pos rfl, rfl⟩, fun ts hts => ?_⟩
    rw [List.nil_append] at hr
    unfold simulate at hr
    split at hr
    · cases hr; cases hts
    split at hr
    · cases hr
      rcases trailLoop_append p pct { probe := s, currentSl := s.stopLoss } [] G with
        ⟨c, hc, -⟩ | ⟨-, hlater⟩
      · cases hc
      · exact hlater ts hts
    · rcases simulateReplay_append (F := []) h hr with ⟨c, hc, -⟩ | ⟨-, hlater⟩
      · cases hc
      · exact hlater ts hts
  · have hFG : F ++ G ≠ [] := fun heq => hF (List.append_eq_nil_iff.mp heq).1
    unfold simulate at hr
    rw [if_neg hFG] at hr
    have hsim : simulate p pct s F =
        if 0 < pct then .ok (trailLoop p pct { probe := s, currentSl := s.stopLoss } F)
        else simulateReplay p s F := by
      unfold simulate
      rw [if_neg hF]
    unfold ClosesAlike
    rw [hsim]
    split at hr
    · next hpct =>
        cases hr
        rw [if_pos hpct]
        exact trailLoop_append p pct _ F G
    · next hpct =>
        rw [if_neg hpct]
        exact simulateReplay_append h hr

end SignalEngine
