/-
  Replay: `app/engine/market_replay.py`.

  `stepSignalState` is one candle of the lifecycle policy: it validates the candle
  (`normalizeCandle`), then advances the signal (`advance`). `replaySignalLifecycle` runs it
  over a candle list with `now` the candle's own timestamp and stops at the first terminal
  step. On valid candles the replay is `Lib.loopUntil` over `advanceAt`
  (`replaySignalLifecycle_eq_loop`).

  `advance_cases` says once what a step can do to an open signal, guards included. Every
  later fact about the lifecycle is read off its eleven cases.
-/
import SignalEngine.Domain.TradeManagement
import SignalEngine.Lib.Loop

namespace SignalEngine

open Lib

structure StepOutcome where
  terminal : Bool
  emitTp1 : Bool := false
  deriving DecidableEq, Repr

def protectedBePrice (s : TradeSignal) (_p : AssetProfile) : ℚ :=
  breakevenPrice s.direction s.entryPrice

def protectedBeRr (s : TradeSignal) (p : AssetProfile) : ℚ :=
  protectedBreakevenRr s.riskRewardRatio p.tp1TriggerPct p.tp1ClosePct

/-! ## Candle validation -/

/-- `datetime.fromtimestamp` accepts the years 1 to 9999. -/
def minUtcMs : ℤ := -62135596800000
def maxUtcMs : ℤ := 253402300799999

inductive CandleError where
  | timestampOutOfRange
  | highBelowLow
  deriving DecidableEq, Repr

/-- A rational is always finite, so the `math.isfinite` checks pass. -/
def normalizeCandle (c : Candle) : Except CandleError Candle :=
  if c.timestamp < minUtcMs ∨ maxUtcMs < c.timestamp then .error .timestampOutOfRange
  else if c.high < c.low then .error .highBelowLow
  else .ok c

/-- The candles `normalize_candle` accepts. -/
structure Candle.Valid (c : Candle) : Prop where
  min_le : minUtcMs ≤ c.timestamp
  le_max : c.timestamp ≤ maxUtcMs
  low_le_high : c.low ≤ c.high

instance (c : Candle) : Decidable c.Valid :=
  decidable_of_iff (minUtcMs ≤ c.timestamp ∧ c.timestamp ≤ maxUtcMs ∧ c.low ≤ c.high)
    ⟨fun h => ⟨h.1, h.2.1, h.2.2⟩, fun h => ⟨h.1, h.2, h.3⟩⟩

theorem normalizeCandle_eq_ok_iff (c c' : Candle) :
    normalizeCandle c = .ok c' ↔ c.Valid ∧ c' = c := by
  unfold normalizeCandle
  constructor
  · intro h
    split at h
    · cases h
    · next hts =>
        split at h
        · cases h
        · next hlow =>
            cases h
            exact ⟨⟨by omega, by omega, not_lt.mp hlow⟩, rfl⟩
  · rintro ⟨⟨h1, h2, h3⟩, rfl⟩
    rw [if_neg (by omega), if_neg (not_lt.mpr h3)]

/-! ## One step -/

def expiryMs (p : AssetProfile) : ℤ := pyInt (p.signalExpiryHours * msPerHour)

/-- `now - signal.created_at > expiry_ms`. -/
def isExpired (s : TradeSignal) (p : AssetProfile) (now : ℤ) : Bool :=
  decide (expiryMs p < now - s.createdAt)

def effectiveSl (s : TradeSignal) (p : AssetProfile) : ℚ :=
  if s.status = .tp1Hit ∧ p.moveSlToBeOnTp1 then protectedBePrice s p else s.stopLoss

/-- The candle trades at `level` or beyond it on the losing side. -/
def reachesStop (direction : SignalDirection) (c : Candle) (level : ℚ) : Bool :=
  match direction with
  | .short => decide (level ≤ c.high)
  | .long => decide (c.low ≤ level)

/-- The candle trades at `level` or beyond it on the winning side. -/
def reachesTarget (direction : SignalDirection) (c : Candle) (level : ℚ) : Bool :=
  match direction with
  | .short => decide (c.low ≤ level)
  | .long => decide (level ≤ c.high)

/-- The expiry block. -/
def expireSignal (s : TradeSignal) (c : Candle) (p : AssetProfile) (now : ℤ) : TradeSignal :=
  let s' :=
    if s.status = .triggered then
      { s with outcome := some .expired, realizedRr := some 0, closePrice := some c.close }
    else if s.status = .tp1Hit then
      if p.moveSlToBeOnTp1 then
        { s with
          outcome := some .breakeven
          realizedRr := some (protectedBeRr s p)
          closePrice := some (protectedBePrice s p) }
      else
        { s with outcome := some .expired, realizedRr := some 0, closePrice := some c.close }
    else s
  { s' with status := .expired, expiredAt := some now, closedAt := some now }

/-- The `TP2_HIT` / `WIN_FULL` assignments. -/
def closeAtTp2 (s : TradeSignal) (p : AssetProfile) (now : ℤ) : TradeSignal :=
  { s with
    status := .tp2Hit
    outcome := some .winFull
    realizedRr := some (tp2WeightedRr s.riskRewardRatio p.tp1TriggerPct p.tp1ClosePct)
    tp2HitAt := some now
    closedAt := some now
    closePrice := some s.tp2 }

/-- The `SL_HIT` / `LOSS` assignments. -/
def closeAtStop (s : TradeSignal) (now : ℤ) : TradeSignal :=
  { s with
    status := .slHit
    outcome := some .loss
    realizedRr := some (-1)
    slHitAt := some now
    closedAt := some now
    closePrice := some s.stopLoss }

/-- The `SL_HIT` / `BREAKEVEN` assignments. -/
def closeAtBreakeven (s : TradeSignal) (p : AssetProfile) (effSl : ℚ) (now : ℤ) : TradeSignal :=
  { s with
    status := .slHit
    outcome := some .breakeven
    realizedRr := some (protectedBeRr s p)
    slHitAt := some now
    closedAt := some now
    closePrice := some effSl }

/-- The block `if signal.status == TP1_HIT`, with the hits computed before it. -/
def tp1HitBlock (s : TradeSignal) (p : AssetProfile) (now : ℤ) (tp2Hit slHit : Bool)
    (effSl : ℚ) (emitTp1 : Bool) : TradeSignal × StepOutcome :=
  if tp2Hit then (closeAtTp2 s p now, ⟨true, emitTp1⟩)
  else if slHit then
    (if p.moveSlToBeOnTp1 then closeAtBreakeven s p effSl now else closeAtStop s now,
      ⟨true, emitTp1⟩)
  else (s, ⟨false, emitTp1⟩)

/-- `step_signal_state` after `normalize_candle`. -/
def advance (s : TradeSignal) (c : Candle) (p : AssetProfile) (now : ℤ) :
    TradeSignal × StepOutcome :=
  if isExpired s p now then (expireSignal s c p now, ⟨true, false⟩)
  else
    let effSl := effectiveSl s p
    let slHit := reachesStop s.direction c effSl
    let tp1Chk := reachesTarget s.direction c s.tp1
    let tp2Hit := reachesTarget s.direction c s.tp2
    if s.status = .triggered then
      if tp1Chk && tp2Hit then
        (closeAtTp2 { s with tp1HitAt := some now } p now, ⟨true, false⟩)
      else if slHit then (closeAtStop s now, ⟨true, false⟩)
      else if tp1Chk then
        -- falls through into the TP1_HIT block with the hits computed above
        tp1HitBlock { s with status := .tp1Hit, tp1HitAt := some now } p now tp2Hit slHit effSl true
      else (s, ⟨false, false⟩)
    else if s.status = .tp1Hit then tp1HitBlock s p now tp2Hit slHit effSl false
    else (s, ⟨false, false⟩)

def stepSignalState (s : TradeSignal) (c : Candle) (p : AssetProfile) (now : ℤ) :
    Except CandleError (TradeSignal × StepOutcome) :=
  match normalizeCandle c with
  | .error e => .error e
  | .ok c' => .ok (advance s c' p now)

theorem stepSignalState_of_valid {c : Candle} (hc : c.Valid) (s : TradeSignal)
    (p : AssetProfile) (now : ℤ) : stepSignalState s c p now = .ok (advance s c p now) := by
  rw [stepSignalState, (normalizeCandle_eq_ok_iff c c).mpr ⟨hc, rfl⟩]

theorem stepSignalState_eq_ok {s : TradeSignal} {c : Candle} {p : AssetProfile} {now : ℤ}
    {r : TradeSignal × StepOutcome} (h : stepSignalState s c p now = .ok r) :
    c.Valid ∧ r = advance s c p now := by
  unfold stepSignalState at h
  split at h
  · cases h
  · next c' hc =>
      obtain ⟨hv, rfl⟩ := (normalizeCandle_eq_ok_iff c c').mp hc
      cases h
      exact ⟨hv, rfl⟩

/-! ## What a step can do -/

/-- The steps of an open signal, one constructor for each way out of `advance`. -/
inductive LifecycleStep (p : AssetProfile) (c : Candle) (now : ℤ) (s : TradeSignal) :
    TradeSignal × StepOutcome → Prop
  | expireTriggered : s.status = .triggered → isExpired s p now = true →
      LifecycleStep p c now s
        ({ s with
            outcome := some .expired, realizedRr := some 0, closePrice := some c.close,
            status := .expired, expiredAt := some now, closedAt := some now }, ⟨true, false⟩)
  | expireBreakeven : s.status = .tp1Hit → isExpired s p now = true →
      p.moveSlToBeOnTp1 = true →
      LifecycleStep p c now s
        ({ s with
            outcome := some .breakeven, realizedRr := some (protectedBeRr s p),
            closePrice := some (protectedBePrice s p),
            status := .expired, expiredAt := some now, closedAt := some now }, ⟨true, false⟩)
  | expireAfterTp1 : s.status = .tp1Hit → isExpired s p now = true →
      p.moveSlToBeOnTp1 = false →
      LifecycleStep p c now s
        ({ s with
            outcome := some .expired, realizedRr := some 0, closePrice := some c.close,
            status := .expired, expiredAt := some now, closedAt := some now }, ⟨true, false⟩)
  | bothTargets : s.status = .triggered → isExpired s p now = false →
      reachesTarget s.direction c s.tp1 = true → reachesTarget s.direction c s.tp2 = true →
      LifecycleStep p c now s
        (closeAtTp2 { s with tp1HitAt := some now } p now, ⟨true, false⟩)
  | stop : s.status = .triggered → isExpired s p now = false →
      reachesStop s.direction c s.stopLoss = true →
      LifecycleStep p c now s (closeAtStop s now, ⟨true, false⟩)
  | tp1 : s.status = .triggered → isExpired s p now = false →
      reachesTarget s.direction c s.tp1 = true → reachesTarget s.direction c s.tp2 = false →
      reachesStop s.direction c s.stopLoss = false →
      LifecycleStep p c now s
        ({ s with status := .tp1Hit, tp1HitAt := some now }, ⟨false, true⟩)
  | wait : s.status = .triggered → isExpired s p now = false →
      reachesTarget s.direction c s.tp1 = false →
      reachesStop s.direction c s.stopLoss = false →
      LifecycleStep p c now s (s, ⟨false, false⟩)
  | tp2AfterTp1 : s.status = .tp1Hit → isExpired s p now = false →
      reachesTarget s.direction c s.tp2 = true →
      LifecycleStep p c now s (closeAtTp2 s p now, ⟨true, false⟩)
  | breakeven : s.status = .tp1Hit → isExpired s p now = false →
      reachesTarget s.direction c s.tp2 = false → p.moveSlToBeOnTp1 = true →
      reachesStop s.direction c s.entryPrice = true →
      LifecycleStep p c now s (closeAtBreakeven s p s.entryPrice now, ⟨true, false⟩)
  | stopAfterTp1 : s.status = .tp1Hit → isExpired s p now = false →
      reachesTarget s.direction c s.tp2 = false → p.moveSlToBeOnTp1 = false →
      reachesStop s.direction c s.stopLoss = true →
      LifecycleStep p c now s (closeAtStop s now, ⟨true, false⟩)
  | hold : s.status = .tp1Hit → isExpired s p now = false →
      reachesTarget s.direction c s.tp2 = false →
      reachesStop s.direction c
        (if p.moveSlToBeOnTp1 then s.entryPrice else s.stopLoss) = false →
      LifecycleStep p c now s (s, ⟨false, false⟩)

theorem effectiveSl_of_triggered {s : TradeSignal} (h : s.status = .triggered)
    (p : AssetProfile) : effectiveSl s p = s.stopLoss := by
  simp [effectiveSl, h]

theorem effectiveSl_of_tp1Hit {s : TradeSignal} (h : s.status = .tp1Hit) (p : AssetProfile) :
    effectiveSl s p = if p.moveSlToBeOnTp1 then s.entryPrice else s.stopLoss := by
  simp [effectiveSl, h, protectedBePrice, breakevenPrice]

theorem advance_cases_triggered {s : TradeSignal} (hs : s.status = .triggered) (c : Candle)
    (p : AssetProfile) (now : ℤ) : LifecycleStep p c now s (advance s c p now) := by
  unfold advance
  cases hexp : isExpired s p now with
  | true =>
      rw [if_pos rfl]
      simp only [expireSignal, hs, if_true]
      exact .expireTriggered hs hexp
  | false =>
      rw [if_neg Bool.false_ne_true, if_pos hs, effectiveSl_of_triggered hs]
      cases h1 : reachesTarget s.direction c s.tp1 <;>
        cases h2 : reachesTarget s.direction c s.tp2 <;>
        cases h3 : reachesStop s.direction c s.stopLoss <;>
        simp only [Bool.and_true, Bool.and_false, Bool.and_self, Bool.false_eq_true, if_true,
          if_false, tp1HitBlock]
      · exact .wait hs hexp h1 h3
      · exact .stop hs hexp h3
      · exact .wait hs hexp h1 h3
      · exact .stop hs hexp h3
      · exact .tp1 hs hexp h1 h2 h3
      · exact .stop hs hexp h3
      · exact .bothTargets hs hexp h1 h2
      · exact .bothTargets hs hexp h1 h2

theorem advance_of_expired {s : TradeSignal} {c : Candle} {p : AssetProfile} {now : ℤ}
    (hexp : isExpired s p now = true) :
    advance s c p now = (expireSignal s c p now, ⟨true, false⟩) := by
  rw [advance, if_pos hexp]

/-- After TP1 the target comes before the stop. -/
theorem advance_of_tp2AfterTp1 {s : TradeSignal} (hs : s.status = .tp1Hit) {c : Candle}
    {p : AssetProfile} {now : ℤ} (hexp : isExpired s p now = false)
    (h2 : reachesTarget s.direction c s.tp2 = true) :
    advance s c p now = (closeAtTp2 s p now, ⟨true, false⟩) := by
  have hnt : s.status ≠ .triggered := by rw [hs]; decide
  rw [advance, hexp, if_neg Bool.false_ne_true, if_neg hnt, if_pos hs, h2]
  rfl

theorem advance_of_stopAfterTp1 {s : TradeSignal} (hs : s.status = .tp1Hit) {c : Candle}
    {p : AssetProfile} {now : ℤ} (hexp : isExpired s p now = false)
    (h2 : reachesTarget s.direction c s.tp2 = false)
    (h3 : reachesStop s.direction c (effectiveSl s p) = true) :
    advance s c p now =
      (if p.moveSlToBeOnTp1 then closeAtBreakeven s p (effectiveSl s p) now else closeAtStop s now,
        ⟨true, false⟩) := by
  have hnt : s.status ≠ .triggered := by rw [hs]; decide
  rw [advance, hexp, if_neg Bool.false_ne_true, if_neg hnt, if_pos hs, h2, h3]
  rfl

/-- Both targets on one candle win, whatever it does to the stop. -/
theorem advance_of_bothTargets {s : TradeSignal} (hs : s.status = .triggered) {c : Candle}
    {p : AssetProfile} {now : ℤ} (hexp : isExpired s p now = false)
    (h1 : reachesTarget s.direction c s.tp1 = true)
    (h2 : reachesTarget s.direction c s.tp2 = true) :
    advance s c p now = (closeAtTp2 { s with tp1HitAt := some now } p now, ⟨true, false⟩) := by
  rw [advance, hexp, if_neg Bool.false_ne_true, if_pos hs, h1, h2]
  rfl

theorem advance_cases_tp1Hit {s : TradeSignal} (hs : s.status = .tp1Hit) (c : Candle)
    (p : AssetProfile) (now : ℤ) : LifecycleStep p c now s (advance s c p now) := by
  have hnt : s.status ≠ .triggered := by rw [hs]; decide
  unfold advance
  cases hexp : isExpired s p now with
  | true =>
      rw [if_pos rfl]
      cases hbe : p.moveSlToBeOnTp1 with
      | true =>
          simp only [expireSignal, if_neg hnt, if_pos hs, hbe, if_true]
          exact .expireBreakeven hs hexp hbe
      | false =>
          simp only [expireSignal, if_neg hnt, if_pos hs, hbe, Bool.false_eq_true, if_false]
          exact .expireAfterTp1 hs hexp hbe
  | false =>
      rw [if_neg Bool.false_ne_true, if_neg hnt, if_pos hs, effectiveSl_of_tp1Hit hs]
      cases h2 : reachesTarget s.direction c s.tp2 with
      | true =>
          simp only [tp1HitBlock, if_true]
          exact .tp2AfterTp1 hs hexp h2
      | false =>
          cases hbe : p.moveSlToBeOnTp1 with
          | true =>
              cases h3 : reachesStop s.direction c s.entryPrice with
              | true =>
                  simp only [tp1HitBlock, if_true, h3, hbe, Bool.false_eq_true, if_false]
                  exact .breakeven hs hexp h2 hbe h3
              | false =>
                  simp only [tp1HitBlock, if_true, h3, Bool.false_eq_true, if_false]
                  exact .hold hs hexp h2 (by rw [hbe]; exact h3)
          | false =>
              cases h3 : reachesStop s.direction c s.stopLoss with
              | true =>
                  simp only [tp1HitBlock, if_true, h3, hbe, Bool.false_eq_true, if_false]
                  exact .stopAfterTp1 hs hexp h2 hbe h3
              | false =>
                  simp only [tp1HitBlock, h3, Bool.false_eq_true, if_false]
                  exact .hold hs hexp h2 (by rw [hbe]; exact h3)

/-- Every step of an open signal is one of the eleven. -/
theorem advance_cases {s : TradeSignal} (hs : s.status.isOpen = true) (c : Candle)
    (p : AssetProfile) (now : ℤ) : LifecycleStep p c now s (advance s c p now) := by
  cases hst : s.status with
  | triggered => exact advance_cases_triggered hst c p now
  | tp1Hit => exact advance_cases_tp1Hit hst c p now
  | pending | tp2Hit | slHit | invalidated | expired => simp [hst, SignalStatus.isOpen] at hs

/-- On an open signal, a step is terminal exactly when it leaves the open statuses. -/
theorem advance_isOpen {s : TradeSignal} (hs : s.status.isOpen = true) (c : Candle)
    (p : AssetProfile) (now : ℤ) :
    (advance s c p now).1.status.isOpen = !(advance s c p now).2.terminal := by
  have h := advance_cases hs c p now
  generalize advance s c p now = r at h ⊢
  cases h with
  | tp1 | expireTriggered | expireBreakeven | expireAfterTp1 => rfl
  | bothTargets | stop | tp2AfterTp1 | breakeven | stopAfterTp1 => rfl
  | wait hst | hold hst => simp [hst, SignalStatus.isOpen]

/-! ## The levels of a trade never change -/

/-- `s'` is the trade `s` at some other moment: only the status, the hit and close times and
    the result may differ. -/
structure SameTrade (s s' : TradeSignal) : Prop where
  id_eq : s'.id = s.id
  symbol_eq : s'.symbol = s.symbol
  direction_eq : s'.direction = s.direction
  entryPrice_eq : s'.entryPrice = s.entryPrice
  stopLoss_eq : s'.stopLoss = s.stopLoss
  tp1_eq : s'.tp1 = s.tp1
  tp2_eq : s'.tp2 = s.tp2
  htfRange_eq : s'.htfRange = s.htfRange
  rejectionCandle_eq : s'.rejectionCandle = s.rejectionCandle
  riskRewardRatio_eq : s'.riskRewardRatio = s.riskRewardRatio
  riskPips_eq : s'.riskPips = s.riskPips
  htfInterval_eq : s'.htfInterval = s.htfInterval
  ltfInterval_eq : s'.ltfInterval = s.ltfInterval
  zoneAttempt_eq : s'.zoneAttempt = s.zoneAttempt
  createdAt_eq : s'.createdAt = s.createdAt
  triggeredAt_eq : s'.triggeredAt = s.triggeredAt

theorem SameTrade.refl (s : TradeSignal) : SameTrade s s := by
  constructor <;> rfl

theorem SameTrade.trans {a b c : TradeSignal} (h1 : SameTrade a b) (h2 : SameTrade b c) :
    SameTrade a c := by
  constructor
  · exact h2.id_eq.trans h1.id_eq
  · exact h2.symbol_eq.trans h1.symbol_eq
  · exact h2.direction_eq.trans h1.direction_eq
  · exact h2.entryPrice_eq.trans h1.entryPrice_eq
  · exact h2.stopLoss_eq.trans h1.stopLoss_eq
  · exact h2.tp1_eq.trans h1.tp1_eq
  · exact h2.tp2_eq.trans h1.tp2_eq
  · exact h2.htfRange_eq.trans h1.htfRange_eq
  · exact h2.rejectionCandle_eq.trans h1.rejectionCandle_eq
  · exact h2.riskRewardRatio_eq.trans h1.riskRewardRatio_eq
  · exact h2.riskPips_eq.trans h1.riskPips_eq
  · exact h2.htfInterval_eq.trans h1.htfInterval_eq
  · exact h2.ltfInterval_eq.trans h1.ltfInterval_eq
  · exact h2.zoneAttempt_eq.trans h1.zoneAttempt_eq
  · exact h2.createdAt_eq.trans h1.createdAt_eq
  · exact h2.triggeredAt_eq.trans h1.triggeredAt_eq

theorem sameTrade_advance (s : TradeSignal) (c : Candle) (p : AssetProfile) (now : ℤ) :
    SameTrade s (advance s c p now).1 := by
  unfold advance tp1HitBlock expireSignal closeAtTp2 closeAtStop closeAtBreakeven
  dsimp only
  repeat' split
  all_goals constructor <;> rfl

section StepSignalState

variable {s s' : TradeSignal} {c : Candle} {p : AssetProfile} {now : ℤ} {step : StepOutcome}

theorem sameTrade_stepSignalState (h : stepSignalState s c p now = .ok (s', step)) :
    SameTrade s s' := by
  obtain ⟨-, hadv⟩ := stepSignalState_eq_ok h
  have hsame := sameTrade_advance s c p now
  rwa [← hadv] at hsame

theorem stepSignalState_isOpen (hs : s.status.isOpen = true)
    (h : stepSignalState s c p now = .ok (s', step)) : s'.status.isOpen = !step.terminal := by
  obtain ⟨-, hadv⟩ := stepSignalState_eq_ok h
  have hiff := advance_isOpen hs c p now
  rwa [← hadv] at hiff

end StepSignalState

/-! ## Replay -/

/-- `replay_signal_lifecycle`. -/
def replaySignalLifecycle (s : TradeSignal) (cs : List Candle) (p : AssetProfile) :
    Except CandleError TradeSignal :=
  match cs with
  | [] => .ok s
  | c :: cs =>
      match stepSignalState s c p c.timestamp with
      | .error e => .error e
      | .ok (s', step) => if step.terminal then .ok s' else replaySignalLifecycle s' cs p

/-- A step at the candle's own timestamp, with its break flag. -/
def advanceAt (p : AssetProfile) (s : TradeSignal) (c : Candle) : TradeSignal × Bool :=
  ((advance s c p c.timestamp).1, (advance s c p c.timestamp).2.terminal)

/-- On valid candles the replay is a loop with a break. -/
theorem replaySignalLifecycle_eq_loop (p : AssetProfile) {cs : List Candle}
    (hcs : ∀ c ∈ cs, c.Valid) (s : TradeSignal) :
    replaySignalLifecycle s cs p = .ok (loopUntil (advanceAt p) s cs).1 := by
  induction cs generalizing s with
  | nil => rfl
  | cons c cs ih =>
      rw [replaySignalLifecycle, stepSignalState_of_valid (hcs c List.mem_cons_self)]
      cases h : (advance s c p c.timestamp).2.terminal with
      | true =>
          have hb : (advanceAt p s c).2 = true := h
          rw [loopUntil_cons_of_break hb]
          simp only [h, if_true]
          rfl
      | false =>
          have hb : (advanceAt p s c).2 = false := h
          rw [loopUntil_cons_of_pass hb]
          simp only [h, Bool.false_eq_true, if_false]
          exact ih (fun c' hc' => hcs c' (List.mem_cons_of_mem _ hc')) _

end SignalEngine
