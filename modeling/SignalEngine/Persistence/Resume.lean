/-
  Resume: a trade that is read back from its dict in the middle of its life.

  `Resumed p W s s'` says that `s'` is `s` up to what `to_dict` rounds or drops: the lifecycle
  reads none of it but the reward ratio, and that only to book a result, which `W` compares. So
  a step keeps the relation and breaks alike (`Resumed.advance`), so do two replays
  (`Resumed.loop`), and a trade that is cut while it is open and resumed ends as the uncut one
  does but for the result, which is booked on a share of the ratio and is off by the rounding
  error at most (`resumed_replay`).
-/
import SignalEngine.Persistence.WireFormat
import SignalEngine.Engine.LiveTicks

namespace SignalEngine

open Lib

variable {s s' : TradeSignal} {p : AssetProfile} {c : Candle} {now : ℤ}

/-! ## The rounding error -/

/-- What is booked on the way through TP1 is a share of the ratio. -/
theorem abs_protectedBreakevenRr_sub_le (hp : p.PctInRange) (x y : ℚ) :
    |protectedBreakevenRr y p.tp1TriggerPct p.tp1ClosePct -
      protectedBreakevenRr x p.tp1TriggerPct p.tp1ClosePct| ≤ |y - x| := by
  have heq : protectedBreakevenRr y p.tp1TriggerPct p.tp1ClosePct -
      protectedBreakevenRr x p.tp1TriggerPct p.tp1ClosePct =
      tp1BookedRr (y - x) p.tp1TriggerPct p.tp1ClosePct := by
    unfold protectedBreakevenRr tp1BookedRr
    ring
  have hshare : |tp1BookedRr (y - x) p.tp1TriggerPct p.tp1ClosePct| =
      tp1BookedRr |y - x| p.tp1TriggerPct p.tp1ClosePct := by
    unfold tp1BookedRr
    rw [abs_mul, abs_mul, abs_of_nonneg (pctFraction_nonneg hp.trigger_pos.le),
      abs_of_nonneg (pctFraction_nonneg hp.close_nonneg)]
  rw [heq, hshare]
  exact tp1BookedRr_le hp (abs_nonneg _)

/-- So is what is booked at TP2. -/
theorem abs_tp2WeightedRr_sub_le (hp : p.PctInRange) (x y : ℚ) :
    |tp2WeightedRr y p.tp1TriggerPct p.tp1ClosePct -
      tp2WeightedRr x p.tp1TriggerPct p.tp1ClosePct| ≤ |y - x| := by
  have hweight : ∀ u, tp2WeightedRr u p.tp1TriggerPct p.tp1ClosePct =
      u * tp2WeightedRr 1 p.tp1TriggerPct p.tp1ClosePct := by
    intro u
    unfold tp2WeightedRr
    ring
  have hnonneg := tp2WeightedRr_nonneg hp zero_le_one
  have hle := tp2WeightedRr_le hp zero_le_one
  rw [hweight y, hweight x, ← sub_mul, abs_mul, abs_of_nonneg hnonneg]
  exact mul_le_of_le_one_right (abs_nonneg _) hle

/-! ## The relation -/

/-- The two results are both missing, or off by the rounding error at most. -/
def RrWithin : Option ℚ → Option ℚ → Prop
  | none, none => True
  | some x, some y => |y - x| ≤ 1 / 20000
  | _, _ => False

/-- `W` takes every result twice, and what the ratios `x` and `y` are booked as. -/
structure Tolerates (p : AssetProfile) (W : Option ℚ → Option ℚ → Prop) (x y : ℚ) : Prop where
  refl : ∀ o, W o o
  breakeven : W (some (protectedBreakevenRr x p.tp1TriggerPct p.tp1ClosePct))
    (some (protectedBreakevenRr y p.tp1TriggerPct p.tp1ClosePct))
  tp2 : W (some (tp2WeightedRr x p.tp1TriggerPct p.tp1ClosePct))
    (some (tp2WeightedRr y p.tp1TriggerPct p.tp1ClosePct))

theorem tolerates_rrWithin (hp : p.PctInRange) {x y : ℚ} (h : |y - x| ≤ 1 / 20000) :
    Tolerates p RrWithin x y where
  refl o := by
    cases o with
    | none => trivial
    | some x => simp [RrWithin]
  breakeven := (abs_protectedBreakevenRr_sub_le hp x y).trans h
  tp2 := (abs_tp2WeightedRr_sub_le hp x y).trans h

/-- What a trade may lose on its way through the dict. -/
structure Lost where
  priceSourceUsed : PriceSource
  candleClosePrice : Option ℚ
  liveBidAtSignal : Option ℚ
  liveAskAtSignal : Option ℚ
  priceDrift : Option ℚ
  riskRewardRatio : ℚ
  riskPips : ℚ
  rejectionCandle : RejectionCandle
  setupCandleOpenAt : Option ℤ
  setupCandleCloseAt : Option ℤ
  realizedRr : Option ℚ

def TradeSignal.withLost (s : TradeSignal) (l : Lost) : TradeSignal :=
  { s with
    priceSourceUsed := l.priceSourceUsed
    candleClosePrice := l.candleClosePrice
    liveBidAtSignal := l.liveBidAtSignal
    liveAskAtSignal := l.liveAskAtSignal
    priceDrift := l.priceDrift
    riskRewardRatio := l.riskRewardRatio
    riskPips := l.riskPips
    rejectionCandle := l.rejectionCandle
    setupCandleOpenAt := l.setupCandleOpenAt
    setupCandleCloseAt := l.setupCandleCloseAt
    realizedRr := l.realizedRr }

/-- `s'` is `s` with other pricing diagnostics, candle times and risk metrics, and with a result
    that `W` takes for that of `s`. -/
def Resumed (p : AssetProfile) (W : Option ℚ → Option ℚ → Prop) (s s' : TradeSignal) : Prop :=
  ∃ l : Lost, s' = s.withLost l ∧ Tolerates p W s.riskRewardRatio l.riskRewardRatio ∧
    W s.realizedRr l.realizedRr

variable {W : Option ℚ → Option ℚ → Prop}

theorem resumed_storedForm
    (hW : Tolerates p W s.riskRewardRatio (pyRoundTo s.riskRewardRatio 4)) :
    Resumed p W s (storedForm s) :=
  ⟨⟨_, _, _, _, _, _, _, _, _, _, s.realizedRr⟩, rfl, hW, hW.refl _⟩

theorem Resumed.expireSignal (h : Resumed p W s s') (c : Candle) (now : ℤ) :
    Resumed p W (expireSignal s c p now) (expireSignal s' c p now) := by
  obtain ⟨l, rfl, hW, hreal⟩ := h
  have hstatus : (s.withLost l).status = s.status := rfl
  unfold SignalEngine.expireSignal
  rw [hstatus]
  split
  · exact ⟨{ l with realizedRr := some 0 }, rfl, hW, hW.refl _⟩
  split
  · split
    · exact ⟨{ l with realizedRr := _ }, rfl, hW, hW.breakeven⟩
    · exact ⟨{ l with realizedRr := some 0 }, rfl, hW, hW.refl _⟩
  · exact ⟨l, rfl, hW, hreal⟩

theorem Resumed.closeAtTp2 (h : Resumed p W s s') (now : ℤ) :
    Resumed p W (closeAtTp2 s p now) (closeAtTp2 s' p now) := by
  obtain ⟨l, rfl, hW, -⟩ := h
  exact ⟨{ l with realizedRr := _ }, rfl, hW, hW.tp2⟩

theorem Resumed.closeAtStop (h : Resumed p W s s') (now : ℤ) :
    Resumed p W (closeAtStop s now) (closeAtStop s' now) := by
  obtain ⟨l, rfl, hW, -⟩ := h
  exact ⟨{ l with realizedRr := some (-1) }, rfl, hW, hW.refl _⟩

theorem Resumed.closeAtBreakeven (h : Resumed p W s s') (effSl : ℚ) (now : ℤ) :
    Resumed p W (closeAtBreakeven s p effSl now) (closeAtBreakeven s' p effSl now) := by
  obtain ⟨l, rfl, hW, -⟩ := h
  exact ⟨{ l with realizedRr := _ }, rfl, hW, hW.breakeven⟩

theorem Resumed.tp1HitBlock (h : Resumed p W s s') (now : ℤ) (tp2Hit slHit : Bool) (effSl : ℚ)
    (emitTp1 : Bool) :
    Resumed p W (tp1HitBlock s p now tp2Hit slHit effSl emitTp1).1
      (tp1HitBlock s' p now tp2Hit slHit effSl emitTp1).1 ∧
    (SignalEngine.tp1HitBlock s p now tp2Hit slHit effSl emitTp1).2 =
      (SignalEngine.tp1HitBlock s' p now tp2Hit slHit effSl emitTp1).2 := by
  unfold SignalEngine.tp1HitBlock
  split_ifs
  · exact ⟨h.closeAtTp2 now, rfl⟩
  · exact ⟨h.closeAtBreakeven effSl now, rfl⟩
  · exact ⟨h.closeAtStop now, rfl⟩
  · exact ⟨h, rfl⟩

theorem Resumed.hitTp1 (h : Resumed p W s s') (status : SignalStatus) (now : ℤ) :
    Resumed p W { s with status := status, tp1HitAt := some now }
      { s' with status := status, tp1HitAt := some now } := by
  obtain ⟨l, rfl, hW, hreal⟩ := h
  exact ⟨l, rfl, hW, hreal⟩

/-- A step keeps the relation and breaks on both sides alike. -/
theorem Resumed.advance (h : Resumed p W s s') (c : Candle) (now : ℤ) :
    Resumed p W (advance s c p now).1 (advance s' c p now).1 ∧
      (SignalEngine.advance s c p now).2 = (SignalEngine.advance s' c p now).2 := by
  -- the tests of a step read nothing that may be lost
  have htests : isExpired s' p now = isExpired s p now ∧ s'.status = s.status ∧
      effectiveSl s' p = effectiveSl s p ∧ s'.direction = s.direction := by
    obtain ⟨l, rfl, -⟩ := h
    exact ⟨rfl, rfl, rfl, rfl⟩
  have htargets : reachesTarget s'.direction c s'.tp1 = reachesTarget s.direction c s.tp1 ∧
      reachesTarget s'.direction c s'.tp2 = reachesTarget s.direction c s.tp2 := by
    obtain ⟨l, rfl, -⟩ := h
    exact ⟨rfl, rfl⟩
  obtain ⟨hexp, hstatus, hsl, hdir⟩ := htests
  obtain ⟨htp1, htp2⟩ := htargets
  have hstop : reachesStop s'.direction c (effectiveSl s p) =
      reachesStop s.direction c (effectiveSl s p) := by rw [hdir]
  unfold SignalEngine.advance
  dsimp only
  rw [hexp, hstatus, hsl, hstop, htp1, htp2]
  split
  · exact ⟨h.expireSignal c now, rfl⟩
  split
  · split
    · exact ⟨(h.hitTp1 s.status now).closeAtTp2 now, rfl⟩
    split
    · exact ⟨h.closeAtStop now, rfl⟩
    split
    · exact (h.hitTp1 .tp1Hit now).tp1HitBlock now _ _ _ _
    · exact ⟨h, rfl⟩
  split
  · exact h.tp1HitBlock now _ _ _ _
  · exact ⟨h, rfl⟩

/-- So do two replays of the same candles. -/
theorem Resumed.loop (h : Resumed p W s s') (cs : List Candle) :
    Resumed p W (loopUntil (advanceAt p) s cs).1 (loopUntil (advanceAt p) s' cs).1 := by
  refine loopUntil_rel (fun t t' c ht => ?_) h cs
  obtain ⟨hnext, hstep⟩ := ht.advance c c.timestamp
  exact ⟨hnext, congrArg StepOutcome.terminal hstep⟩

/-! ## A cut replay -/

/-- The two trades stand alike, with results that `W` takes for each other. -/
structure EndsAlike (W : Option ℚ → Option ℚ → Prop) (s s' : TradeSignal) : Prop where
  status : s'.status = s.status
  outcome : s'.outcome = s.outcome
  closePrice : s'.closePrice = s.closePrice
  closedAt : s'.closedAt = s.closedAt
  tp1HitAt : s'.tp1HitAt = s.tp1HitAt
  tp2HitAt : s'.tp2HitAt = s.tp2HitAt
  slHitAt : s'.slHitAt = s.slHitAt
  expiredAt : s'.expiredAt = s.expiredAt
  realizedRr : W s.realizedRr s'.realizedRr

theorem Resumed.endsAlike (h : Resumed p W s s') : EndsAlike W s s' := by
  obtain ⟨l, rfl, -, hreal⟩ := h
  exact ⟨rfl, rfl, rfl, rfl, rfl, rfl, rfl, rfl, hreal⟩

/-- An open trade that is still open after the first candles goes on with the others from there. -/
theorem replay_append {mid : TradeSignal} (hs : s.status.isOpen = true) {before after : List Candle}
    (hvalid : ∀ c ∈ before ++ after, c.Valid)
    (hmid : replaySignalLifecycle s before p = .ok mid) (hopen : mid.status.isOpen = true) :
    replaySignalLifecycle s (before ++ after) p = replaySignalLifecycle mid after p := by
  have hbefore : ∀ c ∈ before, c.Valid := fun c hc => hvalid c (List.mem_append_left _ hc)
  have hafter : ∀ c ∈ after, c.Valid := fun c hc => hvalid c (List.mem_append_right _ hc)
  rw [replaySignalLifecycle_eq_loop p hbefore] at hmid
  cases hmid
  -- the first candles did not break, or the trade would be closed
  have hpass : (loopUntil (advanceAt p) s before).2 = false := by
    have hloop := loop_isOpen (p := p) hs before
    rw [hopen] at hloop
    simpa using hloop.symm
  rw [replaySignalLifecycle_eq_loop p hvalid, replaySignalLifecycle_eq_loop p hafter,
    loopUntil_append_of_pass hpass]

section BuiltSignals

variable {symbol broker : String} {htfInterval ltfInterval : Interval} {htfRange : HtfRange}
  {rejection : RejectionCandle} {signalId : SignalId} {p₀ : AssetProfile}
  {liveBid liveAsk : Option ℚ} {mid : TradeSignal} {before after : List Candle}

/-- **A restart in mid-trade does not change how it ends.** Wherever a built signal's candles are
    cut while the trade is open, what is read back from its dict replays the other candles to
    the end the whole list has, with the result within the rounding error of the ratio. -/
theorem resumed_replay
    (hb : buildSignal symbol htfInterval ltfInterval htfRange rejection signalId p₀ broker
      liveBid liveAsk = some s)
    (hp : p.PctInRange) (hvalid : ∀ c ∈ before ++ after, c.Valid)
    (hmid : replaySignalLifecycle s before p = .ok mid) (hopen : mid.status.isOpen = true) :
    ∃ resumed ended ended', TradeSignal.fromDict mid.toWireDict = .ok resumed ∧
      replaySignalLifecycle s (before ++ after) p = .ok ended ∧
      replaySignalLifecycle resumed after p = .ok ended' ∧ EndsAlike RrWithin ended ended' := by
  have hs : s.status.isOpen = true := by
    rw [(buildSignal_eq_some hb).fresh.status_eq]
    rfl
  have hafter : ∀ c ∈ after, c.Valid := fun c hc => hvalid c (List.mem_append_right _ hc)
  have hround := tolerates_rrWithin hp (abs_pyRoundTo_four_sub_le mid.riskRewardRatio)
  refine ⟨storedForm mid, _, _, fromDict_toDict mid, ?_, replaySignalLifecycle_eq_loop p hafter _,
    ((resumed_storedForm hround).loop after).endsAlike⟩
  rw [replay_append hs hvalid hmid hopen, replaySignalLifecycle_eq_loop p hafter]

end BuiltSignals

/-- The sample trade, cut after the candle that takes TP1 and resumed on the one that takes TP2. -/
theorem resumed_replay_sampleSignal :
    ∃ resumed ended ended', TradeSignal.fromDict
        { sampleSignal with status := .tp1Hit, tp1HitAt := some 8100000 }.toWireDict = .ok resumed ∧
      replaySignalLifecycle sampleSignal (dipThenTargets.take 3 ++ dipThenTargets.drop 3)
        sampleProfile = .ok ended ∧
      replaySignalLifecycle resumed (dipThenTargets.drop 3) sampleProfile = .ok ended' ∧
      EndsAlike RrWithin ended ended' :=
  resumed_replay sampleSignal_built sampleProfile_pctInRange (by decide +kernel)
    (by decide +kernel) rfl

end SignalEngine
