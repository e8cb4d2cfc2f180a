/-
  Realized R: what a trade books against what its prices earned.

  Every exit of `advance` books its R by a formula of its own. Weighted by position, a trade
  that took TP1 earned `c` of it at TP1 and the rest at its close price, and one that did not
  earned all of it at the close price (`BooksItsPrices`).

  The phases of a trade are told on the calls themselves, each a candle with the verdict of the
  expiry test (`Waits`, `TakesTp1`, `Carries`, `StopsOut`): `now` need not be the candle's
  timestamp, as it is in `WaitsAt` and `HoldsAt`. `realizedR_iff`: a trade that ends
  at a target or a stop books its prices unless part of it was closed at TP1 and, with the stop
  left where it was, the rest is stopped out.
-/
import SignalEngine.Domain.Gain
import SignalEngine.Engine.LiveTicks
import SignalEngine.Lib.Until

namespace SignalEngine

open Lib

/-! ## Phases -/

/-- A candle that leaves an untouched trade alone. -/
def Waits (s : TradeSignal) (x : Candle × Bool) : Prop :=
  x.2 = false ∧ reachesTarget s.direction x.1 s.tp1 = false ∧
    reachesStop s.direction x.1 s.stopLoss = false

/-- A candle that takes an untouched trade to TP1 and no further. -/
def TakesTp1 (s : TradeSignal) (x : Candle × Bool) : Prop :=
  x.2 = false ∧ reachesTarget s.direction x.1 s.tp1 = true ∧
    reachesTarget s.direction x.1 s.tp2 = false ∧ reachesStop s.direction x.1 s.stopLoss = false

/-- A candle that leaves a trade alone that has taken TP1. -/
def Carries (p : AssetProfile) (s : TradeSignal) (x : Candle × Bool) : Prop :=
  x.2 = false ∧ reachesTarget s.direction x.1 s.tp2 = false ∧
    reachesStop s.direction x.1 (stopAfterTp1 p s) = false

/-- A candle that stops such a trade out. -/
def StopsOut (p : AssetProfile) (s : TradeSignal) (x : Candle × Bool) : Prop :=
  x.2 = false ∧ reachesTarget s.direction x.1 s.tp2 = false ∧
    reachesStop s.direction x.1 (stopAfterTp1 p s) = true

/-- The calls take the trade to TP1 and then to its stop. -/
def StopsAfterTp1 (p : AssetProfile) (s : TradeSignal) (xs : List (Candle × Bool)) : Prop :=
  Until (Waits s) (fun t rest => TakesTp1 s t ∧
    Until (Carries p s) (fun e _ => StopsOut p s e) rest) xs

/-! ## Runs -/

/-- `step_signal_state` on one candle after the other, each at its own `now`, up to the first
    terminal step. -/
def stepCalls (p : AssetProfile) (s : TradeSignal) :
    List (Candle × ℤ) → Except CandleError TradeSignal
  | [] => .ok s
  | (c, now) :: calls =>
      match stepSignalState s c p now with
      | .error e => .error e
      | .ok (s', out) => if out.terminal then .ok s' else stepCalls p s' calls

/-- The calls with the verdict of the expiry test. -/
def verdicts (p : AssetProfile) (s : TradeSignal) (calls : List (Candle × ℤ)) :
    List (Candle × Bool) :=
  calls.map fun x => (x.1, isExpired s p x.2)

/-- The replay is the run whose `now` is the candle's own timestamp. -/
theorem replaySignalLifecycle_eq_stepCalls (p : AssetProfile) (s : TradeSignal)
    (cs : List Candle) :
    replaySignalLifecycle s cs p = stepCalls p s (cs.map fun c => (c, c.timestamp)) := by
  induction cs generalizing s with
  | nil => rfl
  | cons c cs ih =>
      rw [List.map_cons, replaySignalLifecycle, stepCalls]
      cases stepSignalState s c p c.timestamp with
      | error e => rfl
      | ok r =>
          obtain ⟨s', out⟩ := r
          dsimp only
          rw [ih s']

/-- The R a trade books is what its position earned at the prices it was closed at. -/
def BooksItsPrices (p : AssetProfile) (s : TradeSignal) : Prop :=
  ∃ px, s.closePrice = some px ∧ s.realizedRr = some
    (if s.tp1HitAt.isSome then
      pctFraction p.tp1ClosePct * rAt s s.tp1 + (1 - pctFraction p.tp1ClosePct) * rAt s px
    else rAt s px)

variable {p : AssetProfile} {s s' : TradeSignal} {now : ℤ} {c : Candle}

/-- The first call ends the run where it leads, or the rest of the run goes on from there. -/
theorem stepCalls_cons {calls : List (Candle × ℤ)}
    (h : stepCalls p s ((c, now) :: calls) = .ok s') :
    ∃ s₁ out, advance s c p now = (s₁, out) ∧ (out.terminal = true → s' = s₁) ∧
      (out.terminal = false → stepCalls p s₁ calls = .ok s') := by
  rw [stepCalls] at h
  split at h
  · cases h
  next s₁ out hstep =>
  obtain ⟨-, hadv⟩ := stepSignalState_eq_ok hstep
  refine ⟨s₁, out, hadv.symm, fun hterminal => ?_, fun hopen => ?_⟩
  · rw [if_pos hterminal] at h
    exact (Except.ok.inj h).symm
  · rwa [hopen, if_neg Bool.false_ne_true] at h

theorem stopAfterTp1_of_moves (h : p.moveSlToBeOnTp1 = true) :
    stopAfterTp1 p s = s.entryPrice := if_pos h

theorem stopAfterTp1_of_stays (h : p.moveSlToBeOnTp1 = false) :
    stopAfterTp1 p s = s.stopLoss := by
  rw [stopAfterTp1, h, if_neg Bool.false_ne_true]

/-! ## The exits -/

/-- A full win books the weighted ratio. -/
theorem closeAtTp2_books (hg : TradeGeometry p s) (ht : s.tp1HitAt.isSome = true) (now : ℤ) :
    BooksItsPrices p (closeAtTp2 s p now) := by
  refine ⟨s.tp2, rfl, ?_⟩
  have hsome : (closeAtTp2 s p now).tp1HitAt.isSome = true := ht
  have htp1 : rAt (closeAtTp2 s p now) (closeAtTp2 s p now).tp1 = rAt s s.tp1 := rfl
  have htp2 : rAt (closeAtTp2 s p now) s.tp2 = rAt s s.tp2 := rfl
  rw [if_pos hsome, htp1, htp2, hg.rAt_tp1, hg.rAt_tp2]
  exact congrArg some (by rw [tp2WeightedRr]; ring)

/-- A stop at breakeven books what TP1 earned. -/
theorem closeAtBreakeven_books (hg : TradeGeometry p s) (ht : s.tp1HitAt.isSome = true)
    (now : ℤ) : BooksItsPrices p (closeAtBreakeven s p s.entryPrice now) := by
  refine ⟨s.entryPrice, rfl, ?_⟩
  have hsome : (closeAtBreakeven s p s.entryPrice now).tp1HitAt.isSome = true := ht
  have htp1 : rAt (closeAtBreakeven s p s.entryPrice now)
      (closeAtBreakeven s p s.entryPrice now).tp1 = rAt s s.tp1 := rfl
  have hentry : rAt (closeAtBreakeven s p s.entryPrice now) s.entryPrice = 0 := rAt_entry s
  rw [if_pos hsome, htp1, hentry, hg.rAt_tp1]
  exact congrArg some (by rw [protectedBeRr, protectedBreakevenRr, tp1BookedRr]; ring)

/-- A stop before TP1 books the full risk. -/
theorem closeAtStop_books (hg : TradeGeometry p s) (ht : s.tp1HitAt = none) (now : ℤ) :
    BooksItsPrices p (closeAtStop s now) := by
  refine ⟨s.stopLoss, rfl, ?_⟩
  have hnone : (closeAtStop s now).tp1HitAt.isSome ≠ true := by
    rw [show (closeAtStop s now).tp1HitAt = none from ht]
    decide
  rw [if_neg hnone]
  exact congrArg some hg.rAt_stop.symm

/-- A full stop after TP1 books the full risk, whatever was closed at TP1. -/
theorem closeAtStop_books_iff (hg : TradeGeometry p s) (htrigger : 0 < p.tp1TriggerPct)
    (ht : s.tp1HitAt.isSome = true) (now : ℤ) :
    BooksItsPrices p (closeAtStop s now) ↔ p.tp1ClosePct = 0 := by
  have hsome : (closeAtStop s now).tp1HitAt.isSome = true := ht
  have htp1 : rAt (closeAtStop s now) (closeAtStop s now).tp1 = rAt s s.tp1 := rfl
  have hstop : rAt (closeAtStop s now) s.stopLoss = -1 := hg.rAt_stop
  have hpos : 0 < s.riskRewardRatio * pctFraction p.tp1TriggerPct :=
    mul_pos hg.reward_pos (div_pos htrigger (by norm_num))
  -- closing `c` of the trade at TP1 would have earned `c` times one and the R of TP1 more
  have hiff : (-1 : ℚ) = pctFraction p.tp1ClosePct *
      (s.riskRewardRatio * pctFraction p.tp1TriggerPct) + (1 - pctFraction p.tp1ClosePct) * -1 ↔
        p.tp1ClosePct = 0 := by
    have hzero : pctFraction p.tp1ClosePct = 0 ↔ p.tp1ClosePct = 0 := by
      rw [pctFraction, div_eq_zero_iff]
      exact or_iff_left (by norm_num)
    rw [← hzero]
    constructor
    · intro h
      have hprod : pctFraction p.tp1ClosePct *
          (s.riskRewardRatio * pctFraction p.tp1TriggerPct + 1) = 0 := by linarith
      exact (mul_eq_zero.mp hprod).resolve_right (by linarith)
    · intro h
      rw [h]
      ring
  rw [← hiff, ← hg.rAt_tp1]
  constructor
  · rintro ⟨px, hpx, hr⟩
    obtain rfl := Option.some.inj hpx
    rw [if_pos hsome, htp1, hstop] at hr
    exact Option.some.inj hr
  · intro h
    refine ⟨s.stopLoss, rfl, ?_⟩
    rw [if_pos hsome, htp1, hstop]
    exact congrArg some h

/-! ## The run after TP1 -/

/-- The trade ended at a target or a stop. -/
def EndedAtPrice (s : TradeSignal) : Prop := s.status = .tp2Hit ∨ s.status = .slHit

/-- From TP1 on a run books its prices unless it closed part of the trade and stops out with the
    stop where it was. -/
theorem stepCalls_books_iff_of_tp1Hit (hg : TradeGeometry p s) (htrigger : 0 < p.tp1TriggerPct)
    (hs : s.status = .tp1Hit) (ht : s.tp1HitAt.isSome = true) {calls : List (Candle × ℤ)}
    (hrun : stepCalls p s calls = .ok s') (hend : EndedAtPrice s') :
    BooksItsPrices p s' ↔ p.tp1ClosePct = 0 ∨ p.moveSlToBeOnTp1 = true ∨
      ¬ Until (Carries p s) (fun e _ => StopsOut p s e) (verdicts p s calls) := by
  induction calls with
  | nil =>
      cases hrun
      rcases hend with h | h <;> rw [hs] at h <;> cases h
  | cons call calls ih =>
      obtain ⟨c, now⟩ := call
      obtain ⟨s₁, out, hadv, hends, hgoes⟩ := stepCalls_cons hrun
      have hcase := advance_cases_tp1Hit hs c p now
      rw [hadv] at hcase
      rw [verdicts, List.map_cons]
      cases hcase with
      | expireBreakeven | expireAfterTp1 =>
          obtain rfl := hends rfl
          rcases hend with h | h <;> cases h
      | tp2AfterTp1 _ hexp h2 =>
          obtain rfl := hends rfl
          refine iff_of_true (closeAtTp2_books hg ht now) (Or.inr (Or.inr ?_))
          rw [until_cons_of_not_hold (fun h => by rw [h.2.1] at h2; cases h2)]
          exact fun h => by rw [h.2.1] at h2; cases h2
      | breakeven _ hexp h2 hbe h3 =>
          obtain rfl := hends rfl
          exact iff_of_true (closeAtBreakeven_books hg ht now) (Or.inr (Or.inl hbe))
      | stopAfterTp1 _ hexp h2 hbe h3 =>
          obtain rfl := hends rfl
          have hstops : StopsOut p s (c, isExpired s p now) := by
            refine ⟨hexp, h2, ?_⟩
            rw [stopAfterTp1_of_stays hbe]
            exact h3
          rw [closeAtStop_books_iff hg htrigger ht, hbe, until_cons, not_or]
          exact (or_iff_left (fun h => by
            rcases h with h | h
            · cases h
            · exact h.1 hstops)).symm
      | hold _ hexp h2 h3 =>
          have hcarries : Carries p s (c, isExpired s p now) := ⟨hexp, h2, h3⟩
          have hno : ¬ StopsOut p s (c, isExpired s p now) := fun h =>
            absurd h.2.2 (by rw [hcarries.2.2]; decide)
          rw [until_cons_of_hold hcarries hno]
          exact ih (hgoes rfl)
      | expireTriggered h | bothTargets h | stop h | tp1 h | wait h => rw [hs] at h; cases h

theorem geometry_of_tp1 (hg : TradeGeometry p s) (now : ℤ) :
    TradeGeometry p { s with status := .tp1Hit, tp1HitAt := some now } :=
  ⟨hg.risk_pos, hg.reward_pos, hg.rAt_stop, hg.rAt_tp2, hg.rAt_tp1⟩

/-- The run of a trade that has not taken TP1. -/
theorem stepCalls_books_iff (hg : TradeGeometry p s) (htrigger : 0 < p.tp1TriggerPct)
    (hs : s.status = .triggered) (ht : s.tp1HitAt = none) {calls : List (Candle × ℤ)}
    (hrun : stepCalls p s calls = .ok s') (hend : EndedAtPrice s') :
    BooksItsPrices p s' ↔ p.tp1ClosePct = 0 ∨ p.moveSlToBeOnTp1 = true ∨
      ¬ StopsAfterTp1 p s (verdicts p s calls) := by
  unfold StopsAfterTp1
  induction calls with
  | nil =>
      cases hrun
      rcases hend with h | h <;> rw [hs] at h <;> cases h
  | cons call calls ih =>
      obtain ⟨c, now⟩ := call
      obtain ⟨s₁, out, hadv, hends, hgoes⟩ := stepCalls_cons hrun
      have hcase := advance_cases_triggered hs c p now
      rw [hadv] at hcase
      rw [verdicts, List.map_cons]
      cases hcase with
      | expireTriggered =>
          obtain rfl := hends rfl
          rcases hend with h | h <;> cases h
      | bothTargets _ hexp h1 h2 =>
          obtain rfl := hends rfl
          refine iff_of_true ?_ (Or.inr (Or.inr ?_))
          · exact closeAtTp2_books (geometry_of_tp1 hg now) rfl now
          · rw [until_cons_of_not_hold (fun h => by rw [h.2.1] at h1; cases h1)]
            exact fun h => by rw [h.1.2.2.1] at h2; cases h2
      | stop _ hexp h1 =>
          obtain rfl := hends rfl
          refine iff_of_true (closeAtStop_books hg ht now) (Or.inr (Or.inr ?_))
          rw [until_cons_of_not_hold (fun h => by rw [h.2.2] at h1; cases h1)]
          exact fun h => by rw [h.1.2.2.2] at h1; cases h1
      | tp1 _ hexp h1 h2 h3 =>
          have htakes : TakesTp1 s (c, isExpired s p now) := ⟨hexp, h1, h2, h3⟩
          rw [until_cons_of_not_hold (fun h => by rw [h.2.1] at h1; cases h1), and_iff_right htakes]
          exact stepCalls_books_iff_of_tp1Hit (geometry_of_tp1 hg now) htrigger rfl rfl
            (hgoes rfl) hend
      | wait _ hexp h1 h3 =>
          have hwaits : Waits s (c, isExpired s p now) := ⟨hexp, h1, h3⟩
          rw [until_cons_of_hold hwaits (fun h => by rw [h.1.2.1] at h1; cases h1)]
          exact ih (hgoes rfl)
      | expireBreakeven h | expireAfterTp1 h | tp2AfterTp1 h => rw [hs] at h; cases h
      | breakeven h | stopAfterTp1 h | hold h => rw [hs] at h; cases h

section BuiltSignals

variable {symbol : String} {htfInterval ltfInterval : Interval} {htfRange : HtfRange}
  {rejection : RejectionCandle} {signalId : SignalId} {p₀ : AssetProfile} {broker : String}
  {liveBid liveAsk : Option ℚ}

/-- **Realized R.** A built signal that ends at a target or a stop books what its position
    earned, exactly when nothing is closed at TP1, or TP1 moves the stop, or the calls do not
    take it to TP1 and then to its stop. -/
theorem realizedR_iff
    (hb : buildSignal symbol htfInterval ltfInterval htfRange rejection signalId p₀ broker
      liveBid liveAsk = some s)
    (hp : p.PctInRange) (htrigger : p₀.tp1TriggerPct = p.tp1TriggerPct)
    (calls : List (Candle × ℤ)) (hrun : stepCalls p s calls = .ok s') (hend : EndedAtPrice s') :
    BooksItsPrices p s' ↔ p.tp1ClosePct = 0 ∨ p.moveSlToBeOnTp1 = true ∨
      ¬ StopsAfterTp1 p s (verdicts p s calls) := by
  have hfrom := buildSignal_eq_some hb
  have hg : TradeGeometry p s := by
    obtain ⟨h1, h2, h3, h4, h5⟩ := hfrom.geometry
    exact ⟨h1, h2, h3, h4, htrigger ▸ h5⟩
  exact stepCalls_books_iff hg hp.trigger_pos hfrom.fresh.status_eq hfrom.fresh.tp1HitAt_eq hrun
    hend

end BuiltSignals

/-- A candle that takes the sample trade to TP1, and one that takes it on to its stop. -/
def tp1ThenStop : List (Candle × ℤ) :=
  [(⟨7500000, 106, 120, 107, 119, 0⟩, 7500000), (⟨7800000, 119, 119, 99, 105, 0⟩, 7800000)]

/-- With its stop at breakeven the sample trade books half of TP1. -/
theorem realizedR_sampleSignal :
    ∃ s', stepCalls sampleProfile sampleSignal tp1ThenStop = .ok s' ∧ EndedAtPrice s' ∧
      BooksItsPrices sampleProfile s' := by
  have hrun : stepCalls sampleProfile sampleSignal tp1ThenStop = .ok
      (closeAtBreakeven { sampleSignal with status := .tp1Hit, tp1HitAt := some 7500000 }
        sampleProfile 106 7800000) := by
    decide +kernel
  exact ⟨_, hrun, Or.inr rfl, (realizedR_iff sampleSignal_built sampleProfile_pctInRange rfl _
    hrun (Or.inr rfl)).mpr (Or.inr (Or.inl rfl))⟩

/-- The sample profile with the stop left where it is at TP1. -/
def fixedStopProfile : AssetProfile := { sampleProfile with moveSlToBeOnTp1 := false }

/-- Half of the trade is closed at TP1 and the other half at the stop, and the full risk is
    booked. -/
theorem stop_after_tp1_books_full_risk :
    fixedStopProfile.PctInRange ∧
      buildSignal "XAUUSD" oneHour fiveMin sampleRange sampleRejection sampleId fixedStopProfile
        "" none none = some sampleSignal ∧
      ∃ s', stepCalls fixedStopProfile sampleSignal tp1ThenStop = .ok s' ∧ s'.status = .slHit ∧
        s'.tp1HitAt = some 7500000 ∧ s'.realizedRr = some (-1) ∧
        ¬ BooksItsPrices fixedStopProfile s' := by
  refine ⟨by constructor <;> norm_num [fixedStopProfile, sampleProfile], by decide +kernel,
    closeAtStop { sampleSignal with status := .tp1Hit, tp1HitAt := some 7500000 } 7800000,
    by decide +kernel, rfl, rfl, rfl, ?_⟩
  rintro ⟨px, hpx, hr⟩
  obtain rfl := Option.some.inj hpx
  exact absurd hr (by decide +kernel)

end SignalEngine
