/-
  Same bar: a candle that reaches the stop of a trade whose TP1 has not been hit.

  `_simulate` documents that the stop wins over TP1 on one candle. Both loops ask about the
  stop second: `advance` and `trailStep` first test whether the candle reaches TP1 and TP2
  together. `stopFirst_iff` says what is left of the rule: the trade is stopped out exactly
  when the candle does not reach both targets as well.
-/
import SignalEngine.Backtest.Trailing

namespace SignalEngine

/-- The candle trades at both targets. -/
def ReachesBothTargets (s : TradeSignal) (c : Candle) : Prop :=
  reachesTarget s.direction c s.tp1 = true ∧ reachesTarget s.direction c s.tp2 = true

/-- `step_signal_state` ends the trade as a full loss at its stop. -/
def StepStopsOut (s : TradeSignal) (c : Candle) (p : AssetProfile) (now : ℤ) : Prop :=
  ∃ s' out, stepSignalState s c p now = .ok (s', out) ∧ out.terminal = true ∧
    s'.status = .slHit ∧ s'.outcome = some .loss ∧ s'.realizedRr = some (-1) ∧
    s'.closePrice = some s.stopLoss

/-- The trailing simulator ends the trade as a full loss at its stop. -/
def TrailStopsOut (p : AssetProfile) (pct : ℚ) (st : TrailState) (c : Candle) : Prop :=
  ∃ r, trailStep p pct st c = .inl r ∧ r.outcome = .loss ∧ r.realizedRr = -1 ∧
    r.closePrice = some st.probe.stopLoss

variable {s : TradeSignal} {p : AssetProfile} {c : Candle} {now : ℤ} {pct : ℚ} {st : TrailState}

theorem stepStopsOut_iff (hc : c.Valid) (hs : s.status = .triggered)
    (hexp : isExpired s p now = false) (hstop : reachesStop s.direction c s.stopLoss = true) :
    StepStopsOut s c p now ↔ ¬ ReachesBothTargets s c := by
  have hcase := advance_cases_triggered hs c p now
  have hstep := stepSignalState_of_valid hc s p now
  constructor
  · rintro ⟨s', out, h, -, hstatus, -⟩ ⟨h1, h2⟩
    rw [hstep, advance_of_bothTargets hs hexp h1 h2] at h
    cases h
    cases hstatus
  · intro hnot
    refine ⟨(advance s c p now).1, (advance s c p now).2, hstep, ?_⟩
    generalize advance s c p now = r at hcase ⊢
    cases hcase with
    | stop => exact ⟨rfl, rfl, rfl, rfl, rfl⟩
    | bothTargets _ _ h1 h2 => exact absurd ⟨h1, h2⟩ hnot
    | expireTriggered _ h => rw [hexp] at h; cases h
    | tp1 _ _ _ _ h | wait _ _ _ h => rw [hstop] at h; cases h
    | expireBreakeven h | expireAfterTp1 h | tp2AfterTp1 h => rw [hs] at h; cases h
    | breakeven h | stopAfterTp1 h | hold h => rw [hs] at h; cases h

theorem trailStopsOut_iff (hst : st.tp1Seen = false)
    (hexp : c.timestamp ≤ expiryCutoff p st.probe)
    (hstop : reachesStop st.probe.direction c st.probe.stopLoss = true) :
    TrailStopsOut p pct st c ↔ ¬ ReachesBothTargets st.probe c := by
  have hcase := trailStep_step p pct st c
  have hprotects := protects_of_not_seen (p := p) hst
  have hwins : st.wins c = true ↔ ReachesBothTargets st.probe c := by
    rw [wins_of_not_seen hst, Bool.and_eq_true]
    rfl
  unfold TrailStopsOut
  generalize trailStep p pct st c = r at hcase ⊢
  cases hcase with
  | expireProtected h | expire h => exact absurd h (not_lt.mpr hexp)
  | win _ hwin =>
      refine iff_of_false ?_ (not_not_intro (hwins.mp hwin))
      rintro ⟨r, h, hloss, -⟩
      cases h
      cases hloss
  | stopProtected _ _ h => rw [hprotects] at h; cases h
  | stop _ hwin =>
      refine iff_of_true ⟨_, rfl, rfl, rfl, rfl⟩ (fun h => ?_)
      rw [hwins.mpr h] at hwin
      cases hwin
  | next _ _ h => rw [effectiveSl_of_not_protects hprotects, hstop] at h; cases h

/-- **The same-bar rule.** A valid candle that reaches the stop before TP1 has been hit stops
    the trade out, in the lifecycle and in the trailing simulator, exactly when it does not
    reach both targets as well. -/
theorem stopFirst_iff (s : TradeSignal) (p : AssetProfile) (c : Candle) (hc : c.Valid)
    (hstop : reachesStop s.direction c s.stopLoss = true) :
    (∀ now, s.status = .triggered → isExpired s p now = false →
      (StepStopsOut s c p now ↔ ¬ ReachesBothTargets s c)) ∧
    ∀ pct st, st.probe = s → st.tp1Seen = false → c.timestamp ≤ expiryCutoff p s →
      (TrailStopsOut p pct st c ↔ ¬ ReachesBothTargets s c) := by
  refine ⟨fun now hs hexp => stepStopsOut_iff hc hs hexp hstop, ?_⟩
  rintro pct st rfl hst hexp
  exact trailStopsOut_iff hst hexp hstop

/-- A candle that stays below TP2 stops the sample trade out in both. -/
theorem stopFirst_sampleSignal :
    StepStopsOut sampleSignal ⟨7800000, 106, 119, 99, 100, 0⟩ sampleProfile 7800000 ∧
      TrailStopsOut sampleProfile 50
        (TrailState.start sampleSignal)
        ⟨7800000, 106, 119, 99, 100, 0⟩ := by
  have hrule := stopFirst_iff sampleSignal sampleProfile ⟨7800000, 106, 119, 99, 100, 0⟩
    (by decide +kernel) (by decide +kernel)
  have hnot : ¬ ReachesBothTargets sampleSignal ⟨7800000, 106, 119, 99, 100, 0⟩ := by
    unfold ReachesBothTargets
    decide +kernel
  exact ⟨(hrule.1 7800000 rfl (by decide +kernel)).mpr hnot,
    (hrule.2 50 (TrailState.start sampleSignal) rfl rfl
      (by decide +kernel)).mpr hnot⟩

/-- A candle of the sample trade that spans the stop and both targets. -/
def spanningCandle : Candle := ⟨7800000, 106, 131, 99, 100, 0⟩

/-- It reaches the stop, and yet is booked as a full win. -/
theorem spanning_candle_wins :
    spanningCandle.Valid ∧ isExpired sampleSignal sampleProfile 7800000 = false ∧
      reachesStop sampleSignal.direction spanningCandle sampleSignal.stopLoss = true ∧
      ¬ StepStopsOut sampleSignal spanningCandle sampleProfile 7800000 ∧
      (advance sampleSignal spanningCandle sampleProfile 7800000).1.outcome = some .winFull ∧
      ¬ TrailStopsOut sampleProfile 50 (TrailState.start sampleSignal) spanningCandle := by
  have hstop : reachesStop sampleSignal.direction spanningCandle sampleSignal.stopLoss = true := by
    decide +kernel
  have hboth : ReachesBothTargets sampleSignal spanningCandle := by
    unfold ReachesBothTargets
    decide +kernel
  refine ⟨by decide +kernel, by decide +kernel, hstop, fun h => ?_, by decide +kernel, fun h => ?_⟩
  · exact (stepStopsOut_iff (by decide +kernel) rfl (by decide +kernel) hstop).mp h hboth
  · exact (trailStopsOut_iff rfl (by decide +kernel) hstop).mp h hboth

end SignalEngine
