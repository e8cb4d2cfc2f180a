/-
  Geometry: the relations between the levels of a built signal, and when there is one.

  `PassesGates` lists the gates of `build_signal` on its inputs. A signal is built exactly if
  all of them pass (`buildSignal_isSome_iff`), and then its levels are as `SignalGeometry` says.
  The sides are read off the gains of the levels (`BuiltFrom.gain_stop` and the like), so the
  two directions are one case until the last step.
-/
import SignalEngine.Domain.Gain

namespace SignalEngine

variable {symbol : String} {htfInterval ltfInterval : Interval} {z : HtfRange}
  {rejection : RejectionCandle} {signalId : SignalId} {p : AssetProfile} {broker : String}
  {liveBid liveAsk : Option ℚ} {s : TradeSignal}

/-- The RR cap leaves the target of the signal alone. -/
def Uncapped (p : AssetProfile) (z : HtfRange) (s : TradeSignal) : Prop :=
  ¬ (0 < p.maxRr ∧ p.maxRr < |z.tpLevel - s.entryPrice| / s.riskPips)

/-! ## The gates -/

/-- The gates of `build_signal`: stop direction, minimum risk, SL cap, TP2 direction, RR floor
    and session. -/
structure PassesGates (z : HtfRange) (rejection : RejectionCandle) (p : AssetProfile)
    (entry sl : ℚ) : Prop where
  sl_side : slOnWrongSide z.signalDirection sl entry = false
  min_risk : minRisk ≤ |entry - sl|
  sl_cap : 0 < z.height → |entry - sl| ≤ z.height * p.maxSlZoneMult
  tp2_side : tp2OnWrongSide z.signalDirection z.tpLevel entry = false
  rr_floor : p.minRr ≤ |z.tpLevel - entry| / |entry - sl|
  session : inSession p rejection.timestamp = true

theorem buildSignal_isSome_iff :
    (buildSignal symbol htfInterval ltfInterval z rejection signalId p broker liveBid
      liveAsk).isSome = true ↔
    PassesGates z rejection p (entryFor p z.signalDirection rejection liveBid liveAsk)
      (stopFor p z.signalDirection rejection) := by
  unfold buildSignal
  dsimp only
  constructor
  · intro h
    split at h
    · cases h
    next hsl =>
    split at h
    · cases h
    next hrisk =>
    split at h
    · cases h
    next hcap =>
    split at h
    · cases h
    next htp =>
    split at h
    · cases h
    next hrr =>
    split at h
    · cases h
    next hsess =>
    refine ⟨by simpa using hsl, not_lt.mp hrisk, fun hz => ?_, by simpa using htp,
      not_lt.mp hrr, by simpa using hsess⟩
    exact not_lt.mp fun hlt => hcap ⟨hz, hlt⟩
  · intro h
    have hcap : ¬ (0 < z.height ∧ z.height * p.maxSlZoneMult <
        |entryFor p z.signalDirection rejection liveBid liveAsk -
          stopFor p z.signalDirection rejection|) :=
      fun ⟨hz, hlt⟩ => absurd (h.sl_cap hz) (not_le.mpr hlt)
    rw [h.sl_side, h.tp2_side, h.session, if_neg Bool.false_ne_true, if_neg (not_lt.mpr h.min_risk),
      if_neg hcap, if_neg Bool.false_ne_true, if_neg (not_lt.mpr h.rr_floor)]
    rfl

/-! ## The levels -/

/-- The stop below entry and the targets above it, or the other way round for a short. -/
def LevelsInOrder (s : TradeSignal) : Prop :=
  match s.direction with
  | .long => s.stopLoss < s.entryPrice ∧ s.entryPrice < s.tp1 ∧ s.tp1 < s.tp2
  | .short => s.tp2 < s.tp1 ∧ s.tp1 < s.entryPrice ∧ s.entryPrice < s.stopLoss

/-- One enabled session has the hour in its window and does not block it. -/
def InAllowedSession (p : AssetProfile) (ts : ℤ) : Prop :=
  ∃ session ∈ p.sessions, session.enabled = true ∧ utcHour ts ∉ session.blockedHours ∧
    session.startHour ≤ utcHour ts ∧ (session.endHour = 0 ∨ utcHour ts < session.endHour)

/-- What holds of a signal built on the zone. -/
structure SignalGeometry (p : AssetProfile) (z : HtfRange) (rejection : RejectionCandle)
    (s : TradeSignal) : Prop where
  direction_eq : s.direction = z.signalDirection
  levels : LevelsInOrder s
  tp1_eq : s.tp1 = s.entryPrice + (s.tp2 - s.entryPrice) * (p.tp1TriggerPct / 100)
  riskPips_eq : s.riskPips = |s.entryPrice - s.stopLoss|
  minRisk_le : 1 / 100000000 ≤ s.riskPips
  sl_cap : 0 < z.height → s.riskPips ≤ p.maxSlZoneMult * z.height
  rr_eq : s.riskRewardRatio = |s.tp2 - s.entryPrice| / s.riskPips
  rr_le : 0 < p.maxRr → s.riskRewardRatio ≤ p.maxRr
  tp2_eq : Uncapped p z s → s.tp2 = z.tpLevel
  capped : ¬ Uncapped p z s → s.riskRewardRatio = p.maxRr
  rr_floor : p.minRr ≤ |z.tpLevel - s.entryPrice| / s.riskPips
  session : p.useSessionFilter = true → InAllowedSession p rejection.timestamp

theorem inAllowedSession_of_accepts {ts : ℤ} (h : inSession p ts = true)
    (hfilter : p.useSessionFilter = true) : InAllowedSession p ts := by
  unfold inSession at h
  rw [hfilter] at h
  obtain ⟨session, hmem, hok⟩ := List.any_eq_true.mp h
  refine ⟨session, hmem, ?_⟩
  unfold TradingSession.accepts at hok
  by_cases hend : session.endHour = 0
  · simp [hend] at hok
    exact ⟨hok.1.1, hok.1.2, hok.2, Or.inl hend⟩
  · simp [hend] at hok
    exact ⟨hok.1.1, hok.1.2, hok.2.1, Or.inr hok.2.2⟩

/-- The levels of a built signal are in order. -/
theorem BuiltFrom.levelsInOrder
    (h : BuiltFrom symbol htfInterval ltfInterval z rejection signalId p liveBid liveAsk s)
    (hpos : 0 < p.tp1TriggerPct) (hlt : p.tp1TriggerPct < 100) : LevelsInOrder s := by
  have hrisk := h.riskPips_pos
  have hreward : 0 < s.riskRewardRatio * s.riskPips := mul_pos h.riskRewardRatio_pos hrisk
  have hstop := h.gain_stop
  have htp1 := h.gain_tp1
  have htp2 := h.gain_tp2
  -- TP1 lies strictly between entry and TP2
  have hfirst : 0 < gain s s.tp1 := by
    rw [htp1, pctFraction]
    positivity
  have hsecond : gain s s.tp1 < gain s s.tp2 := by
    rw [htp1, htp2, pctFraction]
    exact mul_lt_of_lt_one_right hreward (by linarith)
  unfold LevelsInOrder
  cases hd : s.direction with
  | long =>
      simp only [gain_of_long hd] at hstop hfirst hsecond
      refine ⟨?_, ?_, ?_⟩ <;> linarith
  | short =>
      simp only [gain_of_short hd] at hstop hfirst hsecond
      refine ⟨?_, ?_, ?_⟩ <;> linarith

theorem BuiltFrom.tp1_eq_fraction
    (h : BuiltFrom symbol htfInterval ltfInterval z rejection signalId p liveBid liveAsk s) :
    s.tp1 = s.entryPrice + (s.tp2 - s.entryPrice) * (p.tp1TriggerPct / 100) := by
  have htp1 := h.gain_tp1
  rw [← h.gain_tp2, pctFraction] at htp1
  cases hd : s.direction with
  | long =>
      rw [gain_of_long hd, gain_of_long hd] at htp1
      linarith
  | short =>
      rw [gain_of_short hd, gain_of_short hd] at htp1
      linarith

theorem BuiltFrom.rr_eq
    (h : BuiltFrom symbol htfInterval ltfInterval z rejection signalId p liveBid liveAsk s) :
    s.riskRewardRatio = |s.tp2 - s.entryPrice| / s.riskPips := by
  have hreward : 0 < s.riskRewardRatio * s.riskPips := mul_pos h.riskRewardRatio_pos h.riskPips_pos
  have habs : |s.tp2 - s.entryPrice| = s.riskRewardRatio * s.riskPips := by
    have htp2 := h.gain_tp2
    cases hd : s.direction with
    | long =>
        rw [gain_of_long hd] at htp2
        rw [htp2, abs_of_pos hreward]
    | short =>
        rw [gain_of_short hd] at htp2
        rw [abs_sub_comm, htp2, abs_of_pos hreward]
  rw [habs, mul_div_cancel_right₀ _ h.riskPips_pos.ne']

/-- An uncapped signal aims at the target of its zone. -/
theorem BuiltFrom.tp2_of_uncapped
    (h : BuiltFrom symbol htfInterval ltfInterval z rejection signalId p liveBid liveAsk s)
    (huncapped : Uncapped p z s) :
    s.tp2 = z.tpLevel ∧ s.riskRewardRatio = |z.tpLevel - s.entryPrice| / s.riskPips := by
  have hcapped := h.capped_eq
  rw [capRr, if_neg huncapped] at hcapped
  exact Prod.mk.inj hcapped

theorem BuiltFrom.rr_of_capped
    (h : BuiltFrom symbol htfInterval ltfInterval z rejection signalId p liveBid liveAsk s)
    (hcap : ¬ Uncapped p z s) : s.riskRewardRatio = p.maxRr := by
  have hcapped := h.capped_eq
  rw [capRr, if_pos (not_not.mp hcap)] at hcapped
  exact (Prod.mk.inj hcapped).2

theorem signalGeometry_of_some (hpos : 0 < p.tp1TriggerPct) (hlt : p.tp1TriggerPct < 100)
    (hs : buildSignal symbol htfInterval ltfInterval z rejection signalId p broker liveBid
      liveAsk = some s) : SignalGeometry p z rejection s := by
  have h := buildSignal_eq_some hs
  have hgates := buildSignal_isSome_iff.mp (Option.isSome_iff_exists.mpr ⟨s, hs⟩)
  rw [← h.direction_eq, ← h.entryPrice_eq, ← h.stopLoss_eq] at hgates
  refine
    { direction_eq := h.direction_eq
      levels := h.levelsInOrder hpos hlt
      tp1_eq := h.tp1_eq_fraction
      riskPips_eq := h.riskPips_eq
      minRisk_le := h.minRisk_le
      sl_cap := fun hz => ?_
      rr_eq := h.rr_eq
      rr_le := fun hmax => ?_
      tp2_eq := fun huncapped => (h.tp2_of_uncapped huncapped).1
      capped := h.rr_of_capped
      rr_floor := ?_
      session := inAllowedSession_of_accepts h.in_session }
  · rw [h.riskPips_eq, mul_comm]
    exact hgates.sl_cap hz
  · by_cases huncapped : Uncapped p z s
    · rw [(h.tp2_of_uncapped huncapped).2]
      exact not_lt.mp fun hcap => huncapped ⟨hmax, hcap⟩
    · exact (h.rr_of_capped huncapped).le
  · rw [h.riskPips_eq]
    exact hgates.rr_floor

/-- **Signal geometry.** Every built signal has its levels, risk and reward ratio in these
    relations, whatever the live prices, and none is built exactly if a gate fails. -/
theorem buildSignal_geometry (symbol : String) (htfInterval ltfInterval : Interval) (z : HtfRange)
    (rejection : RejectionCandle) (signalId : SignalId) (p : AssetProfile) (broker : String)
    (liveBid liveAsk : Option ℚ) (hpos : 0 < p.tp1TriggerPct) (hlt : p.tp1TriggerPct < 100) :
    (∀ s, buildSignal symbol htfInterval ltfInterval z rejection signalId p broker liveBid
      liveAsk = some s → SignalGeometry p z rejection s) ∧
    (buildSignal symbol htfInterval ltfInterval z rejection signalId p broker liveBid
      liveAsk = none ↔
      ¬ PassesGates z rejection p (entryFor p z.signalDirection rejection liveBid liveAsk)
        (stopFor p z.signalDirection rejection)) := by
  refine ⟨fun s hs => signalGeometry_of_some hpos hlt hs, ?_⟩
  rw [← buildSignal_isSome_iff, Bool.not_eq_true, Option.isSome_eq_false_iff,
    Option.isNone_iff_eq_none]

theorem buildSignal_geometry_sample :
    SignalGeometry sampleProfile sampleRange sampleRejection sampleSignal :=
  (buildSignal_geometry "XAUUSD" oneHour fiveMin sampleRange sampleRejection sampleId sampleProfile
    "" none none (by norm_num [sampleProfile]) (by norm_num [sampleProfile])).1 sampleSignal
    (by decide +kernel)

end SignalEngine
