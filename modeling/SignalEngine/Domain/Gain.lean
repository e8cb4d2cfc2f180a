/-
  Gain: prices measured from entry in the trade's favour.

  `gain` is the signed distance that makes longs and shorts one case; `rAt` divides it by the
  risk. On a built signal the four levels have fixed gains (`BuiltFrom.geometry`): the stop one
  risk below entry, TP2 the reward ratio above it, and TP1 its share of the way.
-/
import SignalEngine.Domain.Builder

namespace SignalEngine

/-- The distance of a price from entry, positive in the trade's favour. -/
def gain (s : TradeSignal) (x : ℚ) : ℚ :=
  match s.direction with
  | .long => x - s.entryPrice
  | .short => s.entryPrice - x

/-- The R of a price. -/
def rAt (s : TradeSignal) (x : ℚ) : ℚ := gain s x / s.riskPips

variable {symbol : String} {htfInterval ltfInterval : Interval} {htfRange : HtfRange}
  {rejection : RejectionCandle} {signalId : SignalId} {p : AssetProfile} {broker : String}
  {liveBid liveAsk : Option ℚ} {s : TradeSignal}

theorem gain_of_long (hd : s.direction = .long) (x : ℚ) : gain s x = x - s.entryPrice := by
  rw [gain, hd]

theorem gain_of_short (hd : s.direction = .short) (x : ℚ) : gain s x = s.entryPrice - x := by
  rw [gain, hd]

theorem gain_injective (s : TradeSignal) : Function.Injective (gain s) := by
  intro x y h
  unfold gain at h
  cases hd : s.direction with
  | long | short =>
      rw [hd] at h
      dsimp only at h
      linarith

theorem gain_entry (s : TradeSignal) : gain s s.entryPrice = 0 := by
  unfold gain
  cases s.direction <;> exact sub_self _

theorem rAt_entry (s : TradeSignal) : rAt s s.entryPrice = 0 := by
  rw [rAt, gain_entry, zero_div]

/-- Where the levels of a trade lie, in units of its risk. -/
structure TradeGeometry (p : AssetProfile) (s : TradeSignal) : Prop where
  risk_pos : 0 < s.riskPips
  reward_pos : 0 < s.riskRewardRatio
  rAt_stop : rAt s s.stopLoss = -1
  rAt_tp2 : rAt s s.tp2 = s.riskRewardRatio
  rAt_tp1 : rAt s s.tp1 = s.riskRewardRatio * pctFraction p.tp1TriggerPct

/-- The stop is the risk away, on the losing side. -/
theorem BuiltFrom.gain_stop
    (h : BuiltFrom symbol htfInterval ltfInterval htfRange rejection signalId p liveBid liveAsk s) :
    gain s s.stopLoss = -s.riskPips := by
  have hside := h.sl_side
  rw [h.riskPips_eq]
  cases hd : s.direction with
  | long =>
      rw [hd] at hside
      have hlt : s.stopLoss < s.entryPrice := not_le.mp (of_decide_eq_false hside)
      rw [gain_of_long hd, abs_of_pos (sub_pos.mpr hlt)]
      ring
  | short =>
      rw [hd] at hside
      have hlt : s.entryPrice < s.stopLoss := not_le.mp (of_decide_eq_false hside)
      rw [gain_of_short hd, abs_of_neg (sub_neg.mpr hlt)]
      ring

/-- TP2 is the reward away, on the winning side, capped or not. -/
theorem BuiltFrom.gain_tp2
    (h : BuiltFrom symbol htfInterval ltfInterval htfRange rejection signalId p liveBid liveAsk s) :
    gain s s.tp2 = s.riskRewardRatio * s.riskPips := by
  have hrisk := h.riskPips_pos.ne'
  have hcap := h.capped_eq
  have hside := h.tpLevel_side
  unfold capRr at hcap
  cases hd : s.direction with
  | long =>
      rw [hd] at hcap hside
      have hlt : s.entryPrice < htfRange.tpLevel := not_le.mp (of_decide_eq_false hside)
      rw [gain_of_long hd]
      dsimp only at hcap
      split at hcap
      · obtain ⟨htp2, hrr⟩ := Prod.mk.inj hcap
        rw [htp2, hrr]
        ring
      · obtain ⟨htp2, hrr⟩ := Prod.mk.inj hcap
        rw [htp2, hrr, div_mul_cancel₀ _ hrisk, abs_of_pos (sub_pos.mpr hlt)]
  | short =>
      rw [hd] at hcap hside
      have hlt : htfRange.tpLevel < s.entryPrice := not_le.mp (of_decide_eq_false hside)
      rw [gain_of_short hd]
      dsimp only at hcap
      split at hcap
      · obtain ⟨htp2, hrr⟩ := Prod.mk.inj hcap
        rw [htp2, hrr]
        ring
      · obtain ⟨htp2, hrr⟩ := Prod.mk.inj hcap
        rw [htp2, hrr, div_mul_cancel₀ _ hrisk, abs_of_neg (sub_neg.mpr hlt)]
        ring

/-- TP1 is its share of the way to TP2. -/
theorem BuiltFrom.gain_tp1
    (h : BuiltFrom symbol htfInterval ltfInterval htfRange rejection signalId p liveBid liveAsk s) :
    gain s s.tp1 = s.riskRewardRatio * s.riskPips * pctFraction p.tp1TriggerPct := by
  have hpos : 0 ≤ s.riskRewardRatio * s.riskPips :=
    (mul_pos h.riskRewardRatio_pos h.riskPips_pos).le
  have htp2 := h.gain_tp2
  rw [h.tp1_eq]
  unfold tp1Level
  cases hd : s.direction with
  | long =>
      rw [gain_of_long hd] at htp2 ⊢
      dsimp only
      rw [htp2, abs_of_nonneg hpos]
      ring
  | short =>
      rw [gain_of_short hd] at htp2 ⊢
      dsimp only
      rw [abs_sub_comm, htp2, abs_of_nonneg hpos]
      ring

theorem BuiltFrom.geometry
    (h : BuiltFrom symbol htfInterval ltfInterval htfRange rejection signalId p liveBid liveAsk s) :
    TradeGeometry p s := by
  have hrisk := h.riskPips_pos.ne'
  refine ⟨h.riskPips_pos, h.riskRewardRatio_pos, ?_, ?_, ?_⟩
  · rw [rAt, h.gain_stop, neg_div, div_self hrisk]
  · rw [rAt, h.gain_tp2, mul_div_cancel_right₀ _ hrisk]
  · rw [rAt, h.gain_tp1]
    field_simp

end SignalEngine
