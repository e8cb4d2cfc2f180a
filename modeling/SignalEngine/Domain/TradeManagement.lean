/-
  Trade management: the level and R arithmetic of `domain/trade_management.py`.

  `tp1BookedRr` is what the TP1 partial close books; `tp2WeightedRr` is that plus the rest of
  the position at the full ratio. For a trigger in (0, 100) and a close share in [0, 100] both
  lie between 0 and the full ratio (`tp1BookedRr_le`, `tp2WeightedRr_le`).
-/
import SignalEngine.Domain.Entities

namespace SignalEngine

def pctFraction (value : ℚ) : ℚ := value / 100

def tp1Level (direction : SignalDirection) (entryPrice tp2 tp1TriggerPct : ℚ) : ℚ :=
  let fraction := pctFraction tp1TriggerPct
  match direction with
  | .long => entryPrice + |tp2 - entryPrice| * fraction
  | .short => entryPrice - |tp2 - entryPrice| * fraction

def tp1BookedRr (fullRr tp1TriggerPct tp1ClosePct : ℚ) : ℚ :=
  fullRr * pctFraction tp1TriggerPct * pctFraction tp1ClosePct

def breakevenPrice (_direction : SignalDirection) (entryPrice : ℚ) : ℚ := entryPrice

def protectedBreakevenRr (fullRr tp1TriggerPct tp1ClosePct : ℚ) : ℚ :=
  tp1BookedRr fullRr tp1TriggerPct tp1ClosePct

def tp2WeightedRr (fullRr tp1TriggerPct tp1ClosePct : ℚ) : ℚ :=
  let closeFraction := pctFraction tp1ClosePct
  let tp1Rr := fullRr * pctFraction tp1TriggerPct
  tp1Rr * closeFraction + fullRr * (1 - closeFraction)

/-- The bounds `Settings` asks of its two percentages. -/
structure AssetProfile.PctInRange (p : AssetProfile) : Prop where
  trigger_pos : 0 < p.tp1TriggerPct
  trigger_lt : p.tp1TriggerPct < 100
  close_nonneg : 0 ≤ p.tp1ClosePct
  close_le : p.tp1ClosePct ≤ 100

theorem pctFraction_nonneg {x : ℚ} (h : 0 ≤ x) : 0 ≤ pctFraction x := by
  unfold pctFraction
  positivity

theorem pctFraction_le_one {x : ℚ} (h : x ≤ 100) : pctFraction x ≤ 1 := by
  unfold pctFraction
  linarith

theorem tp1BookedRr_nonneg {p : AssetProfile} (hp : p.PctInRange) {rr : ℚ} (hrr : 0 ≤ rr) :
    0 ≤ tp1BookedRr rr p.tp1TriggerPct p.tp1ClosePct := by
  have h1 := pctFraction_nonneg hp.trigger_pos.le
  have h2 := pctFraction_nonneg hp.close_nonneg
  unfold tp1BookedRr
  positivity

theorem tp1BookedRr_le {p : AssetProfile} (hp : p.PctInRange) {rr : ℚ} (hrr : 0 ≤ rr) :
    tp1BookedRr rr p.tp1TriggerPct p.tp1ClosePct ≤ rr := by
  have h1 := pctFraction_nonneg hp.trigger_pos.le
  have h3 := pctFraction_le_one hp.trigger_lt.le
  have h4 := pctFraction_le_one hp.close_le
  have hfirst : rr * pctFraction p.tp1TriggerPct ≤ rr := mul_le_of_le_one_right hrr h3
  have hnonneg : 0 ≤ rr * pctFraction p.tp1TriggerPct := mul_nonneg hrr h1
  exact (mul_le_of_le_one_right hnonneg h4).trans hfirst

theorem tp2WeightedRr_nonneg {p : AssetProfile} (hp : p.PctInRange) {rr : ℚ} (hrr : 0 ≤ rr) :
    0 ≤ tp2WeightedRr rr p.tp1TriggerPct p.tp1ClosePct := by
  have hbooked := tp1BookedRr_nonneg hp hrr
  have hrest : 0 ≤ 1 - pctFraction p.tp1ClosePct := sub_nonneg.mpr (pctFraction_le_one hp.close_le)
  exact add_nonneg hbooked (mul_nonneg hrr hrest)

theorem tp2WeightedRr_le {p : AssetProfile} (hp : p.PctInRange) {rr : ℚ} (hrr : 0 ≤ rr) :
    tp2WeightedRr rr p.tp1TriggerPct p.tp1ClosePct ≤ rr := by
  have h2 := pctFraction_nonneg hp.close_nonneg
  have h3 := pctFraction_le_one hp.trigger_lt.le
  have hfirst : rr * pctFraction p.tp1TriggerPct ≤ rr := mul_le_of_le_one_right hrr h3
  have hpart := mul_le_mul_of_nonneg_right hfirst h2
  calc tp2WeightedRr rr p.tp1TriggerPct p.tp1ClosePct
      = rr * pctFraction p.tp1TriggerPct * pctFraction p.tp1ClosePct +
          rr * (1 - pctFraction p.tp1ClosePct) := rfl
    _ ≤ rr * pctFraction p.tp1ClosePct + rr * (1 - pctFraction p.tp1ClosePct) := by linarith
    _ = rr := by ring

end SignalEngine
