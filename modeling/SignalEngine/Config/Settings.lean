/-
  Settings: the configuration values the engine and the backtester read.

  Model. The tables keyed by `HTF_min/LTF_min` are keyed by the two numbers. The profile a
  symbol resolves to (`AssetRegistry.get`) is a parameter of the models that use one.
-/
import SignalEngine.Domain.Entities

namespace SignalEngine

open Lib

/-- `timeframes.htf_lookback`: one number, or a table with an optional `*` entry. -/
inductive HtfLookback where
  | scalar (bars : ℤ)
  | perPair (table : List ((ℕ × ℕ) × ℤ)) (star : Option ℤ)
  deriving DecidableEq, Repr

structure Settings where
  tfPairs : List (Interval × Interval)
  mt5Profile : String := ""
  htfLookback : HtfLookback := .scalar 120
  maxEmitLagMs : ℤ := 90000
  signalExpiryHours : ℚ := 120
  maxHtfZonesPerDir : ℤ := 1
  maxSignalCountPerZone : ℕ := 1
  multiTfIndependentPositions : Bool := true
  useDisplacementFilter : Bool := true
  displacementAtrPeriod : ℤ := 10
  displacementAtrMult : ℚ := 12 / 10
  tfDisplacementMult : List ((ℕ × ℕ) × ℚ) := []
  maxConsecutiveLosses : ℤ := 10
  pauseAfterStreakH : ℚ := 10
  deriving DecidableEq, Repr

/-- `_PIVOT_BARS`. -/
def pivotBars : ℕ := 1

/-- `f"{HTF_min}/{LTF_min}"`. -/
def pairKey (htf ltf : Interval) : ℕ × ℕ := (intervalToMinutes htf, intervalToMinutes ltf)

def Settings.resolveHtfLookback (cfg : Settings) (htf ltf : Interval) : ℤ :=
  match cfg.htfLookback with
  | .scalar bars => bars
  | .perPair table star => (table.lookup (pairKey htf ltf)).getD (star.getD 120)

/-- Two LTF candles, in hours rounded to four digits; the quotient and the result are doubles. -/
def rejectionStaleHours (ltf : Interval) : ℚ :=
  toDouble (pyRoundTo (toDouble ((intervalToMinutes ltf : ℚ) * 2 / 60)) 4)

def Settings.displacementMultFor (cfg : Settings) (htf ltf : Interval) : ℚ :=
  (cfg.tfDisplacementMult.lookup (pairKey htf ltf)).getD cfg.displacementAtrMult

/-- One hourly zone feeding five-minute entries, everything else at its default. -/
def sampleSettings : Settings where
  tfPairs := [(oneHour, fiveMin)]

end SignalEngine
