/-
  Entry: the CRT trigger of `domain/market/rejection.py`, dispatched by
  `domain/signals/entry.py`.

  Model. `scanBack` is the reverse scan of `find_most_recent`, on the list turned around. The
  divisions `x / total_range` are guarded as in the source.

  Proved: a rejection is a candle of the list it was found in (`findEntry_mem`).
-/
import SignalEngine.Domain.Entities

namespace SignalEngine

/-- `RejectionScore`. -/
structure RejectionScore where
  wickPenetration : ℚ
  closeProximity : ℚ
  wickRatio : ℚ
  total : ℚ
  deriving DecidableEq, Repr

/-- `RejectionScore.compute`. -/
def RejectionScore.compute (wickPenetration closeProximity wickRatio : ℚ) : RejectionScore where
  wickPenetration := wickPenetration
  closeProximity := closeProximity
  wickRatio := wickRatio
  total := wickPenetration * (1 / 2) + wickRatio * (3 / 10) + closeProximity * (2 / 10)

/-- `1e-8`, under which a range counts as empty. -/
def minExtent : ℚ := 1 / 100000000

/-- `_inside_htf`: the candle touches the zone. -/
def insideHtf (c : Candle) (z : HtfRange) : Bool :=
  decide (c.low ≤ z.rangeHigh ∧ z.rangeLow ≤ c.high)

/-- The candle as a `RejectionCandle`. -/
def rejectionOf (c : Candle) (wickRatio : ℚ) (pattern : CandlePattern) : RejectionCandle where
  openPrice := c.openPrice
  high := c.high
  low := c.low
  close := c.close
  timestamp := c.timestamp
  wickRatio := wickRatio
  pattern := pattern

/-- `x / total_range if total_range > 1e-8 else 0.0`. -/
def overRange (x totalRange : ℚ) : ℚ := if minExtent < totalRange then x / totalRange else 0

/-- `_sell`: swept above `level`, closed back below it. -/
def crtSell (c : Candle) (level : ℚ) : Option (RejectionCandle × RejectionScore) :=
  if c.high ≤ level then none
  else if level ≤ c.close then none
  else
    let sweepWick := c.high - max c.openPrice c.close
    let wickRatio := overRange sweepWick c.totalRange
    let zoneSize := c.high - level
    if zoneSize < minExtent then none
    else
      some (rejectionOf c wickRatio .crtSell,
        RejectionScore.compute (zoneSize / zoneSize) (overRange (level - c.close) c.totalRange)
          wickRatio)

/-- `_buy`: swept below `level`, closed back above it. -/
def crtBuy (c : Candle) (level : ℚ) : Option (RejectionCandle × RejectionScore) :=
  if level ≤ c.low then none
  else if c.close ≤ level then none
  else
    let sweepWick := min c.openPrice c.close - c.low
    let wickRatio := overRange sweepWick c.totalRange
    let zoneSize := level - c.low
    if zoneSize < minExtent then none
    else
      some (rejectionOf c wickRatio .crtBuy,
        RejectionScore.compute (zoneSize / zoneSize) (overRange (c.close - level) c.totalRange)
          wickRatio)

/-- `CrtDetector.check`. -/
def crtCheck (c prev : Candle) (direction : SignalDirection) (z : Option HtfRange) :
    Option (RejectionCandle × RejectionScore) :=
  if z.any (fun z => !insideHtf c z) then none
  else
    match direction with
    | .short => crtSell c prev.high
    | .long => crtBuy c prev.low

/-- The scan, newest candle first. -/
def scanBack (direction : SignalDirection) (z : Option HtfRange) :
    List Candle → Option (RejectionCandle × RejectionScore)
  | c :: prev :: older =>
      match crtCheck c prev direction z with
      | some r => some r
      | none => scanBack direction z (prev :: older)
  | _ => none

/-- `CrtDetector.find_most_recent`. -/
def findMostRecent (cs : List Candle) (direction : SignalDirection) (z : Option HtfRange) :
    Option (RejectionCandle × RejectionScore) :=
  scanBack direction z cs.reverse

/-- `find_entry`. -/
def findEntry (ltfZone : List Candle) (direction : SignalDirection) (z : HtfRange) :
    Option (RejectionCandle × RejectionScore) :=
  findMostRecent ltfZone direction (some z)

/-! ## Where a rejection comes from -/

variable {c prev : Candle} {cs : List Candle} {direction : SignalDirection}
  {z : Option HtfRange} {r : RejectionCandle × RejectionScore}

theorem crtCheck_timestamp (h : crtCheck c prev direction z = some r) :
    r.1.timestamp = c.timestamp := by
  unfold crtCheck crtSell crtBuy at h
  split at h
  · cases h
  · cases direction with
    | short | long =>
        dsimp only at h
        split at h
        · cases h
        split at h
        · cases h
        split at h
        · cases h
        cases h
        rfl

theorem scanBack_mem (h : scanBack direction z cs = some r) :
    ∃ c ∈ cs, r.1.timestamp = c.timestamp := by
  induction cs with
  | nil => cases h
  | cons c cs ih =>
      cases cs with
      | nil => cases h
      | cons prev older =>
          rw [scanBack] at h
          split at h
          · next hcheck =>
              cases h
              exact ⟨c, List.mem_cons_self, crtCheck_timestamp hcheck⟩
          · obtain ⟨d, hd, heq⟩ := ih h
            exact ⟨d, List.mem_cons_of_mem _ hd, heq⟩

/-- Older candles do not change what has been found. -/
theorem scanBack_append (h : scanBack direction z cs = some r) (older : List Candle) :
    scanBack direction z (cs ++ older) = some r := by
  induction cs with
  | nil => cases h
  | cons c cs ih =>
      cases cs with
      | nil => cases h
      | cons prev rest =>
          rw [scanBack] at h
          rw [List.cons_append, List.cons_append, scanBack]
          split at h
          · exact h
          · exact ih h

theorem findEntry_of_drop {z : HtfRange} {n : ℕ} (h : findEntry (cs.drop n) direction z = some r) :
    findEntry cs direction z = some r := by
  have hsplit : cs.reverse = (cs.drop n).reverse ++ (cs.take n).reverse := by
    rw [← List.reverse_append, List.take_append_drop]
  unfold findEntry findMostRecent at h ⊢
  rw [hsplit]
  exact scanBack_append h _

theorem findEntry_mem {z : HtfRange} (h : findEntry cs direction z = some r) :
    ∃ c ∈ cs, r.1.timestamp = c.timestamp := by
  obtain ⟨c, hc, heq⟩ := scanBack_mem h
  exact ⟨c, List.mem_reverse.mp hc, heq⟩

end SignalEngine
