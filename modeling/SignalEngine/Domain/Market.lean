/-
  Market: pivots, breaks of structure and HTF zones (`domain/market/swings.py`), and the trend
  bias read off them (`domain/market/structure.py`).

  Model. `bosWalk` is the chronological walk of `detect_bos_events`, one `bosStep` a candle,
  with the two references as its state and the sets of pivot timestamps as parameters.

  Proved: a walk over two parts is a walk over the first and one from where it ended
  (`bosWalk_append`), events are dated by candles of the walk (`bosWalk_timestamp`), and a
  walk looks at the pivot sets only at its own candles (`bosWalk_congr`).
-/
import SignalEngine.Domain.Entities

namespace SignalEngine

/-! ## Pivots -/

/-- The `left` candles before position `i` and the `right` candles after it. -/
def neighbours (cs : List Candle) (left right i : ℕ) : List Candle :=
  (cs.take i).drop (i - left) ++ (cs.drop (i + 1)).take right

/-- Candles at the positions `range(left, n - right)` that beat all their neighbours. -/
def findPivots (beats : Candle → Candle → Bool) (cs : List Candle) (left right : ℕ) :
    List Candle :=
  (List.range' left (cs.length - right - left)).filterMap fun i =>
    cs[i]?.filter fun c => (neighbours cs left right i).all (beats c)

/-- `_find_pivot_highs`. -/
def findPivotHighs (cs : List Candle) (left right : ℕ) : List Candle :=
  findPivots (fun c d => decide (d.high < c.high)) cs left right

/-- `_find_pivot_lows`. -/
def findPivotLows (cs : List Candle) (left right : ℕ) : List Candle :=
  findPivots (fun c d => decide (c.low < d.low)) cs left right

/-! ## Breaks of structure -/

/-- `(bos_timestamp, direction, broken_level, swing_candle)`. -/
structure BosEvent where
  timestamp : ℤ
  direction : BosDirection
  brokenLevel : ℚ
  swingCandle : Candle
  deriving DecidableEq, Repr

/-- `last_pivot_high` and `last_pivot_low`. -/
@[ext] structure BosRefs where
  high : Option Candle := none
  low : Option Candle := none
  deriving DecidableEq, Repr

/-- The references after the pivot tests on `c`. -/
def BosRefs.update (highTs lowTs : List ℤ) (r : BosRefs) (c : Candle) : BosRefs where
  high := if c.timestamp ∈ highTs then some c else r.high
  low := if c.timestamp ∈ lowTs then some c else r.low

/-- The event of `c` under the references, bullish first. -/
def BosRefs.event (r : BosRefs) (c : Candle) : Option BosEvent :=
  match r.high, r.low with
  | some h, some l =>
      if h.timestamp < c.timestamp ∧ h.high < c.close then
        some ⟨c.timestamp, .bullish, h.high, l⟩
      else if l.timestamp < c.timestamp ∧ c.close < l.low then
        some ⟨c.timestamp, .bearish, l.low, h⟩
      else none
  | _, _ => none

/-- One candle of the walk; an event resets both references. -/
def bosStep (highTs lowTs : List ℤ) (r : BosRefs) (c : Candle) : BosRefs × Option BosEvent :=
  match (r.update highTs lowTs c).event c with
  | some e => ({}, some e)
  | none => (r.update highTs lowTs c, none)

def bosWalk (highTs lowTs : List ℤ) : BosRefs → List Candle → List BosEvent
  | _, [] => []
  | r, c :: cs =>
      (bosStep highTs lowTs r c).2.toList ++ bosWalk highTs lowTs (bosStep highTs lowTs r c).1 cs

/-- The references after a walk. -/
def bosRefs (highTs lowTs : List ℤ) (r : BosRefs) (cs : List Candle) : BosRefs :=
  cs.foldl (fun r c => (bosStep highTs lowTs r c).1) r

/-- `pivot_high_ts`. -/
def pivotHighTs (cs : List Candle) (pivotBars : ℕ) : List ℤ :=
  (findPivotHighs cs pivotBars pivotBars).map Candle.timestamp

/-- `pivot_low_ts`. -/
def pivotLowTs (cs : List Candle) (pivotBars : ℕ) : List ℤ :=
  (findPivotLows cs pivotBars pivotBars).map Candle.timestamp

def detectBosEvents (cs : List Candle) (pivotBars : ℕ) : List BosEvent :=
  bosWalk (pivotHighTs cs pivotBars) (pivotLowTs cs pivotBars) {} cs

/-! ## Zones -/

def minBody : ℚ := 1 / 10000000000

def Candle.body (c : Candle) : ℚ := |c.close - c.openPrice|

/-- `detect_displacement`. -/
def detectDisplacement (cs : List Candle) (bosTs : ℤ) (atrPeriod : ℤ) (atrMult : ℚ) : Bool :=
  match cs.findIdx? (fun c => decide (c.timestamp = bosTs)) with
  | none | some 0 => true
  | some (i + 1) =>
      match cs[i + 1]? with
      | none => true
      | some bos =>
          let start := max 0 ((i + 1 : ℤ) - atrPeriod)
          let prior := (cs.take (i + 1)).drop start.toNat
          if prior = [] then true
          else
            let avgBody := (prior.map Candle.body).sum / prior.length
            if avgBody < minBody then true else decide (atrMult * avgBody ≤ bos.body)

/-- `xs[:n]`. -/
def sliceTo {α : Type} (n : ℤ) (xs : List α) : List α :=
  if 0 ≤ n then xs.take n.toNat else xs.take (xs.length - (-n).toNat)

/-- A candle closes through the far side of the zone after the break. -/
def takenOut (cs : List Candle) (direction : BosDirection) (swing : Candle) (bosTs : ℤ) : Bool :=
  cs.any fun c => decide (bosTs < c.timestamp) &&
    (match direction with
      | .bearish => decide (swing.high < c.close)
      | .bullish => decide (c.close < swing.low))

/-- The extreme reached beyond the zone after the break, else the zone's near edge. -/
def zoneTpLevel (cs : List Candle) (direction : BosDirection) (swing : Candle) (bosTs : ℤ) : ℚ :=
  match direction with
  | .bearish =>
      (((cs.filter fun c => decide (bosTs < c.timestamp ∧ c.low < swing.low)).map
        Candle.low).min?).getD swing.low
  | .bullish =>
      (((cs.filter fun c => decide (bosTs < c.timestamp ∧ swing.high < c.high)).map
        Candle.high).max?).getD swing.high

def zoneOf (cs : List Candle) (htfIntervalMs : ℤ) (e : BosEvent) : HtfRange where
  rangeHigh := e.swingCandle.high
  rangeLow := e.swingCandle.low
  bosDirection := e.direction
  timestamp := e.swingCandle.timestamp
  brokenAt := e.timestamp
  tpLevel := zoneTpLevel cs e.direction e.swingCandle e.timestamp
  htfCandleOpen := e.swingCandle.timestamp
  htfCandleClose := e.swingCandle.timestamp + htfIntervalMs

/-- The zones of the events whose swing candle is new for its direction. -/
def freshZones (cs : List Candle) (htfIntervalMs : ℤ) :
    List (BosDirection × ℤ) → List BosEvent → List HtfRange
  | _, [] => []
  | seen, e :: es =>
      let k := (e.direction, e.swingCandle.timestamp)
      if k ∈ seen then freshZones cs htfIntervalMs seen es
      else if takenOut cs e.direction e.swingCandle e.timestamp then
        freshZones cs htfIntervalMs (k :: seen) es
      else zoneOf cs htfIntervalMs e :: freshZones cs htfIntervalMs (k :: seen) es

/-- The newest zones of one direction. -/
def newestZones (maxZonesPerDir : ℤ) (direction : BosDirection) (zones : List HtfRange) :
    List HtfRange :=
  sliceTo maxZonesPerDir
    ((zones.filter fun z => decide (z.bosDirection = direction)).insertionSort
      fun a b => b.timestamp ≤ a.timestamp)

/-- `SwingDetector.find_htf_ranges`. -/
def findHtfRanges (cs : List Candle) (pivotBars : ℕ) (htfIntervalMs : ℤ)
    (maxZonesPerDir : ℤ) : List HtfRange :=
  if cs.length < 3 then []
  else
    let zones := freshZones cs htfIntervalMs [] (detectBosEvents cs pivotBars)
    newestZones maxZonesPerDir .bearish zones ++ newestZones maxZonesPerDir .bullish zones

/-! ## Trend bias -/

inductive BiasReason where
  | tooFewCandles (count : ℕ)
  | noBos
  | lastBroke (direction : BosDirection) (level : ℚ)
  deriving DecidableEq, Repr

/-- `StructureResult`. -/
structure StructureResult where
  bias : TrendBias
  lastBos : Option BosDirection := none
  lastBosTs : Option ℤ := none
  lastBosLevel : Option ℚ := none
  bosCount : ℕ := 0
  reason : BiasReason
  deriving DecidableEq, Repr

def StructureResult.allows (r : StructureResult) (direction : SignalDirection) : Bool :=
  match r.bias, direction with
  | .long, .long | .short, .short => true
  | _, _ => false

/-- `max(bos_events, key=lambda x: x[0])`: the first event of the latest time. -/
def latestEvent (es : List BosEvent) : Option BosEvent :=
  es.foldl (fun best e =>
    match best with
    | none => some e
    | some b => if b.timestamp < e.timestamp then some e else some b) none

/-- `MarketStructure.detect`. -/
def detectStructure (cs : List Candle) (pivotBars : ℕ) : StructureResult :=
  if cs.length < 3 then { bias := .neutral, reason := .tooFewCandles cs.length }
  else
    match latestEvent (detectBosEvents cs pivotBars) with
    | none => { bias := .neutral, reason := .noBos }
    | some e =>
        { bias := if e.direction = .bullish then .long else .short
          lastBos := some e.direction
          lastBosTs := some e.timestamp
          lastBosLevel := some e.brokenLevel
          bosCount := (detectBosEvents cs pivotBars).length
          reason := .lastBroke e.direction e.brokenLevel }

/-! ## Walks -/

variable {highTs lowTs highTs' lowTs' : List ℤ} {r : BosRefs} {c : Candle} {cs : List Candle}

theorem bosWalk_append (highTs lowTs : List ℤ) (r : BosRefs) (xs ys : List Candle) :
    bosWalk highTs lowTs r (xs ++ ys) =
      bosWalk highTs lowTs r xs ++ bosWalk highTs lowTs (bosRefs highTs lowTs r xs) ys := by
  induction xs generalizing r with
  | nil => rfl
  | cons x xs ih =>
      rw [List.cons_append, bosWalk, bosWalk, ih, List.append_assoc]
      rfl

theorem event_timestamp {e : BosEvent} (h : r.event c = some e) :
    e.timestamp = c.timestamp := by
  unfold BosRefs.event at h
  split at h
  · split at h
    · cases h; rfl
    · split at h
      · cases h; rfl
      · cases h
  · cases h

theorem bosStep_snd : (bosStep highTs lowTs r c).2 = (r.update highTs lowTs c).event c := by
  unfold bosStep
  split
  · next h => rw [h]
  · next h => rw [h]

/-- Every event is dated by a candle of the walk. -/
theorem bosWalk_timestamp {e : BosEvent} (h : e ∈ bosWalk highTs lowTs r cs) :
    ∃ c ∈ cs, e.timestamp = c.timestamp := by
  induction cs generalizing r with
  | nil => cases h
  | cons c cs ih =>
      rcases List.mem_append.mp h with h | h
      · rw [bosStep_snd, Option.mem_toList] at h
        exact ⟨c, List.mem_cons_self, event_timestamp h⟩
      · obtain ⟨d, hd, heq⟩ := ih h
        exact ⟨d, List.mem_cons_of_mem _ hd, heq⟩

/-- The two pivot sets agree on the candle. -/
structure SamePivots (highTs lowTs highTs' lowTs' : List ℤ) (c : Candle) : Prop where
  high_iff : c.timestamp ∈ highTs ↔ c.timestamp ∈ highTs'
  low_iff : c.timestamp ∈ lowTs ↔ c.timestamp ∈ lowTs'

theorem bosStep_congr (h : SamePivots highTs lowTs highTs' lowTs' c) (r : BosRefs) :
    bosStep highTs lowTs r c = bosStep highTs' lowTs' r c := by
  have hupdate : r.update highTs lowTs c = r.update highTs' lowTs' c := by
    simp only [BosRefs.update, h.high_iff, h.low_iff]
  rw [bosStep, bosStep, hupdate]

theorem bosWalk_congr (h : ∀ c ∈ cs, SamePivots highTs lowTs highTs' lowTs' c) (r : BosRefs) :
    bosWalk highTs lowTs r cs = bosWalk highTs' lowTs' r cs := by
  induction cs generalizing r with
  | nil => rfl
  | cons c cs ih =>
      rw [bosWalk, bosWalk, bosStep_congr (h c List.mem_cons_self),
        ih (fun d hd => h d (List.mem_cons_of_mem _ hd))]

theorem bosRefs_congr (h : ∀ c ∈ cs, SamePivots highTs lowTs highTs' lowTs' c) (r : BosRefs) :
    bosRefs highTs lowTs r cs = bosRefs highTs' lowTs' r cs := by
  unfold bosRefs
  induction cs generalizing r with
  | nil => rfl
  | cons c cs ih =>
      rw [List.foldl_cons, List.foldl_cons, bosStep_congr (h c List.mem_cons_self)]
      exact ih (fun d hd => h d (List.mem_cons_of_mem _ hd)) _

end SignalEngine
