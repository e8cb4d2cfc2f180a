/-
  Mirror: the market read upside down.

  `Candle.mirror K` sends every price `p` to `K - p` and exchanges high and low. Pivot highs
  become pivot lows, a bullish break becomes a bearish one, a zone is reflected, and a CRT sell
  becomes a CRT buy. The only place where longs and shorts are not treated alike is the order
  of the two tests of `detect_bos_events`, which does not matter because the references are
  never crossed (`RefsAt.uncrossed`).

  `mirror_detection` assembles the three detectors.
-/
import SignalEngine.Domain.BosEvents
import SignalEngine.Domain.Entry

namespace SignalEngine

/-! ## The reflection -/

def SignalDirection.flip : SignalDirection → SignalDirection
  | .long => .short
  | .short => .long

def BosDirection.flip : BosDirection → BosDirection
  | .bullish => .bearish
  | .bearish => .bullish

def CandlePattern.flip : CandlePattern → CandlePattern
  | .shootingStar => .hammer
  | .hammer => .shootingStar
  | .crtSell => .crtBuy
  | .crtBuy => .crtSell

def Candle.mirror (K : ℚ) (c : Candle) : Candle :=
  { c with
    openPrice := K - c.openPrice
    high := K - c.low
    low := K - c.high
    close := K - c.close }

def BosEvent.mirror (K : ℚ) (e : BosEvent) : BosEvent :=
  { e with
    direction := e.direction.flip
    brokenLevel := K - e.brokenLevel
    swingCandle := e.swingCandle.mirror K }

def HtfRange.mirror (K : ℚ) (z : HtfRange) : HtfRange :=
  { z with
    rangeHigh := K - z.rangeLow
    rangeLow := K - z.rangeHigh
    bosDirection := z.bosDirection.flip
    tpLevel := K - z.tpLevel }

def RejectionCandle.mirror (K : ℚ) (r : RejectionCandle) : RejectionCandle :=
  { r with
    openPrice := K - r.openPrice
    high := K - r.low
    low := K - r.high
    close := K - r.close
    pattern := r.pattern.flip }

/-- The references of the mirrored walk. -/
def BosRefs.mirror (K : ℚ) (r : BosRefs) : BosRefs where
  high := r.low.map (Candle.mirror K)
  low := r.high.map (Candle.mirror K)

variable {K : ℚ} {highTs lowTs : List ℤ} {r : BosRefs} {c prev : Candle} {cs pre : List Candle}

@[simp] theorem mirror_timestamp : (c.mirror K).timestamp = c.timestamp := rfl

@[simp] theorem mirror_totalRange : (c.mirror K).totalRange = c.totalRange := by
  unfold Candle.totalRange Candle.mirror
  dsimp only
  ring

@[simp] theorem candle_mirror_mirror (K : ℚ) (c : Candle) : (c.mirror K).mirror K = c := by
  simp only [Candle.mirror, sub_sub_cancel]

@[simp] theorem candlePattern_flip_flip (x : CandlePattern) : x.flip.flip = x := by
  cases x <;> rfl

@[simp] theorem bosDirection_flip_flip (d : BosDirection) : d.flip.flip = d := by
  cases d <;> rfl

theorem bosDirection_flip_injective : Function.Injective BosDirection.flip :=
  Function.LeftInverse.injective bosDirection_flip_flip

/-! ## Breaks of structure -/

theorem findPivots_map (f : Candle → Candle) (beats : Candle → Candle → Bool)
    (cs : List Candle) (left right : ℕ) :
    findPivots beats (cs.map f) left right =
      (findPivots (fun c d => beats (f c) (f d)) cs left right).map f := by
  unfold findPivots neighbours
  rw [List.length_map, List.map_filterMap]
  refine List.filterMap_congr fun i _ => ?_
  rw [List.getElem?_map, ← List.map_take, ← List.map_drop, ← List.map_drop, ← List.map_take,
    ← List.map_append]
  cases cs[i]? with
  | none => rfl
  | some c =>
      simp only [Option.map_some, Option.filter_some, List.all_map, Function.comp_def]
      split <;> rfl

theorem pivotHighTs_mirror (K : ℚ) (cs : List Candle) (pivotBars : ℕ) :
    pivotHighTs (cs.map (Candle.mirror K)) pivotBars = pivotLowTs cs pivotBars := by
  unfold pivotHighTs pivotLowTs findPivotHighs findPivotLows
  rw [findPivots_map, List.map_map]
  simp only [Candle.mirror, sub_lt_sub_iff_left]
  rfl

theorem pivotLowTs_mirror (K : ℚ) (cs : List Candle) (pivotBars : ℕ) :
    pivotLowTs (cs.map (Candle.mirror K)) pivotBars = pivotHighTs cs pivotBars := by
  unfold pivotHighTs pivotLowTs findPivotHighs findPivotLows
  rw [findPivots_map, List.map_map]
  simp only [Candle.mirror, sub_lt_sub_iff_left]
  rfl

theorem update_mirror (K : ℚ) (r : BosRefs) (c : Candle) :
    (r.mirror K).update lowTs highTs (c.mirror K) = (r.update highTs lowTs c).mirror K := by
  by_cases hhigh : c.timestamp ∈ highTs <;> by_cases hlow : c.timestamp ∈ lowTs <;>
    simp [BosRefs.update, BosRefs.mirror, hhigh, hlow]

/-- Both tests fail or hold alike; on uncrossed references at most one of them holds. -/
theorem event_mirror (hun : ∀ h, r.high = some h → ∀ l, r.low = some l →
      h.timestamp < c.timestamp → l.timestamp < c.timestamp → l.low ≤ h.high) :
    (r.mirror K).event (c.mirror K) = (r.event c).map (BosEvent.mirror K) := by
  unfold BosRefs.event BosRefs.mirror
  cases hh : r.high with
  | none => cases r.low <;> rfl
  | some h =>
      cases hl : r.low with
      | none => rfl
      | some l =>
          simp only [Option.map_some, Candle.mirror, sub_lt_sub_iff_left]
          by_cases hbull : h.timestamp < c.timestamp ∧ h.high < c.close
          · have hbear : ¬ (l.timestamp < c.timestamp ∧ c.close < l.low) := by
              rintro ⟨hlt, hclose⟩
              have := hun h hh l hl hbull.1 hlt
              linarith [hbull.2]
            rw [if_neg hbear, if_pos hbull, if_pos hbull]
            rfl
          · rw [if_neg hbull]
            by_cases hbear : l.timestamp < c.timestamp ∧ c.close < l.low
            · rw [if_pos hbear, if_neg hbull, if_pos hbear]
              rfl
            · rw [if_neg hbear, if_neg hbull, if_neg hbear]
              rfl

theorem RefsAt.event_mirror {e : Option ℤ} (h : RefsAt highTs lowTs e pre r) :
    ((r.mirror K).update lowTs highTs (c.mirror K)).event (c.mirror K) =
      ((r.update highTs lowTs c).event c).map (BosEvent.mirror K) := by
  rw [update_mirror]
  exact SignalEngine.event_mirror fun x hx y hy hxlt hylt => h.uncrossed_earlier hx hy hxlt hylt

/-- The mirrored walk reports the mirrored events and holds the mirrored references. -/
theorem bosWalk_mirror (K : ℚ) (highTs lowTs : List ℤ) (hs : Chronological pre)
    (hohlc : ∀ d ∈ pre, d.OhlcConsistent) :
    bosWalk lowTs highTs {} (pre.map (Candle.mirror K)) =
        (bosWalk highTs lowTs {} pre).map (BosEvent.mirror K) ∧
      bosRefs lowTs highTs {} (pre.map (Candle.mirror K)) =
        (bosRefs highTs lowTs {} pre).mirror K := by
  induction pre using List.reverseRecOn with
  | nil => exact ⟨rfl, rfl⟩
  | append_singleton pre c ih =>
      obtain ⟨hs, -⟩ := chronological_concat.mp hs
      have hohlc' : ∀ d ∈ pre, d.OhlcConsistent := fun d hd => hohlc d (List.mem_append_left _ hd)
      obtain ⟨hwalk, hrefs⟩ := ih hs hohlc'
      have hev := (refsAt_bosWalk highTs lowTs hs hohlc').event_mirror (K := K) (c := c)
      rw [List.map_append, List.map_singleton, bosWalk_concat, bosWalk_concat, bosRefs_concat,
        bosRefs_concat, hwalk, hrefs, hev, List.map_append]
      cases hcase : ((bosRefs highTs lowTs {} pre).update highTs lowTs c).event c with
      | none =>
          rw [hcase] at hev
          exact ⟨rfl, by rw [bosStep_of_none hev, bosStep_of_none hcase, update_mirror]⟩
      | some ev =>
          rw [hcase] at hev
          exact ⟨rfl, by rw [bosStep_of_some hev, bosStep_of_some hcase]; rfl⟩

theorem detectBosEvents_mirror (K : ℚ) (pivotBars : ℕ) (hs : Chronological cs)
    (hohlc : ∀ c ∈ cs, c.OhlcConsistent) :
    detectBosEvents (cs.map (Candle.mirror K)) pivotBars =
      (detectBosEvents cs pivotBars).map (BosEvent.mirror K) := by
  unfold detectBosEvents
  rw [pivotHighTs_mirror, pivotLowTs_mirror]
  exact (bosWalk_mirror K _ _ hs hohlc).1

/-! ## Zones -/

theorem foldl_max_mirror (K a : ℚ) (xs : List ℚ) :
    (xs.map (fun x => K - x)).foldl max (K - a) = K - xs.foldl min a := by
  induction xs generalizing a with
  | nil => rfl
  | cons x xs ih => rw [List.map_cons, List.foldl_cons, List.foldl_cons, max_sub_sub_left, ih]

theorem foldl_min_mirror (K a : ℚ) (xs : List ℚ) :
    (xs.map (fun x => K - x)).foldl min (K - a) = K - xs.foldl max a := by
  induction xs generalizing a with
  | nil => rfl
  | cons x xs ih => rw [List.map_cons, List.foldl_cons, List.foldl_cons, min_sub_sub_left, ih]

theorem max?_mirror (K : ℚ) (xs : List ℚ) :
    (xs.map (fun x => K - x)).max? = xs.min?.map (fun x => K - x) := by
  cases xs with
  | nil => rfl
  | cons x xs => exact congrArg some (foldl_max_mirror K x xs)

theorem min?_mirror (K : ℚ) (xs : List ℚ) :
    (xs.map (fun x => K - x)).min? = xs.max?.map (fun x => K - x) := by
  cases xs with
  | nil => rfl
  | cons x xs => exact congrArg some (foldl_min_mirror K x xs)

theorem takenOut_mirror (K : ℚ) (cs : List Candle) (direction : BosDirection) (swing : Candle)
    (bosTs : ℤ) :
    takenOut (cs.map (Candle.mirror K)) direction.flip (swing.mirror K) bosTs =
      takenOut cs direction swing bosTs := by
  unfold takenOut
  rw [List.any_map]
  cases direction with
  | bullish | bearish =>
      simp only [BosDirection.flip, Candle.mirror, Function.comp_def, sub_lt_sub_iff_left]
      rfl

theorem zoneTpLevel_mirror (K : ℚ) (cs : List Candle) (direction : BosDirection)
    (swing : Candle) (bosTs : ℤ) :
    zoneTpLevel (cs.map (Candle.mirror K)) direction.flip (swing.mirror K) bosTs =
      K - zoneTpLevel cs direction swing bosTs := by
  have hgetD : ∀ (o : Option ℚ) (x : ℚ), (o.map (fun x => K - x)).getD (K - x) = K - o.getD x := by
    intro o x
    cases o <;> rfl
  have hlows : ∀ xs : List Candle, (xs.map (Candle.mirror K)).map Candle.low =
      (xs.map Candle.high).map (fun x => K - x) := by
    intro xs
    rw [List.map_map, List.map_map]
    rfl
  have hhighs : ∀ xs : List Candle, (xs.map (Candle.mirror K)).map Candle.high =
      (xs.map Candle.low).map (fun x => K - x) := by
    intro xs
    rw [List.map_map, List.map_map]
    rfl
  unfold zoneTpLevel
  cases direction with
  | bullish =>
      dsimp only [BosDirection.flip]
      rw [List.filter_map, hlows, min?_mirror]
      simp only [Function.comp_def, Candle.mirror, sub_lt_sub_iff_left, hgetD]
  | bearish =>
      dsimp only [BosDirection.flip]
      rw [List.filter_map, hhighs, max?_mirror]
      simp only [Function.comp_def, Candle.mirror, sub_lt_sub_iff_left, hgetD]

theorem zoneOf_mirror (K : ℚ) (cs : List Candle) (htfIntervalMs : ℤ) (e : BosEvent) :
    zoneOf (cs.map (Candle.mirror K)) htfIntervalMs (e.mirror K) =
      (zoneOf cs htfIntervalMs e).mirror K := by
  unfold zoneOf
  dsimp only [BosEvent.mirror]
  rw [zoneTpLevel_mirror]
  rfl

/-- The same zones are found, reflected, in the same order of events. -/
theorem freshZones_mirror (K : ℚ) (cs : List Candle) (htfIntervalMs : ℤ) (es : List BosEvent)
    (seen : List (BosDirection × ℤ)) :
    freshZones (cs.map (Candle.mirror K)) htfIntervalMs
        (seen.map (Prod.map BosDirection.flip id)) (es.map (BosEvent.mirror K)) =
      (freshZones cs htfIntervalMs seen es).map (HtfRange.mirror K) := by
  have hinj : Function.Injective (Prod.map BosDirection.flip (id : ℤ → ℤ)) :=
    bosDirection_flip_injective.prodMap Function.injective_id
  induction es generalizing seen with
  | nil => rfl
  | cons e es ih =>
      have hkey : ((e.mirror K).direction, (e.mirror K).swingCandle.timestamp) =
          Prod.map BosDirection.flip id (e.direction, e.swingCandle.timestamp) := rfl
      have hout : takenOut (cs.map (Candle.mirror K)) (e.mirror K).direction
          (e.mirror K).swingCandle (e.mirror K).timestamp =
            takenOut cs e.direction e.swingCandle e.timestamp := takenOut_mirror K cs _ _ _
      rw [List.map_cons, freshZones, freshZones, hkey, hout]
      simp only [List.mem_map_of_injective hinj]
      split
      · exact ih seen
      split
      · exact ih (_ :: seen)
      · rw [List.map_cons, zoneOf_mirror]
        exact congrArg _ (ih (_ :: seen))

theorem newestZones_mirror (K : ℚ) (maxZonesPerDir : ℤ) (direction : BosDirection)
    (zones : List HtfRange) :
    newestZones maxZonesPerDir direction.flip (zones.map (HtfRange.mirror K)) =
      (newestZones maxZonesPerDir direction zones).map (HtfRange.mirror K) := by
  have hdir : ∀ z : HtfRange, (z.mirror K).bosDirection = direction.flip ↔
      z.bosDirection = direction := fun z => bosDirection_flip_injective.eq_iff
  unfold newestZones
  rw [List.filter_map]
  simp only [Function.comp_def, hdir]
  rw [← List.map_insertionSort (r := fun a b : HtfRange => b.timestamp ≤ a.timestamp)]
  · unfold sliceTo
    rw [List.length_map, ← List.map_take, ← List.map_take]
    exact (apply_ite _ _ _ _).symm
  · exact fun a _ b _ => Iff.rfl

/-- The zones of one direction, in the order they are returned. -/
def zonesOf (direction : BosDirection) (zones : List HtfRange) : List HtfRange :=
  zones.filter fun z => decide (z.bosDirection = direction)

theorem zonesOf_append (direction : BosDirection) (xs ys : List HtfRange) :
    zonesOf direction (xs ++ ys) = zonesOf direction xs ++ zonesOf direction ys :=
  List.filter_append xs ys

theorem zonesOf_newestZones (maxZonesPerDir : ℤ) (direction : BosDirection)
    (zones : List HtfRange) :
    zonesOf direction (newestZones maxZonesPerDir direction zones) =
      newestZones maxZonesPerDir direction zones :=
  List.filter_eq_self.mpr fun _ hz => decide_eq_true (newestZones_direction hz)

theorem zonesOf_newestZones_other {direction other : BosDirection} (hne : direction ≠ other)
    (maxZonesPerDir : ℤ) (zones : List HtfRange) :
    zonesOf other (newestZones maxZonesPerDir direction zones) = [] := by
  refine List.filter_eq_nil_iff.mpr fun z hz => ?_
  rw [newestZones_direction hz, decide_eq_true_iff]
  exact hne

/-- The zones reflected, with the bullish and the bearish block exchanged. -/
theorem findHtfRanges_mirror (K : ℚ) (pivotBars : ℕ) (htfIntervalMs maxZonesPerDir : ℤ)
    (hs : Chronological cs) (hohlc : ∀ c ∈ cs, c.OhlcConsistent) :
    findHtfRanges (cs.map (Candle.mirror K)) pivotBars htfIntervalMs maxZonesPerDir =
      (zonesOf .bullish (findHtfRanges cs pivotBars htfIntervalMs maxZonesPerDir) ++
        zonesOf .bearish (findHtfRanges cs pivotBars htfIntervalMs maxZonesPerDir)).map
          (HtfRange.mirror K) := by
  have hzones := freshZones_mirror K cs htfIntervalMs (detectBosEvents cs pivotBars) []
  rw [← detectBosEvents_mirror K pivotBars hs hohlc] at hzones
  unfold findHtfRanges
  rw [List.length_map]
  split
  · rfl
  · dsimp only
    rw [List.map_nil] at hzones
    rw [hzones]
    generalize freshZones cs htfIntervalMs [] (detectBosEvents cs pivotBars) = zones
    have hbull : zonesOf .bullish (newestZones maxZonesPerDir .bearish zones ++
        newestZones maxZonesPerDir .bullish zones) = newestZones maxZonesPerDir .bullish zones := by
      rw [zonesOf_append, zonesOf_newestZones_other (by decide), List.nil_append,
        zonesOf_newestZones]
    have hbear : zonesOf .bearish (newestZones maxZonesPerDir .bearish zones ++
        newestZones maxZonesPerDir .bullish zones) = newestZones maxZonesPerDir .bearish zones := by
      rw [zonesOf_append, zonesOf_newestZones,
        zonesOf_newestZones_other (by decide : BosDirection.bullish ≠ .bearish), List.append_nil]
    rw [hbull, hbear, List.map_append, ← newestZones_mirror, ← newestZones_mirror]
    rfl

/-! ## CRT triggers -/

/-- The reflected candle with the score it had. -/
def mirrorEntry (K : ℚ) (r : RejectionCandle × RejectionScore) :
    RejectionCandle × RejectionScore := (r.1.mirror K, r.2)

theorem mirrorEntry_comp_self (K : ℚ) : mirrorEntry K ∘ mirrorEntry K = id := by
  funext ⟨r, score⟩
  simp only [mirrorEntry, RejectionCandle.mirror, Function.comp_apply, sub_sub_cancel,
    candlePattern_flip_flip, id]

theorem insideHtf_mirror (K : ℚ) (c : Candle) (z : HtfRange) :
    insideHtf (c.mirror K) (z.mirror K) = insideHtf c z := by
  unfold insideHtf Candle.mirror HtfRange.mirror
  simp only [sub_le_sub_iff_left, and_comm]

theorem crtSell_mirror (K : ℚ) (c : Candle) (level : ℚ) :
    crtSell (c.mirror K) (K - level) = (crtBuy c level).map (mirrorEntry K) := by
  have hwick : K - c.low - max (K - c.openPrice) (K - c.close) =
      min c.openPrice c.close - c.low := by
    rw [max_sub_sub_left]
    ring
  have hsize : K - c.low - (K - level) = level - c.low := by ring
  have hclose : K - level - (K - c.close) = c.close - level := by ring
  unfold crtSell crtBuy
  simp only [mirror_totalRange]
  simp only [Candle.mirror, sub_le_sub_iff_left, hwick, hsize, hclose]
  split
  · rfl
  split
  · rfl
  split
  · rfl
  · rfl

/-- The other way round, since the reflection undoes itself. -/
theorem crtBuy_mirror (K : ℚ) (c : Candle) (level : ℚ) :
    crtBuy (c.mirror K) (K - level) = (crtSell c level).map (mirrorEntry K) := by
  have hsell := crtSell_mirror K (c.mirror K) (K - level)
  rw [candle_mirror_mirror, sub_sub_cancel] at hsell
  rw [hsell, Option.map_map, mirrorEntry_comp_self, Option.map_id_fun, id]

theorem crtCheck_mirror (K : ℚ) (c prev : Candle) (direction : SignalDirection)
    (z : Option HtfRange) :
    crtCheck (c.mirror K) (prev.mirror K) direction.flip (z.map (HtfRange.mirror K)) =
      (crtCheck c prev direction z).map (mirrorEntry K) := by
  have hinside : (z.map (HtfRange.mirror K)).any (fun z => !insideHtf (c.mirror K) z) =
      z.any (fun z => !insideHtf c z) := by
    cases z with
    | none => rfl
    | some z => exact congrArg not (insideHtf_mirror K c z)
  unfold crtCheck
  rw [hinside]
  split
  · rfl
  · cases direction with
    | long => exact crtSell_mirror K c prev.low
    | short => exact crtBuy_mirror K c prev.high

theorem scanBack_mirror (K : ℚ) (direction : SignalDirection) (z : Option HtfRange)
    (cs : List Candle) :
    scanBack direction.flip (z.map (HtfRange.mirror K)) (cs.map (Candle.mirror K)) =
      (scanBack direction z cs).map (mirrorEntry K) := by
  induction cs with
  | nil => rfl
  | cons c cs ih =>
      cases cs with
      | nil => rfl
      | cons prev older =>
          rw [List.map_cons, List.map_cons, scanBack, scanBack, crtCheck_mirror]
          cases crtCheck c prev direction z with
          | some r => rfl
          | none => exact ih

theorem findMostRecent_mirror (K : ℚ) (direction : SignalDirection) (z : Option HtfRange)
    (cs : List Candle) :
    findMostRecent (cs.map (Candle.mirror K)) direction.flip (z.map (HtfRange.mirror K)) =
      (findMostRecent cs direction z).map (mirrorEntry K) := by
  rw [findMostRecent, ← List.map_reverse, scanBack_mirror]
  rfl

/-- **Mirror symmetry of detection.** On OHLC-consistent candles with strictly increasing
    timestamps the reflected list has the reflected events, the reflected zones with the two
    blocks exchanged, and the reflected trigger for the opposite direction. -/
theorem mirror_detection (K : ℚ) (cs : List Candle) (pivotBars : ℕ) (hs : Chronological cs)
    (hohlc : ∀ c ∈ cs, c.OhlcConsistent) :
    detectBosEvents (cs.map (Candle.mirror K)) pivotBars =
        (detectBosEvents cs pivotBars).map (BosEvent.mirror K) ∧
      (∀ htfIntervalMs maxZonesPerDir,
        findHtfRanges (cs.map (Candle.mirror K)) pivotBars htfIntervalMs maxZonesPerDir =
          (zonesOf .bullish (findHtfRanges cs pivotBars htfIntervalMs maxZonesPerDir) ++
            zonesOf .bearish (findHtfRanges cs pivotBars htfIntervalMs maxZonesPerDir)).map
              (HtfRange.mirror K)) ∧
      ∀ direction z, findMostRecent (cs.map (Candle.mirror K)) direction.flip
          (z.map (HtfRange.mirror K)) = (findMostRecent cs direction z).map (mirrorEntry K) :=
  ⟨detectBosEvents_mirror K pivotBars hs hohlc,
    fun ms n => findHtfRanges_mirror K pivotBars ms n hs hohlc,
    fun direction z => findMostRecent_mirror K direction z cs⟩

/-- The breakout list and its reflection at 10. -/
theorem mirror_breakout :
    (detectBosEvents (breakout.map (Candle.mirror 20)) 1).map BosEvent.direction = [.bearish] := by
  rw [(mirror_detection 20 breakout 1 (by unfold Chronological; decide +kernel)
    (by decide +kernel)).1]
  decide +kernel

end SignalEngine
