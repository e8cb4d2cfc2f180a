/-
  Untested: which zones of `find_htf_ranges` are what its docstring promises, "fresh, untested",
  and which of them have a target beyond the zone.

  A zone is taken out by a close through its far side after the break. Between the swing candle
  and the break no such close is looked for. Mostly none can be there, since it would itself be
  a break and reset the references; but a break needs a pivot of the other kind, and where every
  such pivot has been spent by an earlier break the close goes unseen (`Overlooked`).

  The target of a zone is the extreme reached beyond it after the break. Where no candle after
  the break leaves the zone, it falls back on the edge of the zone.

  Proved: a call returns the zones of the events that are not taken out and within its cap
  (`mem_findHtfRanges_iff`), so over all caps those of the events not taken out (`zones_iff`).
  They are untested exactly if no overlooked candle closes through (`zones_untested_iff`,
  `cappedZones_untested_iff` for one call), and their targets lie beyond exactly if the market has
  left each of them after its break (`targets_beyond_iff`, `cappedZones_aimBeyond_iff`).
-/
import SignalEngine.Domain.BosEvents
import SignalEngine.Domain.Geometry

namespace SignalEngine

variable {cs : List Candle} {pivotBars : ℕ} {c d : Candle} {e : Option ℤ} {ev : BosEvent}
  {pivots : List Candle} {events : List BosEvent}

/-! ## The zones of a candle list -/

/-- A pivot has neighbours on both sides. -/
theorem three_le_length {beats : Candle → Candle → Bool} (hpivot : 1 ≤ pivotBars)
    (h : c ∈ findPivots beats cs pivotBars pivotBars) : 3 ≤ cs.length := by
  obtain ⟨i, hleft, hright, -, -⟩ := mem_findPivots.mp h
  omega

theorem exists_previousEvent (hs : events.Pairwise Forward) (c : Candle) :
    ∃ e, PreviousEvent events c e := by
  have hbefore : ∀ ev, ev ∈ events.filter (fun ev => decide (ev.timestamp < c.timestamp)) ↔
      ev ∈ events ∧ ev.timestamp < c.timestamp := by simp
  have hsorted := hs.sublist (List.filter_sublist (p := fun ev =>
    decide (ev.timestamp < c.timestamp)))
  refine ⟨lastEventTime (events.filter fun ev => decide (ev.timestamp < c.timestamp)), ?_⟩
  cases hlast : lastEventTime (events.filter fun ev => decide (ev.timestamp < c.timestamp)) with
  | none =>
      intro ev hev
      by_contra hlt
      obtain ⟨t, ht, -⟩ := le_lastEventTime (fun _ _ h => h.1) hsorted
        ((hbefore ev).mpr ⟨hev, not_le.mp hlt⟩)
      rw [hlast] at ht
      cases ht
  | some t =>
      obtain ⟨last, hmem, rfl⟩ := lastEventTime_mem hlast
      obtain ⟨hall, hlt⟩ := (hbefore last).mp hmem
      refine ⟨⟨last, hall, rfl⟩, hlt, fun ev hev hevlt => ?_⟩
      obtain ⟨t, ht, hle⟩ := le_lastEventTime (fun _ _ h => h.1) hsorted
        ((hbefore ev).mpr ⟨hev, hevlt⟩)
      rw [hlast] at ht
      cases ht
      exact hle

/-- What an event of the list is: a bullish or a bearish break at one of its candles. -/
theorem event_cases (hs : Chronological cs) (hohlc : ∀ c ∈ cs, c.OhlcConsistent)
    (hev : ev ∈ detectBosEvents cs pivotBars) :
    ∃ c ∈ cs, ev.timestamp = c.timestamp ∧ ∃ e, PreviousEvent (detectBosEvents cs pivotBars) c e ∧
      ((ev.direction = .bullish ∧
        BullishAt (findPivotHighs cs pivotBars pivotBars) (findPivotLows cs pivotBars pivotBars)
          e c ev.brokenLevel ev.swingCandle) ∨
      (ev.direction = .bearish ∧
        BearishAt (findPivotHighs cs pivotBars pivotBars) (findPivotLows cs pivotBars pivotBars)
          e c ev.brokenLevel ev.swingCandle)) := by
  obtain ⟨c, hc, hts⟩ := bosWalk_timestamp hev
  obtain ⟨e, he⟩ := exists_previousEvent (detectBosEvents_forward pivotBars hs hohlc) c
  obtain ⟨hbull, hbear⟩ := mem_detectBosEvents_iff pivotBars hs hohlc hc he ev.brokenLevel
    ev.swingCandle
  refine ⟨c, hc, hts, e, he, ?_⟩
  obtain ⟨ts, direction, level, swing⟩ := ev
  dsimp only at hts hbull hbear ⊢
  subst hts
  cases direction with
  | bullish => exact Or.inl ⟨rfl, hbull.mp hev⟩
  | bearish => exact Or.inr ⟨rfl, hbear.mp hev⟩

/-! ## The zones within a cap -/

section Cap

variable {α : Type} {f : α → ℤ} {x : α} {xs : List α}

/-- In a list from the latest on, the first `n` are those with fewer than `n` later ones. -/
theorem mem_take_iff_countP (h : xs.Pairwise fun a b => f b < f a) (hx : x ∈ xs) (n : ℕ) :
    x ∈ xs.take n ↔ xs.countP (fun y => decide (f x < f y)) < n := by
  induction xs generalizing n with
  | nil => cases hx
  | cons a xs ih =>
      obtain ⟨ha, hxs⟩ := List.pairwise_cons.mp h
      cases n with
      | zero => simp
      | succ n =>
          rw [List.take_succ_cons, List.mem_cons, List.countP_cons]
          rcases List.mem_cons.mp hx with rfl | hx
          · have hnone : xs.countP (fun y => decide (f x < f y)) = 0 :=
              List.countP_eq_zero.mpr fun y hy => by simpa using (ha y hy).le
            simp [hnone]
          · have hlt := ha x hx
            have hne : x ≠ a := fun heq => hlt.ne (congrArg f heq)
            rw [or_iff_right hne, ih hxs hx, if_pos (decide_eq_true hlt)]
            omega

theorem mem_sliceTo_iff_countP (h : xs.Pairwise fun a b => f b < f a) (hx : x ∈ xs) (n : ℤ) :
    x ∈ sliceTo n xs ↔ (xs.countP (fun y => decide (f x < f y)) : ℤ) <
      if 0 ≤ n then n else xs.length + n := by
  unfold sliceTo
  split
  · rw [mem_take_iff_countP h hx]
    omega
  · rw [mem_take_iff_countP h hx]
    omega

end Cap

/-- The events of a direction whose zones are not taken out. -/
def zoneEvents (cs : List Candle) (pivotBars : ℕ) (direction : BosDirection) : List BosEvent :=
  (detectBosEvents cs pivotBars).filter fun ev =>
    decide (ev.direction = direction) && !takenOut cs ev.direction ev.swingCandle ev.timestamp

/-- Fewer zones of the event's direction than the cap have a later swing; a cap below zero is
    counted from the end, as a slice does. -/
def WithinCap (cs : List Candle) (pivotBars : ℕ) (maxZonesPerDir : ℤ) (ev : BosEvent) : Prop :=
  ((zoneEvents cs pivotBars ev.direction).countP fun e =>
      decide (ev.swingCandle.timestamp < e.swingCandle.timestamp) : ℤ) <
    if 0 ≤ maxZonesPerDir then maxZonesPerDir
    else (zoneEvents cs pivotBars ev.direction).length + maxZonesPerDir

theorem zones_of_direction (htfIntervalMs : ℤ) (direction : BosDirection) :
    (unguardedZones cs htfIntervalMs (detectBosEvents cs pivotBars)).filter
      (fun z => decide (z.bosDirection = direction)) =
      (zoneEvents cs pivotBars direction).map (zoneOf cs htfIntervalMs) := by
  unfold unguardedZones zoneEvents
  rw [List.filter_map, List.filter_filter]
  rfl

theorem mem_newestZones_iff (hs : Chronological cs) (hohlc : ∀ c ∈ cs, c.OhlcConsistent)
    (htfIntervalMs maxZonesPerDir : ℤ) (hev : ev ∈ zoneEvents cs pivotBars ev.direction) :
    zoneOf cs htfIntervalMs ev ∈ newestZones maxZonesPerDir ev.direction
        (unguardedZones cs htfIntervalMs (detectBosEvents cs pivotBars)) ↔
      WithinCap cs pivotBars maxZonesPerDir ev := by
  unfold newestZones
  rw [zones_of_direction]
  set zones := (zoneEvents cs pivotBars ev.direction).map (zoneOf cs htfIntervalMs) with hzones
  have hperm := List.perm_insertionSort
    (fun a b : HtfRange => b.timestamp ≤ a.timestamp) zones
  have hdistinct : zones.Pairwise fun a b => a.timestamp ≠ b.timestamp :=
    List.pairwise_map.mpr
      ((detectBosEvents_distinct pivotBars hs hohlc).sublist List.filter_sublist)
  have hlater : (zones.insertionSort fun a b => b.timestamp ≤ a.timestamp).Pairwise
      fun a b => b.timestamp < a.timestamp :=
    ((List.pairwise_insertionSort _ zones).and
      (hdistinct.perm hperm.symm fun h => h.symm)).imp fun h => lt_of_le_of_ne h.1 h.2.symm
  have hmem : zoneOf cs htfIntervalMs ev ∈
      zones.insertionSort fun a b => b.timestamp ≤ a.timestamp :=
    (List.mem_insertionSort _).mpr (List.mem_map_of_mem hev)
  rw [mem_sliceTo_iff_countP hlater hmem, hperm.countP_eq, List.length_insertionSort, hzones,
    List.countP_map, List.length_map]
  rfl

theorem mem_zoneEvents {direction : BosDirection} :
    ev ∈ zoneEvents cs pivotBars direction ↔ ev ∈ detectBosEvents cs pivotBars ∧
      ev.direction = direction ∧ takenOut cs ev.direction ev.swingCandle ev.timestamp = false := by
  simp [zoneEvents]

/-- A call returns the zones of the events that are not taken out and within its cap. -/
theorem mem_findHtfRanges_iff (hpivot : 1 ≤ pivotBars) (hs : Chronological cs)
    (hohlc : ∀ c ∈ cs, c.OhlcConsistent) {htfIntervalMs maxZonesPerDir : ℤ} {z : HtfRange} :
    z ∈ findHtfRanges cs pivotBars htfIntervalMs maxZonesPerDir ↔
      ∃ ev ∈ detectBosEvents cs pivotBars,
        takenOut cs ev.direction ev.swingCandle ev.timestamp = false ∧
        WithinCap cs pivotBars maxZonesPerDir ev ∧ zoneOf cs htfIntervalMs ev = z := by
  have hfresh : freshZones cs htfIntervalMs [] (detectBosEvents cs pivotBars) =
      unguardedZones cs htfIntervalMs (detectBosEvents cs pivotBars) :=
    freshZones_eq_unguarded (detectBosEvents_distinct pivotBars hs hohlc)
      fun _ _ => List.not_mem_nil
  have hnewest : ∀ direction, z ∈ newestZones maxZonesPerDir direction
      (unguardedZones cs htfIntervalMs (detectBosEvents cs pivotBars)) →
      ∃ ev ∈ detectBosEvents cs pivotBars,
        takenOut cs ev.direction ev.swingCandle ev.timestamp = false ∧
        WithinCap cs pivotBars maxZonesPerDir ev ∧ zoneOf cs htfIntervalMs ev = z := by
    intro direction hz
    have hmem : z ∈ (zoneEvents cs pivotBars direction).map (zoneOf cs htfIntervalMs) := by
      rw [← zones_of_direction, List.mem_filter]
      exact ⟨mem_newestZones hz, decide_eq_true (newestZones_direction hz)⟩
    obtain ⟨ev, hev, rfl⟩ := List.mem_map.mp hmem
    obtain ⟨hall, rfl, hfree⟩ := mem_zoneEvents.mp hev
    exact ⟨ev, hall, hfree, (mem_newestZones_iff hs hohlc _ _ hev).mp hz, rfl⟩
  unfold findHtfRanges
  rw [hfresh]
  constructor
  · intro hz
    split at hz
    · cases hz
    · exact (List.mem_append.mp hz).elim (hnewest _) (hnewest _)
  · rintro ⟨ev, hev, hfree, hcap, rfl⟩
    have hlen : ¬ cs.length < 3 := by
      obtain ⟨c, -, -, e, -, ⟨-, x, hx, -⟩ | ⟨-, x, hx, -⟩⟩ := event_cases hs hohlc hev
      · exact not_lt.mpr (three_le_length hpivot hx.mem)
      · exact not_lt.mpr (three_le_length hpivot hx.mem)
    rw [if_neg hlen, List.mem_append]
    have hnew := (mem_newestZones_iff hs hohlc htfIntervalMs maxZonesPerDir
      (mem_zoneEvents.mpr ⟨hev, rfl, hfree⟩)).mpr hcap
    cases hdir : ev.direction with
    | bearish => exact Or.inl (hdir ▸ hnew)
    | bullish => exact Or.inr (hdir ▸ hnew)

/-- Every zone is within some cap. -/
theorem exists_withinCap (cs : List Candle) (pivotBars : ℕ) (ev : BosEvent) :
    ∃ maxZonesPerDir, WithinCap cs pivotBars maxZonesPerDir ev := by
  refine ⟨(zoneEvents cs pivotBars ev.direction).length + 1, ?_⟩
  have hle := List.countP_le_length (l := zoneEvents cs pivotBars ev.direction)
    (p := fun e => decide (ev.swingCandle.timestamp < e.swingCandle.timestamp))
  unfold WithinCap
  rw [if_pos (by omega)]
  omega

/-- The zones over all caps are those of the events not taken out. -/
theorem zones_iff (hpivot : 1 ≤ pivotBars) (hs : Chronological cs)
    (hohlc : ∀ c ∈ cs, c.OhlcConsistent) (P : HtfRange → Prop) :
    (∀ htfIntervalMs maxZonesPerDir,
      ∀ z ∈ findHtfRanges cs pivotBars htfIntervalMs maxZonesPerDir, P z) ↔
    ∀ ev ∈ detectBosEvents cs pivotBars,
      takenOut cs ev.direction ev.swingCandle ev.timestamp = false →
      ∀ htfIntervalMs, P (zoneOf cs htfIntervalMs ev) := by
  constructor
  · intro h ev hev hfree ms
    obtain ⟨n, hcap⟩ := exists_withinCap cs pivotBars ev
    exact h ms n _ ((mem_findHtfRanges_iff hpivot hs hohlc).mpr ⟨ev, hev, hfree, hcap, rfl⟩)
  · intro h ms n z hz
    obtain ⟨ev, hev, hfree, -, rfl⟩ := (mem_findHtfRanges_iff hpivot hs hohlc).mp hz
    exact h ev hev hfree ms

/-! ## Closes between the swing and the break -/

/-- The candle closes through the far side of the swing candle's range. -/
def closesBeyond (direction : BosDirection) (swing c : Candle) : Bool :=
  match direction with
  | .bearish => decide (swing.high < c.close)
  | .bullish => decide (c.close < swing.low)

/-- No candle after the swing closes through the far side of the zone. -/
def HtfRange.Untested (cs : List Candle) (z : HtfRange) : Prop :=
  ∀ c ∈ cs, z.timestamp < c.timestamp →
    match z.bosDirection with
    | .bearish => c.close ≤ z.rangeHigh
    | .bullish => z.rangeLow ≤ c.close

/-- The pivots whose break makes an event of the direction. -/
def brokenPivots (cs : List Candle) (pivotBars : ℕ) (direction : BosDirection) : List Candle :=
  match direction with
  | .bearish => findPivotLows cs pivotBars pivotBars
  | .bullish => findPivotHighs cs pivotBars pivotBars

/-- A candle between the swing of an event and its break at which no pivot is left to break:
    all of them up to the candle have been spent by earlier events. -/
structure Overlooked (cs : List Candle) (pivotBars : ℕ) (ev : BosEvent) (d : Candle) : Prop where
  swing_lt : ev.swingCandle.timestamp < d.timestamp
  lt_break : d.timestamp < ev.timestamp
  spent : ∀ x ∈ brokenPivots cs pivotBars ev.direction, x.timestamp ≤ d.timestamp →
    ∃ ev' ∈ detectBosEvents cs pivotBars, ev'.timestamp < ev.timestamp ∧
      x.timestamp ≤ ev'.timestamp

theorem takenOut_eq_false : takenOut cs ev.direction ev.swingCandle ev.timestamp = false ↔
    ∀ c ∈ cs, ev.timestamp < c.timestamp → closesBeyond ev.direction ev.swingCandle c = false := by
  unfold takenOut closesBeyond
  cases ev.direction <;> simp

theorem untested_zoneOf (htfIntervalMs : ℤ) : (zoneOf cs htfIntervalMs ev).Untested cs ↔
    ∀ c ∈ cs, ev.swingCandle.timestamp < c.timestamp →
      closesBeyond ev.direction ev.swingCandle c = false := by
  unfold HtfRange.Untested closesBeyond zoneOf
  cases ev.direction <;> simp

/-- The latest pivot up to `c` is the latest one up to a candle between it and `c`. -/
theorem LatestPivot.restrict (h : LatestPivot pivots e c d) {d' : Candle}
    (hle : d.timestamp ≤ d'.timestamp) (hlt : d'.timestamp ≤ c.timestamp) :
    LatestPivot pivots e d' d :=
  ⟨h.mem, h.after, hle, fun x hx hxe hxd => h.latest x hx hxe (hxd.trans hlt)⟩

theorem exists_latestPivot {x : Candle} (hx : x ∈ pivots) (hafter : After e x.timestamp)
    (hle : x.timestamp ≤ d.timestamp) : ∃ y, LatestPivot pivots e d y := by
  classical
  let late := pivots.toFinset.filter fun y => After e y.timestamp ∧ y.timestamp ≤ d.timestamp
  have hmem : ∀ y, y ∈ late ↔ y ∈ pivots ∧ After e y.timestamp ∧ y.timestamp ≤ d.timestamp := by
    simp [late]
  obtain ⟨y, hy, hmax⟩ := late.exists_max_image Candle.timestamp ⟨x, (hmem x).mpr ⟨hx, hafter, hle⟩⟩
  obtain ⟨hyp, hye, hyd⟩ := (hmem y).mp hy
  exact ⟨y, hyp, hye, hyd, fun z hz hze hzd => hmax z ((hmem z).mpr ⟨hz, hze, hzd⟩)⟩

/-- Between an event and the next one the previous event stays the same. -/
theorem PreviousEvent.restrict (h : PreviousEvent events c e) (hafter : After e d.timestamp)
    (hle : d.timestamp ≤ c.timestamp) : PreviousEvent events d e := by
  cases e with
  | none => exact fun ev hev => hle.trans (h ev hev)
  | some t =>
      exact ⟨h.1, hafter t rfl, fun ev hev hlt => h.2.2 ev hev (hlt.trans_le hle)⟩

/-- No event lies between the previous event of `c` and `c`. -/
theorem PreviousEvent.not_between (h : PreviousEvent events c e) (hev : ev ∈ events)
    (hafter : After e ev.timestamp) : c.timestamp ≤ ev.timestamp := by
  cases e with
  | none => exact h ev hev
  | some t =>
      by_contra hlt
      exact absurd (hafter t rfl) (not_lt.mpr (h.2.2 ev hev (not_le.mp hlt)))

/-- A break leaves the swing candle on its own side. -/
theorem not_closesBeyond_at_break (hs : Chronological cs) (hohlc : ∀ c ∈ cs, c.OhlcConsistent)
    (hc : c ∈ cs) (hev : ev ∈ detectBosEvents cs pivotBars) (hts : ev.timestamp = c.timestamp)
    (hswing : ev.swingCandle.timestamp < c.timestamp) :
    closesBeyond ev.direction ev.swingCandle c = false := by
  obtain ⟨e, he⟩ := exists_previousEvent (detectBosEvents_forward pivotBars hs hohlc) c
  obtain ⟨pre, post, r, hcs, hconcat, hrefs, hmem⟩ := exists_refsAt pivotBars hs hohlc hc he
  have hevent := (hmem ev hts).mp hev
  obtain ⟨ts, direction, level, swing⟩ := ev
  dsimp only at hts hswing hevent ⊢
  subst hts
  cases direction with
  | bullish =>
      obtain ⟨x, hx, hl, hxlt, hclose, -⟩ := event_bullish_iff.mp hevent
      have := hrefs.uncrossed_earlier hx hl hxlt hswing
      simp only [closesBeyond, decide_eq_false_iff_not, not_lt]
      linarith
  | bearish =>
      obtain ⟨y, hy, hh, hylt, hclose, -⟩ := (event_bearish_iff fun x hx l hl hxlt hllt =>
        hrefs.uncrossed_earlier hx hl hxlt hllt).mp hevent
      have := hrefs.uncrossed_earlier hh hy hswing hylt
      simp only [closesBeyond, decide_eq_false_iff_not, not_lt]
      linarith

/-- A close through the swing before the break is a candle the detection overlooks: with a pivot
    left to break it would have been the break. -/
theorem overlooked_of_closesBeyond (hs : Chronological cs) (hohlc : ∀ c ∈ cs, c.OhlcConsistent)
    (hev : ev ∈ detectBosEvents cs pivotBars) (hd : d ∈ cs)
    (hswing : ev.swingCandle.timestamp < d.timestamp) (hbreak : d.timestamp < ev.timestamp)
    (hclose : closesBeyond ev.direction ev.swingCandle d = true) :
    Overlooked cs pivotBars ev d := by
  obtain ⟨c, hc, hts, e, he, hcase⟩ := event_cases hs hohlc hev
  rw [hts] at hbreak
  have hswing_after : After e ev.swingCandle.timestamp := by
    rcases hcase with ⟨-, -, -, hlatest, -⟩ | ⟨-, -, -, hlatest, -⟩ <;> exact hlatest.after
  have hd_after : After e d.timestamp := fun t ht => (hswing_after t ht).trans hswing
  have hdprev := he.restrict hd_after hbreak.le
  -- an event at `d` would come after the previous event of `c` and before `c`
  have hnone : ∀ direction level swing,
      ⟨d.timestamp, direction, level, swing⟩ ∉ detectBosEvents cs pivotBars :=
    fun direction level swing hmem =>
      absurd (he.not_between hmem hd_after) (not_le.mpr hbreak)
  refine ⟨hswing, hts ▸ hbreak, fun x hx hxd => ?_⟩
  by_contra hunspent
  have hx_after : After e x.timestamp := by
    intro t ht
    subst ht
    obtain ⟨ev', hev', rfl⟩ := he.1
    by_contra hle
    exact hunspent ⟨ev', hev', hts ▸ he.2.1, not_lt.mp hle⟩
  rcases hcase with ⟨hdir, h, -, hl, -⟩ | ⟨hdir, l, -, hh, -⟩
  · rw [hdir] at hx hclose
    obtain ⟨y, hy⟩ := exists_latestPivot hx hx_after hxd
    exact hnone .bearish ev.swingCandle.low y
      ((mem_detectBosEvents_iff pivotBars hs hohlc hd hdprev _ _).2.mpr
        ⟨ev.swingCandle, hl.restrict hswing.le hbreak.le, hy, hswing, of_decide_eq_true hclose,
          rfl⟩)
  · rw [hdir] at hx hclose
    obtain ⟨y, hy⟩ := exists_latestPivot hx hx_after hxd
    exact hnone .bullish ev.swingCandle.high y
      ((mem_detectBosEvents_iff pivotBars hs hohlc hd hdprev _ _).1.mpr
        ⟨ev.swingCandle, hh.restrict hswing.le hbreak.le, hy, hswing, of_decide_eq_true hclose,
          rfl⟩)

/-- The zone of an event that is not taken out is untested if no overlooked candle closes through
    it. -/
theorem zoneOf_untested_iff (hs : Chronological cs) (hohlc : ∀ c ∈ cs, c.OhlcConsistent)
    (hev : ev ∈ detectBosEvents cs pivotBars)
    (hfree : takenOut cs ev.direction ev.swingCandle ev.timestamp = false) (htfIntervalMs : ℤ) :
    (zoneOf cs htfIntervalMs ev).Untested cs ↔
      ∀ d ∈ cs, Overlooked cs pivotBars ev d →
        closesBeyond ev.direction ev.swingCandle d = false := by
  rw [untested_zoneOf]
  constructor
  · exact fun h d hd hover => h d hd hover.swing_lt
  · intro h d hd hswing
    rcases lt_trichotomy d.timestamp ev.timestamp with hlt | heq | hgt
    · by_contra hclose
      have hover := overlooked_of_closesBeyond hs hohlc hev hd hswing hlt
        (Bool.eq_true_of_not_eq_false hclose)
      exact hclose (h d hd hover)
    · exact not_closesBeyond_at_break hs hohlc hd hev heq.symm hswing
    · exact takenOut_eq_false.mp hfree d hd hgt

/-- **Untested zones.** On OHLC-consistent candles with strictly increasing timestamps the zones
    are untested since their swings exactly if no overlooked candle closes through a zone that
    is not taken out after its break. -/
theorem zones_untested_iff (cs : List Candle) (pivotBars : ℕ) (hpivot : 1 ≤ pivotBars)
    (hs : Chronological cs) (hohlc : ∀ c ∈ cs, c.OhlcConsistent) :
    (∀ htfIntervalMs maxZonesPerDir,
      ∀ z ∈ findHtfRanges cs pivotBars htfIntervalMs maxZonesPerDir, z.Untested cs) ↔
    ∀ ev ∈ detectBosEvents cs pivotBars,
      takenOut cs ev.direction ev.swingCandle ev.timestamp = false →
      ∀ d ∈ cs, Overlooked cs pivotBars ev d →
        closesBeyond ev.direction ev.swingCandle d = false := by
  rw [zones_iff hpivot hs hohlc fun z => z.Untested cs]
  constructor
  · exact fun h ev hev hfree => (zoneOf_untested_iff hs hohlc hev hfree 0).mp (h ev hev hfree 0)
  · exact fun h ev hev hfree ms =>
      (zoneOf_untested_iff hs hohlc hev hfree ms).mpr (h ev hev hfree)

/-- The same for one call: the events are those within its cap. -/
theorem cappedZones_untested_iff (cs : List Candle) (pivotBars : ℕ) (hpivot : 1 ≤ pivotBars)
    (hs : Chronological cs) (hohlc : ∀ c ∈ cs, c.OhlcConsistent)
    (htfIntervalMs maxZonesPerDir : ℤ) :
    (∀ z ∈ findHtfRanges cs pivotBars htfIntervalMs maxZonesPerDir, z.Untested cs) ↔
    ∀ ev ∈ detectBosEvents cs pivotBars,
      takenOut cs ev.direction ev.swingCandle ev.timestamp = false →
      WithinCap cs pivotBars maxZonesPerDir ev →
      ∀ d ∈ cs, Overlooked cs pivotBars ev d →
        closesBeyond ev.direction ev.swingCandle d = false := by
  constructor
  · intro h ev hev hfree hcap
    exact (zoneOf_untested_iff hs hohlc hev hfree htfIntervalMs).mp
      (h _ ((mem_findHtfRanges_iff hpivot hs hohlc).mpr ⟨ev, hev, hfree, hcap, rfl⟩))
  · intro h z hz
    obtain ⟨ev, hev, hfree, hcap, rfl⟩ := (mem_findHtfRanges_iff hpivot hs hohlc).mp hz
    exact (zoneOf_untested_iff hs hohlc hev hfree htfIntervalMs).mpr (h ev hev hfree hcap)

/-- A high, a candle that closes above it before any low has formed, a low, and a last candle
    that closes below the low. -/
def unseenClose : List Candle :=
  [⟨0, 6, 10, 5, 8, 0⟩, ⟨1, 8, 12, 6, 9, 0⟩, ⟨2, 9, 11, 7, 10, 0⟩, ⟨3, 10, 14, 8, 13, 0⟩,
    ⟨4, 13, 14, 7, 8, 0⟩, ⟨5, 8, 13, 4, 6, 0⟩, ⟨6, 6, 12, 5, 7, 0⟩, ⟨7, 7, 11, 2, 3, 0⟩]

/-- The zone of the high is returned although a close has gone above it. -/
theorem unseenClose_tested :
    ¬ ∀ (cs : List Candle) (pivotBars : ℕ) (htfIntervalMs maxZonesPerDir : ℤ), 1 ≤ pivotBars →
      Chronological cs → (∀ c ∈ cs, c.OhlcConsistent) →
      ∀ z ∈ findHtfRanges cs pivotBars htfIntervalMs maxZonesPerDir, z.Untested cs := by
  intro h
  have hzone : findHtfRanges unseenClose 1 3600000 3 =
      [⟨12, 6, .bearish, 1, 7, 6, 1, 3600001⟩] := by decide +kernel
  have huntested := h unseenClose 1 3600000 3 le_rfl (by unfold Chronological; decide +kernel)
    (by decide +kernel) _ (by rw [hzone]; exact List.mem_cons_self) ⟨3, 10, 14, 8, 13, 0⟩
    (by decide +kernel) (by norm_num)
  norm_num at huntested

/-- The breakout list has a zone, and every close after its low stays above the low. -/
theorem breakout_untested : findHtfRanges breakout 1 3600000 3 ≠ [] ∧
    ∀ z ∈ findHtfRanges breakout 1 3600000 3, z.Untested breakout := by
  have hclose : ∀ ev ∈ detectBosEvents breakout 1, ∀ d ∈ breakout,
      ev.swingCandle.timestamp < d.timestamp →
        closesBeyond ev.direction ev.swingCandle d = false := by decide +kernel
  refine ⟨by decide +kernel, ?_⟩
  exact (zones_untested_iff breakout 1 le_rfl (by unfold Chronological; decide +kernel)
    (by decide +kernel)).mpr (fun ev hev _ d hd hover => hclose ev hev d hd hover.swing_lt)
    3600000 3

/-! ## Targets -/

/-- `range_low` of a short zone, `range_high` of a long one. -/
def HtfRange.nearEdge (z : HtfRange) : ℚ :=
  match z.bosDirection with
  | .bearish => z.rangeLow
  | .bullish => z.rangeHigh

/-- The target lies strictly beyond the zone on the trade's side. -/
def HtfRange.TargetBeyond (z : HtfRange) : Prop :=
  match z.bosDirection with
  | .bearish => z.tpLevel < z.rangeLow
  | .bullish => z.rangeHigh < z.tpLevel

/-- The candle trades beyond the near edge of the swing candle's range. -/
def leavesZone (direction : BosDirection) (swing c : Candle) : Bool :=
  match direction with
  | .bearish => decide (c.low < swing.low)
  | .bullish => decide (swing.high < c.high)

theorem HtfRange.TargetBeyond.ne_nearEdge {z : HtfRange} (h : z.TargetBeyond) :
    z.tpLevel ≠ z.nearEdge := by
  unfold HtfRange.TargetBeyond at h
  unfold HtfRange.nearEdge
  cases hdir : z.bosDirection with
  | bearish =>
      rw [hdir] at h
      exact ne_of_lt h
  | bullish =>
      rw [hdir] at h
      exact ne_of_gt h

theorem min?_getD_lt_iff {xs : List ℚ} {a : ℚ} (h : ∀ y ∈ xs, y < a) :
    xs.min?.getD a < a ↔ xs ≠ [] := by
  cases hmin : xs.min? with
  | none => simp [List.min?_eq_none_iff.mp hmin]
  | some m =>
      have hm := List.min?_mem hmin
      exact iff_of_true (h m hm) (List.ne_nil_of_mem hm)

theorem lt_max?_getD_iff {xs : List ℚ} {a : ℚ} (h : ∀ y ∈ xs, a < y) :
    a < xs.max?.getD a ↔ xs ≠ [] := by
  cases hmax : xs.max? with
  | none => simp [List.max?_eq_none_iff.mp hmax]
  | some m =>
      have hm := List.max?_mem hmax
      exact iff_of_true (h m hm) (List.ne_nil_of_mem hm)

/-- The target lies beyond the zone if a candle after the break does. -/
theorem targetBeyond_zoneOf (htfIntervalMs : ℤ) : (zoneOf cs htfIntervalMs ev).TargetBeyond ↔
    ∃ c ∈ cs, ev.timestamp < c.timestamp ∧ leavesZone ev.direction ev.swingCandle c = true := by
  unfold HtfRange.TargetBeyond zoneOf zoneTpLevel leavesZone
  cases ev.direction with
  | bearish =>
      dsimp only
      rw [min?_getD_lt_iff]
      · simp [List.filter_eq_nil_iff]
      · intro y hy
        obtain ⟨d, hd, rfl⟩ := List.mem_map.mp hy
        exact (of_decide_eq_true (List.mem_filter.mp hd).2).2
  | bullish =>
      dsimp only
      rw [lt_max?_getD_iff]
      · simp [List.filter_eq_nil_iff]
      · intro y hy
        obtain ⟨d, hd, rfl⟩ := List.mem_map.mp hy
        exact (of_decide_eq_true (List.mem_filter.mp hd).2).2

/-- The target lies beyond the zone, and no uncapped signal aims at the edge of the zone. -/
def HtfRange.AimsBeyond (z : HtfRange) : Prop :=
  z.TargetBeyond ∧
    ∀ symbol htfInterval ltfInterval rejection signalId p broker liveBid liveAsk s,
      buildSignal symbol htfInterval ltfInterval z rejection signalId p broker liveBid
        liveAsk = some s → Uncapped p z s → s.tp2 ≠ z.nearEdge

/-- The zone of an event has its target beyond it if the market has left the zone. -/
theorem zoneOf_aimsBeyond_iff (htfIntervalMs : ℤ) :
    (zoneOf cs htfIntervalMs ev).AimsBeyond ↔
      ∃ c ∈ cs, ev.timestamp < c.timestamp ∧
        leavesZone ev.direction ev.swingCandle c = true := by
  rw [← targetBeyond_zoneOf htfIntervalMs]
  refine ⟨fun h => h.1, fun h => ⟨h, ?_⟩⟩
  intro symbol htfInterval ltfInterval rejection signalId p broker liveBid liveAsk s hbuilt hun
  rw [((buildSignal_eq_some hbuilt).tp2_of_uncapped hun).1]
  exact h.ne_nearEdge

/-- **Targets beyond the zone.** On OHLC-consistent candles with strictly increasing timestamps
    the targets lie beyond their zones, and no uncapped signal aims at the edge of its zone,
    exactly if the market has left each zone that is not taken out after its break. -/
theorem targets_beyond_iff (cs : List Candle) (pivotBars : ℕ) (hpivot : 1 ≤ pivotBars)
    (hs : Chronological cs) (hohlc : ∀ c ∈ cs, c.OhlcConsistent) :
    (∀ htfIntervalMs maxZonesPerDir,
      ∀ z ∈ findHtfRanges cs pivotBars htfIntervalMs maxZonesPerDir, z.TargetBeyond ∧
        ∀ symbol htfInterval ltfInterval rejection signalId p broker liveBid liveAsk s,
          buildSignal symbol htfInterval ltfInterval z rejection signalId p broker liveBid
            liveAsk = some s → Uncapped p z s → s.tp2 ≠ z.nearEdge) ↔
    ∀ ev ∈ detectBosEvents cs pivotBars,
      takenOut cs ev.direction ev.swingCandle ev.timestamp = false →
      ∃ c ∈ cs, ev.timestamp < c.timestamp ∧ leavesZone ev.direction ev.swingCandle c = true := by
  refine (zones_iff hpivot hs hohlc HtfRange.AimsBeyond).trans ?_
  constructor
  · exact fun h ev hev hfree => (zoneOf_aimsBeyond_iff 0).mp (h ev hev hfree 0)
  · exact fun h ev hev hfree ms => (zoneOf_aimsBeyond_iff ms).mpr (h ev hev hfree)

/-- The same for one call: the events are those within its cap. -/
theorem cappedZones_aimBeyond_iff (cs : List Candle) (pivotBars : ℕ) (hpivot : 1 ≤ pivotBars)
    (hs : Chronological cs) (hohlc : ∀ c ∈ cs, c.OhlcConsistent)
    (htfIntervalMs maxZonesPerDir : ℤ) :
    (∀ z ∈ findHtfRanges cs pivotBars htfIntervalMs maxZonesPerDir, z.AimsBeyond) ↔
    ∀ ev ∈ detectBosEvents cs pivotBars,
      takenOut cs ev.direction ev.swingCandle ev.timestamp = false →
      WithinCap cs pivotBars maxZonesPerDir ev →
      ∃ c ∈ cs, ev.timestamp < c.timestamp ∧ leavesZone ev.direction ev.swingCandle c = true := by
  constructor
  · intro h ev hev hfree hcap
    exact (zoneOf_aimsBeyond_iff htfIntervalMs).mp
      (h _ ((mem_findHtfRanges_iff hpivot hs hohlc).mpr ⟨ev, hev, hfree, hcap, rfl⟩))
  · intro h z hz
    obtain ⟨ev, hev, hfree, hcap, rfl⟩ := (mem_findHtfRanges_iff hpivot hs hohlc).mp hz
    exact (zoneOf_aimsBeyond_iff htfIntervalMs).mpr (h ev hev hfree hcap)

/-- The break is the last candle of the list: the target is the zone's own edge, and so is the
    target of a signal built on it. -/
theorem breakout_targets_edge :
    Chronological breakout ∧ (∀ c ∈ breakout, c.OhlcConsistent) ∧
    ∃ z ∈ findHtfRanges breakout 1 3600000 3, ¬ z.TargetBeyond ∧
      ∃ s, buildSignal "XAUUSD" oneHour fiveMin z { sampleRejection with low := 8, close := 9 }
          sampleId sampleProfile "" none none = some s ∧
        Uncapped sampleProfile z s ∧ s.tp2 = z.nearEdge := by
  refine ⟨by unfold Chronological; decide +kernel, by decide +kernel, ?_⟩
  have hzone : findHtfRanges breakout 1 3600000 3 =
      [⟨21 / 2, 7, .bullish, 1, 4, 21 / 2, 1, 3600001⟩] := by decide +kernel
  refine ⟨_, by rw [hzone]; exact List.mem_cons_self, ?_, ?_⟩
  · norm_num [HtfRange.TargetBeyond]
  · have hbuilt : (buildSignal "XAUUSD" oneHour fiveMin
        ⟨21 / 2, 7, .bullish, 1, 4, 21 / 2, 1, 3600001⟩
        { sampleRejection with low := 8, close := 9 } sampleId sampleProfile "" none none).map
          (fun s => (s.entryPrice, s.riskPips, s.tp2)) = some (9, 126 / 125, 21 / 2) := by
      decide +kernel
    obtain ⟨s, hs, hlevels⟩ := Option.map_eq_some_iff.mp hbuilt
    simp only [Prod.mk.injEq] at hlevels
    refine ⟨s, hs, ?_, hlevels.2.2⟩
    unfold Uncapped
    rw [hlevels.1, hlevels.2.1]
    norm_num [sampleProfile, abs_of_pos]

/-- With one candle more beyond the high the target is that candle's high. -/
theorem breakout_continued_targets :
    (findHtfRanges (breakout ++ [⟨5, 14, 16, 12, 15, 0⟩]) 1 3600000 3).map HtfRange.tpLevel =
      [16] ∧
    ∀ z ∈ findHtfRanges (breakout ++ [⟨5, 14, 16, 12, 15, 0⟩]) 1 3600000 3,
      z.TargetBeyond ∧
        ∀ symbol htfInterval ltfInterval rejection signalId p broker liveBid liveAsk s,
          buildSignal symbol htfInterval ltfInterval z rejection signalId p broker liveBid
            liveAsk = some s → Uncapped p z s → s.tp2 ≠ z.nearEdge := by
  refine ⟨by decide +kernel, ?_⟩
  exact (targets_beyond_iff (breakout ++ [⟨5, 14, 16, 12, 15, 0⟩]) 1 le_rfl
    (by unfold Chronological; decide +kernel) (by decide +kernel)).mpr (by decide +kernel) 3600000 3

end SignalEngine
