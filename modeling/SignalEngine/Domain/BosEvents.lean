/-
  BOS events: what `detect_bos_events` reports, told without its walk.

  With `e` the time of the event before candle `c`, a break is bullish at `c` when the latest
  pivot high of `(e, c]` lies before `c` and `c` closes above it, while there is a pivot low in
  `(e, c]`; bearish with the roles exchanged (`BullishAt`, `BearishAt`).

  The walk is followed candle by candle. Its references are the latest pivots since the last
  event and never crossed (`RefsAt`): had the low risen above the high, the later of the two
  pivots would have closed through the other. So the two tests of a candle exclude each other
  and the order of the `if` and the `elif` does not matter. `detectBosEvents_spec` assembles this.
-/
import SignalEngine.Domain.Zones

namespace SignalEngine

/-! ## The definition of an event -/

/-- The candle stands at a position with `pivotBars` candles on either side, and beats them all. -/
def IsPivot (beats : Candle → Candle → Prop) (cs : List Candle) (pivotBars : ℕ) (c : Candle) :
    Prop :=
  ∃ i, pivotBars ≤ i ∧ i + pivotBars < cs.length ∧ cs[i]? = some c ∧
    ∀ j d, i ≤ j + pivotBars → j ≤ i + pivotBars → j ≠ i → cs[j]? = some d → beats c d

def IsPivotHigh : List Candle → ℕ → Candle → Prop := IsPivot fun c d => d.high < c.high

def IsPivotLow : List Candle → ℕ → Candle → Prop := IsPivot fun c d => c.low < d.low

/-- `t` is later than the event time, if there is one. -/
def After (e : Option ℤ) (t : ℤ) : Prop := ∀ t₀, e = some t₀ → t₀ < t

/-- The latest of the pivots in `(e, c]`. -/
structure LatestPivot (pivots : List Candle) (e : Option ℤ) (c d : Candle) : Prop where
  mem : d ∈ pivots
  after : After e d.timestamp
  le : d.timestamp ≤ c.timestamp
  latest : ∀ d' ∈ pivots, After e d'.timestamp → d'.timestamp ≤ c.timestamp →
    d'.timestamp ≤ d.timestamp

def BullishAt (highs lows : List Candle) (e : Option ℤ) (c : Candle) (level : ℚ)
    (swing : Candle) : Prop :=
  ∃ h, LatestPivot highs e c h ∧ LatestPivot lows e c swing ∧ h.timestamp < c.timestamp ∧
    h.high < c.close ∧ level = h.high

def BearishAt (highs lows : List Candle) (e : Option ℤ) (c : Candle) (level : ℚ)
    (swing : Candle) : Prop :=
  ∃ l, LatestPivot lows e c l ∧ LatestPivot highs e c swing ∧ l.timestamp < c.timestamp ∧
    c.close < l.low ∧ level = l.low

/-- `e` is the time of the last event before `c`, `none` if there is none. -/
def PreviousEvent (events : List BosEvent) (c : Candle) : Option ℤ → Prop
  | none => ∀ ev ∈ events, c.timestamp ≤ ev.timestamp
  | some t => (∃ ev ∈ events, ev.timestamp = t) ∧ t < c.timestamp ∧
      ∀ ev ∈ events, ev.timestamp < c.timestamp → ev.timestamp ≤ t

/-- The events of a candle list are those of the definition, on the pivots of the definition, and
    no two share a swing candle. -/
structure BosSpec (cs : List Candle) (pivotBars : ℕ) (events : List BosEvent) : Prop where
  pivotHigh_iff : ∀ c, c ∈ findPivotHighs cs pivotBars pivotBars ↔ IsPivotHigh cs pivotBars c
  pivotLow_iff : ∀ c, c ∈ findPivotLows cs pivotBars pivotBars ↔ IsPivotLow cs pivotBars c
  increasing : events.Pairwise (fun a b => a.timestamp < b.timestamp)
  at_candle : ∀ ev ∈ events, ∃ c ∈ cs, ev.timestamp = c.timestamp
  bullish_iff : ∀ c ∈ cs, ∀ e, PreviousEvent events c e → ∀ level swing,
    ⟨c.timestamp, .bullish, level, swing⟩ ∈ events ↔
      BullishAt (findPivotHighs cs pivotBars pivotBars) (findPivotLows cs pivotBars pivotBars)
        e c level swing
  bearish_iff : ∀ c ∈ cs, ∀ e, PreviousEvent events c e → ∀ level swing,
    ⟨c.timestamp, .bearish, level, swing⟩ ∈ events ↔
      BearishAt (findPivotHighs cs pivotBars pivotBars) (findPivotLows cs pivotBars pivotBars)
        e c level swing
  swings_distinct : events.Pairwise
    (fun a b => a.swingCandle.timestamp ≠ b.swingCandle.timestamp)

theorem mem_neighbours {cs : List Candle} {n i : ℕ} {d : Candle} (hleft : n ≤ i) :
    d ∈ neighbours cs n n i ↔ ∃ j, i ≤ j + n ∧ j ≤ i + n ∧ j ≠ i ∧ cs[j]? = some d := by
  unfold neighbours
  rw [List.mem_append, List.mem_iff_getElem?, List.mem_iff_getElem?]
  constructor
  · rintro (⟨k, hk⟩ | ⟨k, hk⟩)
    · rw [List.getElem?_drop, List.getElem?_take] at hk
      split at hk
      · exact ⟨i - n + k, by omega, by omega, by omega, hk⟩
      · cases hk
    · rw [List.getElem?_take, List.getElem?_drop] at hk
      split at hk
      · exact ⟨i + 1 + k, by omega, by omega, by omega, hk⟩
      · cases hk
  · rintro ⟨j, hlow, hhigh, hne, hget⟩
    rcases lt_or_gt_of_ne hne with hlt | hgt
    · refine Or.inl ⟨j - (i - n), ?_⟩
      rw [List.getElem?_drop, show i - n + (j - (i - n)) = j by omega, List.getElem?_take,
        if_pos hlt]
      exact hget
    · refine Or.inr ⟨j - (i + 1), ?_⟩
      rw [List.getElem?_take, if_pos (by omega), List.getElem?_drop,
        show i + 1 + (j - (i + 1)) = j by omega]
      exact hget

theorem mem_findPivots_iff_isPivot {P : Candle → Candle → Prop} [DecidableRel P]
    {cs : List Candle} {pivotBars : ℕ} {c : Candle} :
    c ∈ findPivots (fun c d => decide (P c d)) cs pivotBars pivotBars ↔
      IsPivot P cs pivotBars c := by
  rw [mem_findPivots]
  refine exists_congr fun i => ?_
  constructor
  · rintro ⟨hleft, hright, hget, hbeats⟩
    exact ⟨hleft, hright, hget, fun j d hlow hhigh hne hd =>
      of_decide_eq_true (hbeats d ((mem_neighbours hleft).mpr ⟨j, hlow, hhigh, hne, hd⟩))⟩
  · rintro ⟨hleft, hright, hget, hbeats⟩
    refine ⟨hleft, hright, hget, fun d hd => ?_⟩
    obtain ⟨j, hlow, hhigh, hne, hdj⟩ := (mem_neighbours hleft).mp hd
    exact decide_eq_true (hbeats j d hlow hhigh hne hdj)

/-- The zones of all events, without the guards against a swing candle seen before. -/
def unguardedZones (cs : List Candle) (htfIntervalMs : ℤ) (es : List BosEvent) :
    List HtfRange :=
  (es.filter fun e => !takenOut cs e.direction e.swingCandle e.timestamp).map
    (zoneOf cs htfIntervalMs)

/-! ## The references of the walk -/

variable {highTs lowTs ts : List ℤ} {r : BosRefs} {c d : Candle} {cs pre post : List Candle}
  {e : Option ℤ} {es : List BosEvent} {level : ℚ} {swing : Candle}

/-- A reference is the latest pivot of `pre` since the event. -/
def LatestIn (ts : List ℤ) (e : Option ℤ) (pre : List Candle) : Option Candle → Prop
  | none => ∀ d ∈ pre, d.timestamp ∈ ts → ¬ After e d.timestamp
  | some h => h ∈ pre ∧ h.timestamp ∈ ts ∧ After e h.timestamp ∧
      ∀ d ∈ pre, d.timestamp ∈ ts → After e d.timestamp → d.timestamp ≤ h.timestamp

theorem latestIn_concat {ref : Option Candle} (h : LatestIn ts e pre ref)
    (he : After e c.timestamp) (hlt : ∀ d ∈ pre, d.timestamp < c.timestamp) :
    LatestIn ts e (pre ++ [c]) (if c.timestamp ∈ ts then some c else ref) := by
  by_cases hc : c.timestamp ∈ ts
  · rw [if_pos hc]
    refine ⟨by simp, hc, he, fun d hd _ _ => ?_⟩
    rcases List.mem_append.mp hd with hd | hd
    · exact (hlt d hd).le
    · rw [List.mem_singleton.mp hd]
  · rw [if_neg hc]
    cases ref with
    | none =>
        intro d hd hts
        rcases List.mem_append.mp hd with hd | hd
        · exact h d hd hts
        · rw [List.mem_singleton.mp hd] at hts
          exact absurd hts hc
    | some x =>
        obtain ⟨hx, hxts, hxe, hlast⟩ := h
        refine ⟨List.mem_append_left _ hx, hxts, hxe, fun d hd hts hde => ?_⟩
        rcases List.mem_append.mp hd with hd | hd
        · exact hlast d hd hts hde
        · rw [List.mem_singleton.mp hd] at hts
          exact absurd hts hc

/-- The references after `pre`, with the last event at `e`. -/
structure RefsAt (highTs lowTs : List ℤ) (e : Option ℤ) (pre : List Candle) (r : BosRefs) :
    Prop where
  high : LatestIn highTs e pre r.high
  low : LatestIn lowTs e pre r.low
  uncrossed : ∀ h, r.high = some h → ∀ l, r.low = some l → l.low ≤ h.high
  after : ∀ t, e = some t → ∃ d ∈ pre, d.timestamp = t

theorem RefsAt.high_mem (h : RefsAt highTs lowTs e pre r) (hr : r.high = some d) : d ∈ pre := by
  have hhigh := h.high
  rw [hr] at hhigh
  exact hhigh.1

theorem RefsAt.low_mem (h : RefsAt highTs lowTs e pre r) (hr : r.low = some d) : d ∈ pre := by
  have hlow := h.low
  rw [hr] at hlow
  exact hlow.1

theorem RefsAt.after_next (h : RefsAt highTs lowTs e pre r)
    (hlt : ∀ d ∈ pre, d.timestamp < c.timestamp) : After e c.timestamp := by
  intro t ht
  obtain ⟨d, hd, rfl⟩ := h.after t ht
  exact hlt d hd

theorem update_high (h : (r.update highTs lowTs c).high = some d) : d = c ∨ r.high = some d := by
  unfold BosRefs.update at h
  dsimp only at h
  split at h
  · exact Or.inl (Option.some.inj h).symm
  · exact Or.inr h

theorem update_low (h : (r.update highTs lowTs c).low = some d) : d = c ∨ r.low = some d := by
  unfold BosRefs.update at h
  dsimp only at h
  split at h
  · exact Or.inl (Option.some.inj h).symm
  · exact Or.inr h

theorem event_bullish_iff :
    r.event c = some ⟨c.timestamp, .bullish, level, swing⟩ ↔
      ∃ h, r.high = some h ∧ r.low = some swing ∧ h.timestamp < c.timestamp ∧
        h.high < c.close ∧ level = h.high := by
  unfold BosRefs.event
  constructor
  · intro hev
    split at hev
    · next h l hh hl =>
        split at hev
        · next hcond =>
            cases hev
            exact ⟨h, hh, hl, hcond.1, hcond.2, rfl⟩
        split at hev
        · cases hev
        · cases hev
    · cases hev
  · rintro ⟨h, hh, hl, hts, hclose, rfl⟩
    rw [hh, hl]
    exact if_pos ⟨hts, hclose⟩

/-- The bearish test is reached because the bullish one fails on uncrossed references. -/
theorem event_bearish_iff
    (hun : ∀ h, r.high = some h → ∀ l, r.low = some l → h.timestamp < c.timestamp →
      l.timestamp < c.timestamp → l.low ≤ h.high) :
    r.event c = some ⟨c.timestamp, .bearish, level, swing⟩ ↔
      ∃ l, r.low = some l ∧ r.high = some swing ∧ l.timestamp < c.timestamp ∧
        c.close < l.low ∧ level = l.low := by
  unfold BosRefs.event
  constructor
  · intro hev
    split at hev
    · next h l hh hl =>
        split at hev
        · cases hev
        split at hev
        · next hcond =>
            cases hev
            exact ⟨l, hl, hh, hcond.1, hcond.2, rfl⟩
        · cases hev
    · cases hev
  · rintro ⟨l, hl, hh, hts, hclose, rfl⟩
    have hnot : ¬ (swing.timestamp < c.timestamp ∧ swing.high < c.close) := by
      rintro ⟨hswing, habove⟩
      have := hun swing hh l hl hswing hts
      linarith
    rw [hh, hl]
    exact (if_neg hnot).trans (if_pos ⟨hts, hclose⟩)

/-- Without an event the candle leaves the references uncrossed. -/
theorem RefsAt.uncrossed_update (h : RefsAt highTs lowTs e pre r) (hc : c.OhlcConsistent)
    (hlt : ∀ d ∈ pre, d.timestamp < c.timestamp)
    (hnone : (r.update highTs lowTs c).event c = none) {x y : Candle}
    (hx : (r.update highTs lowTs c).high = some x) (hy : (r.update highTs lowTs c).low = some y) :
    y.low ≤ x.high := by
  have hevent : ¬ (x.timestamp < c.timestamp ∧ x.high < c.close) ∧
      ¬ (y.timestamp < c.timestamp ∧ c.close < y.low) := by
    unfold BosRefs.event at hnone
    rw [hx, hy] at hnone
    dsimp only at hnone
    split at hnone
    · cases hnone
    split at hnone
    · cases hnone
    next h1 h2 => exact ⟨h1, h2⟩
  rcases update_high hx with rfl | hr
  · rcases update_low hy with rfl | hr'
    · exact hc.low_le_close.trans hc.close_le_high
    · have hbelow := hevent.2
      exact (not_lt.mp fun hlow => hbelow ⟨hlt y (h.low_mem hr'), hlow⟩).trans hc.close_le_high
  · rcases update_low hy with rfl | hr'
    · have habove := hevent.1
      exact hc.low_le_close.trans (not_lt.mp fun hhigh => habove ⟨hlt x (h.high_mem hr), hhigh⟩)
    · exact h.uncrossed x hr y hr'

theorem latestIn_unique (hs : Chronological pre) {a b : Option Candle}
    (ha : LatestIn ts e pre a) (hb : LatestIn ts e pre b) : a = b := by
  cases a with
  | none =>
      cases b with
      | none => rfl
      | some y => exact absurd hb.2.2.1 (ha y hb.1 hb.2.1)
  | some x =>
      cases b with
      | none => exact absurd ha.2.2.1 (hb x ha.1 ha.2.1)
      | some y =>
          have hxy := hb.2.2.2 x ha.1 ha.2.1 ha.2.2.1
          have hyx := ha.2.2.2 y hb.1 hb.2.1 hb.2.2.1
          obtain ⟨i, hi⟩ := List.getElem?_of_mem hb.1
          obtain ⟨before, behind, rfl⟩ := List.append_of_mem ha.1
          exact congrArg some (position_unique hs hi (le_antisymm hyx hxy)).2.symm

/-- After its pivot tests the candle finds the latest pivots up to itself. -/
theorem RefsAt.update_latest (h : RefsAt highTs lowTs e pre r)
    (hlt : ∀ d ∈ pre, d.timestamp < c.timestamp) :
    LatestIn highTs e (pre ++ [c]) (r.update highTs lowTs c).high ∧
      LatestIn lowTs e (pre ++ [c]) (r.update highTs lowTs c).low :=
  ⟨latestIn_concat h.high (h.after_next hlt) hlt, latestIn_concat h.low (h.after_next hlt) hlt⟩

/-- The references older than the candle are those it found, and they are uncrossed. -/
theorem RefsAt.uncrossed_earlier (h : RefsAt highTs lowTs e pre r) {x y : Candle}
    (hx : (r.update highTs lowTs c).high = some x) (hy : (r.update highTs lowTs c).low = some y)
    (hxlt : x.timestamp < c.timestamp) (hylt : y.timestamp < c.timestamp) : y.low ≤ x.high := by
  rcases update_high hx with rfl | hx
  · exact absurd hxlt (lt_irrefl _)
  rcases update_low hy with rfl | hy
  · exact absurd hylt (lt_irrefl _)
  exact h.uncrossed x hx y hy

/-- What the two tests of a candle say about the pivots up to it. -/
theorem RefsAt.event_iff (h : RefsAt highTs lowTs e pre r) (hs : Chronological (pre ++ [c]))
    (hlt : ∀ d ∈ pre, d.timestamp < c.timestamp) (level : ℚ) (swing : Candle) :
    ((r.update highTs lowTs c).event c = some ⟨c.timestamp, .bullish, level, swing⟩ ↔
      ∃ x, LatestIn highTs e (pre ++ [c]) (some x) ∧ LatestIn lowTs e (pre ++ [c]) (some swing) ∧
        x.timestamp < c.timestamp ∧ x.high < c.close ∧ level = x.high) ∧
    ((r.update highTs lowTs c).event c = some ⟨c.timestamp, .bearish, level, swing⟩ ↔
      ∃ y, LatestIn lowTs e (pre ++ [c]) (some y) ∧ LatestIn highTs e (pre ++ [c]) (some swing) ∧
        y.timestamp < c.timestamp ∧ c.close < y.low ∧ level = y.low) := by
  obtain ⟨hhigh, hlow⟩ := h.update_latest hlt
  have hhigh_iff : ∀ x, (r.update highTs lowTs c).high = some x ↔
      LatestIn highTs e (pre ++ [c]) (some x) :=
    fun x => ⟨fun heq => heq ▸ hhigh, fun hx => latestIn_unique hs hhigh hx⟩
  have hlow_iff : ∀ y, (r.update highTs lowTs c).low = some y ↔
      LatestIn lowTs e (pre ++ [c]) (some y) :=
    fun y => ⟨fun heq => heq ▸ hlow, fun hy => latestIn_unique hs hlow hy⟩
  have huncrossed : ∀ x, (r.update highTs lowTs c).high = some x →
      ∀ y, (r.update highTs lowTs c).low = some y → x.timestamp < c.timestamp →
        y.timestamp < c.timestamp → y.low ≤ x.high :=
    fun x hx y hy hxlt hylt => h.uncrossed_earlier hx hy hxlt hylt
  rw [event_bullish_iff, event_bearish_iff huncrossed]
  simp only [hhigh_iff, hlow_iff, and_self]

/-! ## The walk -/

/-- The time of the last event. -/
def lastEventTime (es : List BosEvent) : Option ℤ := es.getLast?.map BosEvent.timestamp

theorem bosWalk_concat (highTs lowTs : List ℤ) (r : BosRefs) (pre : List Candle) (c : Candle) :
    bosWalk highTs lowTs r (pre ++ [c]) = bosWalk highTs lowTs r pre ++
      (((bosRefs highTs lowTs r pre).update highTs lowTs c).event c).toList := by
  rw [bosWalk_append, bosWalk, bosStep_snd, bosWalk, List.append_nil]

theorem bosRefs_concat (highTs lowTs : List ℤ) (r : BosRefs) (pre : List Candle) (c : Candle) :
    bosRefs highTs lowTs r (pre ++ [c]) =
      (bosStep highTs lowTs (bosRefs highTs lowTs r pre) c).1 := by
  rw [bosRefs, List.foldl_append]
  rfl

theorem chronological_concat :
    Chronological (pre ++ [c]) ↔ Chronological pre ∧ ∀ d ∈ pre, d.timestamp < c.timestamp := by
  rw [Chronological, List.pairwise_append]
  simp [Chronological]

theorem latestIn_reset (hle : ∀ d ∈ pre, d.timestamp ≤ c.timestamp) :
    LatestIn ts (some c.timestamp) pre none :=
  fun d hd _ hafter => absurd (hafter _ rfl) (not_lt.mpr (hle d hd))

/-- The references of the walk are the latest uncrossed pivots since its last event. -/
theorem refsAt_bosWalk (highTs lowTs : List ℤ) (hs : Chronological pre)
    (hohlc : ∀ d ∈ pre, d.OhlcConsistent) :
    RefsAt highTs lowTs (lastEventTime (bosWalk highTs lowTs {} pre)) pre
      (bosRefs highTs lowTs {} pre) := by
  induction pre using List.reverseRecOn with
  | nil =>
      refine ⟨fun d hd => absurd hd List.not_mem_nil, fun d hd => absurd hd List.not_mem_nil,
        fun h hh => ?_, fun t ht => ?_⟩
      · cases hh
      · cases ht
  | append_singleton pre c ih =>
      obtain ⟨hs, hlt⟩ := chronological_concat.mp hs
      have hprev := ih hs (fun d hd => hohlc d (List.mem_append_left _ hd))
      have hc : c.OhlcConsistent := hohlc c (List.mem_append_right _ (List.mem_singleton_self c))
      rw [bosWalk_concat, bosRefs_concat]
      cases hev : ((bosRefs highTs lowTs {} pre).update highTs lowTs c).event c with
      | none =>
          obtain ⟨hhigh, hlow⟩ := hprev.update_latest hlt
          rw [bosStep_of_none hev, Option.toList_none, List.append_nil]
          refine ⟨hhigh, hlow, fun x hx y hy => hprev.uncrossed_update hc hlt hev hx hy, ?_⟩
          intro t ht
          obtain ⟨d, hd, hdt⟩ := hprev.after t ht
          exact ⟨d, List.mem_append_left _ hd, hdt⟩
      | some ev =>
          have hle : ∀ d ∈ pre ++ [c], d.timestamp ≤ c.timestamp := by
            intro d hd
            rcases List.mem_append.mp hd with hd | hd
            · exact (hlt d hd).le
            · rw [List.mem_singleton.mp hd]
          have htime : lastEventTime (bosWalk highTs lowTs {} pre ++ (some ev).toList) =
              some c.timestamp := by
            rw [lastEventTime, Option.toList_some, List.getLast?_concat, Option.map_some,
              event_timestamp hev]
          rw [bosStep_of_some hev, htime]
          refine ⟨latestIn_reset hle, latestIn_reset hle, fun x hx => ?_, fun t ht => ?_⟩
          · cases hx
          · cases ht
            exact ⟨c, List.mem_append_right _ (List.mem_singleton_self c), rfl⟩

/-- An event of `c` hangs on a swing candle later than the last event and not after `c`. -/
theorem RefsAt.swing_between (h : RefsAt highTs lowTs e pre r)
    (hlt : ∀ d ∈ pre, d.timestamp < c.timestamp) {ev : BosEvent}
    (hev : (r.update highTs lowTs c).event c = some ev) :
    After e ev.swingCandle.timestamp ∧ ev.swingCandle.timestamp ≤ ev.timestamp := by
  obtain ⟨hhigh, hlow⟩ := h.update_latest hlt
  have hmem : ∀ d ∈ pre ++ [c], d.timestamp ≤ ev.timestamp := by
    intro d hd
    rw [event_timestamp hev]
    rcases List.mem_append.mp hd with hd | hd
    · exact (hlt d hd).le
    · rw [List.mem_singleton.mp hd]
  rcases event_swing hev with hr | hr
  · rw [hr] at hhigh
    exact ⟨hhigh.2.2.1, hmem _ hhigh.1⟩
  · rw [hr] at hlow
    exact ⟨hlow.2.2.1, hmem _ hlow.1⟩

theorem lastEventTime_mem {t : ℤ} (h : lastEventTime es = some t) :
    ∃ ev ∈ es, ev.timestamp = t := by
  obtain ⟨ev, hlast, rfl⟩ := Option.map_eq_some_iff.mp h
  exact ⟨ev, List.mem_of_getLast? hlast, rfl⟩

theorem le_lastEventTime {R : BosEvent → BosEvent → Prop}
    (hR : ∀ a b, R a b → a.timestamp < b.timestamp) (hs : es.Pairwise R) {ev : BosEvent}
    (hev : ev ∈ es) : ∃ t, lastEventTime es = some t ∧ ev.timestamp ≤ t := by
  rcases List.eq_nil_or_concat es with rfl | ⟨init, last, rfl⟩
  · cases hev
  · rw [List.concat_eq_append] at hs hev ⊢
    refine ⟨last.timestamp, by rw [lastEventTime, List.getLast?_concat, Option.map_some], ?_⟩
    rcases List.mem_append.mp hev with hev | hev
    · exact (hR _ _ ((List.pairwise_append.mp hs).2.2 ev hev last (List.mem_singleton_self _))).le
    · rw [List.mem_singleton.mp hev]

/-- Events and their swing candles both move forward in time. -/
def Forward (a b : BosEvent) : Prop :=
  a.timestamp < b.timestamp ∧ a.swingCandle.timestamp < b.swingCandle.timestamp

theorem bosWalk_forward (highTs lowTs : List ℤ) (hs : Chronological pre)
    (hohlc : ∀ d ∈ pre, d.OhlcConsistent) :
    (bosWalk highTs lowTs {} pre).Pairwise Forward ∧
      ∀ ev ∈ bosWalk highTs lowTs {} pre, ev.swingCandle.timestamp ≤ ev.timestamp := by
  induction pre using List.reverseRecOn with
  | nil => exact ⟨List.Pairwise.nil, fun ev hev => absurd hev List.not_mem_nil⟩
  | append_singleton pre c ih =>
      obtain ⟨hs, hlt⟩ := chronological_concat.mp hs
      have hohlc' : ∀ d ∈ pre, d.OhlcConsistent := fun d hd => hohlc d (List.mem_append_left _ hd)
      obtain ⟨hforward, hle⟩ := ih hs hohlc'
      have hrefs := refsAt_bosWalk highTs lowTs hs hohlc'
      rw [bosWalk_concat]
      cases hev : ((bosRefs highTs lowTs {} pre).update highTs lowTs c).event c with
      | none =>
          rw [Option.toList_none, List.append_nil]
          exact ⟨hforward, hle⟩
      | some ev =>
          obtain ⟨hafter, hswing⟩ := hrefs.swing_between hlt hev
          rw [Option.toList_some]
          refine ⟨List.pairwise_append.mpr ⟨hforward, List.pairwise_singleton _ _, ?_⟩, ?_⟩
          · intro a ha b hb
            obtain rfl := List.mem_singleton.mp hb
            -- the event before lies between the swing candle of `a` and that of the new event
            obtain ⟨t, ht, hat⟩ := le_lastEventTime (fun _ _ h => h.1) hforward ha
            obtain ⟨d, hd, hdt⟩ := bosWalk_timestamp ha
            have hdc := hlt d hd
            have hts := event_timestamp hev
            have haswing := hle a ha
            have := hafter t ht
            constructor <;> omega
          · intro a ha
            rcases List.mem_append.mp ha with ha | ha
            · exact hle a ha
            · rw [List.mem_singleton.mp ha]
              exact hswing

/-! ## The events of one candle -/

section AtCandle

variable {beats : Candle → Candle → Bool} {left right : ℕ} {ev : BosEvent}

/-- The events dated by a candle are the one its own step reports. -/
theorem mem_bosWalk_at (hs : Chronological (pre ++ c :: post)) (hts : ev.timestamp = c.timestamp) :
    ev ∈ bosWalk highTs lowTs {} (pre ++ c :: post) ↔
      ((bosRefs highTs lowTs {} pre).update highTs lowTs c).event c = some ev := by
  obtain ⟨-, hpost, hcross⟩ := List.pairwise_append.mp hs
  have hrest := (List.pairwise_cons.mp hpost).1
  rw [bosWalk_append, bosWalk, bosStep_snd, List.mem_append, List.mem_append, Option.mem_toList]
  constructor
  · rintro (h | h | h)
    · obtain ⟨d, hd, heq⟩ := bosWalk_timestamp h
      have := hcross d hd c List.mem_cons_self
      omega
    · exact h
    · obtain ⟨d, hd, heq⟩ := bosWalk_timestamp h
      have := hrest d hd
      omega
  · exact fun h => Or.inr (Or.inl h)

/-- The event before a candle is the last one of the walk up to it. -/
theorem previousEvent_eq (hs : Chronological (pre ++ c :: post))
    (hohlc : ∀ d ∈ pre, d.OhlcConsistent)
    (h : PreviousEvent (bosWalk highTs lowTs {} (pre ++ c :: post)) c e) :
    e = lastEventTime (bosWalk highTs lowTs {} pre) := by
  obtain ⟨hpre, hpost, hcross⟩ := List.pairwise_append.mp hs
  have hforward := (bosWalk_forward highTs lowTs hpre hohlc).1
  have hbefore : ∀ ev, ev ∈ bosWalk highTs lowTs {} (pre ++ c :: post) ∧
      ev.timestamp < c.timestamp ↔ ev ∈ bosWalk highTs lowTs {} pre := by
    intro ev
    rw [bosWalk_append, List.mem_append]
    constructor
    · rintro ⟨h | h, hlt⟩
      · exact h
      · obtain ⟨d, hd, heq⟩ := bosWalk_timestamp h
        rcases List.mem_cons.mp hd with rfl | hd
        · omega
        · have := (List.pairwise_cons.mp hpost).1 d hd
          omega
    · intro h
      obtain ⟨d, hd, heq⟩ := bosWalk_timestamp h
      exact ⟨Or.inl h, heq ▸ hcross d hd c List.mem_cons_self⟩
  cases hlast : lastEventTime (bosWalk highTs lowTs {} pre) with
  | none =>
      cases e with
      | none => rfl
      | some t =>
          obtain ⟨⟨ev, hev, rfl⟩, hlt, -⟩ := h
          obtain ⟨t, ht, -⟩ := le_lastEventTime (fun _ _ h => h.1) hforward
            ((hbefore ev).mp ⟨hev, hlt⟩)
          rw [hlast] at ht
          cases ht
  | some t =>
      obtain ⟨last, hmem, rfl⟩ := lastEventTime_mem hlast
      obtain ⟨hall, hlt⟩ := (hbefore last).mpr hmem
      cases e with
      | none => exact absurd hlt (not_lt.mpr (h last hall))
      | some t₀ =>
          obtain ⟨⟨ev, hev, rfl⟩, hlt₀, hmax⟩ := h
          obtain ⟨t, ht, hle⟩ := le_lastEventTime (fun _ _ h => h.1) hforward
            ((hbefore ev).mp ⟨hev, hlt₀⟩)
          rw [hlast] at ht
          cases ht
          exact congrArg some (le_antisymm hle (hmax last hall hlt))

/-- The latest pivot among the candles up to `c` is the latest pivot not after `c`. -/
theorem latestIn_iff_latestPivot (hcs : cs = pre ++ c :: post) (hs : Chronological cs)
    {pivots : List Candle} (hsub : ∀ x ∈ pivots, x ∈ cs) :
    LatestIn (pivots.map Candle.timestamp) e (pre ++ [c]) (some d) ↔ LatestPivot pivots e c d := by
  have hpos : ∀ x ∈ cs, x ∈ pre ++ [c] ↔ x.timestamp ≤ c.timestamp := by
    intro x hx
    subst hcs
    obtain ⟨-, hpost, hcross⟩ := List.pairwise_append.mp hs
    constructor
    · intro hmem
      rcases List.mem_append.mp hmem with hmem | hmem
      · exact (hcross x hmem c List.mem_cons_self).le
      · rw [List.mem_singleton.mp hmem]
    · intro hle
      rcases List.mem_append.mp hx with hx | hx
      · exact List.mem_append_left _ hx
      · rcases List.mem_cons.mp hx with rfl | hx
        · exact List.mem_append_right _ (List.mem_singleton_self x)
        · exact absurd hle (not_le.mpr ((List.pairwise_cons.mp hpost).1 x hx))
  have hmem_cs : ∀ x ∈ pre ++ [c], x ∈ cs := by
    intro x hx
    subst hcs
    rw [List.append_cons]
    exact List.mem_append_left _ hx
  have hpivot : ∀ x ∈ cs, x.timestamp ∈ pivots.map Candle.timestamp ↔ x ∈ pivots := by
    intro x hx
    refine ⟨fun h => ?_, fun h => List.mem_map_of_mem h⟩
    obtain ⟨y, hy, hyx⟩ := List.mem_map.mp h
    obtain ⟨i, hi⟩ := List.getElem?_of_mem (hsub y hy)
    obtain ⟨before, behind, hsplit⟩ := List.append_of_mem hx
    rw [hsplit] at hs hi
    rwa [← (position_unique hs hi hyx).2]
  constructor
  · rintro ⟨hd, hts, hafter, hlast⟩
    have hdcs := hmem_cs d hd
    refine ⟨(hpivot d hdcs).mp hts, hafter, (hpos d hdcs).mp hd, fun x hx hxe hxc => ?_⟩
    exact hlast x ((hpos x (hsub x hx)).mpr hxc) (List.mem_map_of_mem hx) hxe
  · rintro ⟨hd, hafter, hle, hlast⟩
    refine ⟨(hpos d (hsub d hd)).mpr hle, List.mem_map_of_mem hd, hafter, fun x hx hxts hxe => ?_⟩
    have hxcs := hmem_cs x hx
    exact hlast x ((hpivot x hxcs).mp hxts) hxe ((hpos x hxcs).mp hx)

end AtCandle

/-! ## The theorem -/

theorem findPivots_subset {beats : Candle → Candle → Bool} {left right : ℕ} :
    ∀ x ∈ findPivots beats cs left right, x ∈ cs := by
  intro x hx
  obtain ⟨i, -, -, hget, -⟩ := mem_findPivots.mp hx
  exact List.mem_of_getElem? hget

/-- The guards against swing candles seen before skip nothing. -/
theorem freshZones_eq_unguarded {htfIntervalMs : ℤ} {seen : List (BosDirection × ℤ)}
    (hs : es.Pairwise (fun a b => a.swingCandle.timestamp ≠ b.swingCandle.timestamp))
    (hseen : ∀ ev ∈ es, (ev.direction, ev.swingCandle.timestamp) ∉ seen) :
    freshZones cs htfIntervalMs seen es = unguardedZones cs htfIntervalMs es := by
  induction es generalizing seen with
  | nil => rfl
  | cons ev es ih =>
      obtain ⟨hne, hs⟩ := List.pairwise_cons.mp hs
      have hnew : ∀ ev' ∈ es, (ev'.direction, ev'.swingCandle.timestamp) ∉
          (ev.direction, ev.swingCandle.timestamp) :: seen := by
        intro ev' hev' hmem
        rcases List.mem_cons.mp hmem with heq | hmem
        · exact hne ev' hev' (congrArg Prod.snd heq).symm
        · exact hseen ev' (List.mem_cons_of_mem _ hev') hmem
      rw [freshZones, if_neg (hseen ev List.mem_cons_self), ih hs hnew]
      unfold unguardedZones
      split
      · next h => rw [List.filter_cons_of_neg (by simp [h])]
      · next h => rw [List.filter_cons_of_pos (by simp [h]), List.map_cons]

section Detected

variable {pivotBars : ℕ}

theorem detectBosEvents_eq (cs : List Candle) (pivotBars : ℕ) :
    detectBosEvents cs pivotBars =
      bosWalk (pivotHighTs cs pivotBars) (pivotLowTs cs pivotBars) {} cs := rfl

theorem detectBosEvents_forward (pivotBars : ℕ) (hs : Chronological cs)
    (hohlc : ∀ c ∈ cs, c.OhlcConsistent) :
    (detectBosEvents cs pivotBars).Pairwise Forward :=
  (bosWalk_forward (pivotHighTs cs pivotBars) (pivotLowTs cs pivotBars) hs hohlc).1

theorem detectBosEvents_distinct (pivotBars : ℕ) (hs : Chronological cs)
    (hohlc : ∀ c ∈ cs, c.OhlcConsistent) :
    (detectBosEvents cs pivotBars).Pairwise
      (fun a b => a.swingCandle.timestamp ≠ b.swingCandle.timestamp) :=
  (detectBosEvents_forward pivotBars hs hohlc).imp fun h => ne_of_lt h.2

/-- The references a candle of the list finds, and the event it reports. -/
theorem exists_refsAt (pivotBars : ℕ) (hs : Chronological cs)
    (hohlc : ∀ c ∈ cs, c.OhlcConsistent) (hc : c ∈ cs)
    (he : PreviousEvent (detectBosEvents cs pivotBars) c e) :
    ∃ pre post r, cs = pre ++ c :: post ∧ Chronological (pre ++ [c]) ∧
      RefsAt (pivotHighTs cs pivotBars) (pivotLowTs cs pivotBars) e pre r ∧
      ∀ ev : BosEvent, ev.timestamp = c.timestamp →
        (ev ∈ detectBosEvents cs pivotBars ↔
          (r.update (pivotHighTs cs pivotBars) (pivotLowTs cs pivotBars) c).event c = some ev) := by
  obtain ⟨pre, post, hcs⟩ := List.append_of_mem hc
  have hs' : Chronological (pre ++ c :: post) := hcs ▸ hs
  have hpre : ∀ d ∈ pre, d.OhlcConsistent := fun d hd => hohlc d (hcs ▸ List.mem_append_left _ hd)
  have hconcat : Chronological (pre ++ [c]) := by
    rw [List.append_cons] at hs'
    exact (List.pairwise_append.mp hs').1
  have hrefs := refsAt_bosWalk (pivotHighTs cs pivotBars) (pivotLowTs cs pivotBars)
    (chronological_concat.mp hconcat).1 hpre
  have hdetect : detectBosEvents cs pivotBars = bosWalk (pivotHighTs cs pivotBars)
      (pivotLowTs cs pivotBars) {} (pre ++ c :: post) := by
    rw [detectBosEvents_eq, ← hcs]
  rw [hdetect] at he ⊢
  rw [← previousEvent_eq hs' hpre he] at hrefs
  exact ⟨pre, post, _, hcs, hconcat, hrefs, fun ev hts => mem_bosWalk_at hs' hts⟩

/-- The events of a candle are the breaks of the definition. -/
theorem mem_detectBosEvents_iff (pivotBars : ℕ) (hs : Chronological cs)
    (hohlc : ∀ c ∈ cs, c.OhlcConsistent) (hc : c ∈ cs)
    (he : PreviousEvent (detectBosEvents cs pivotBars) c e) (level : ℚ) (swing : Candle) :
    (⟨c.timestamp, .bullish, level, swing⟩ ∈ detectBosEvents cs pivotBars ↔
      BullishAt (findPivotHighs cs pivotBars pivotBars) (findPivotLows cs pivotBars pivotBars)
        e c level swing) ∧
    (⟨c.timestamp, .bearish, level, swing⟩ ∈ detectBosEvents cs pivotBars ↔
      BearishAt (findPivotHighs cs pivotBars pivotBars) (findPivotLows cs pivotBars pivotBars)
        e c level swing) := by
  obtain ⟨pre, post, r, hcs, hconcat, hrefs, hmem⟩ := exists_refsAt pivotBars hs hohlc hc he
  obtain ⟨hbull, hbear⟩ := hrefs.event_iff hconcat (chronological_concat.mp hconcat).2 level swing
  have hhigh : ∀ d, LatestIn (pivotHighTs cs pivotBars) e (pre ++ [c]) (some d) ↔
      LatestPivot (findPivotHighs cs pivotBars pivotBars) e c d :=
    fun d => latestIn_iff_latestPivot hcs hs findPivots_subset
  have hlow : ∀ d, LatestIn (pivotLowTs cs pivotBars) e (pre ++ [c]) (some d) ↔
      LatestPivot (findPivotLows cs pivotBars pivotBars) e c d :=
    fun d => latestIn_iff_latestPivot hcs hs findPivots_subset
  rw [hmem _ rfl, hmem _ rfl, hbull, hbear]
  simp only [hhigh, hlow, BullishAt, BearishAt, and_self]

end Detected

/-- **Breaks of structure.** On OHLC-consistent candles with strictly increasing timestamps the
    events are those of the definition, no two share a swing candle, and the guards of
    `find_htf_ranges` never skip one. -/
theorem detectBosEvents_spec (cs : List Candle) (pivotBars : ℕ) (hs : Chronological cs)
    (hohlc : ∀ c ∈ cs, c.OhlcConsistent) :
    BosSpec cs pivotBars (detectBosEvents cs pivotBars) ∧
      ∀ htfIntervalMs, freshZones cs htfIntervalMs [] (detectBosEvents cs pivotBars) =
        unguardedZones cs htfIntervalMs (detectBosEvents cs pivotBars) := by
  have hdistinct := detectBosEvents_distinct pivotBars hs hohlc
  refine ⟨⟨fun _ => mem_findPivots_iff_isPivot, fun _ => mem_findPivots_iff_isPivot,
    (detectBosEvents_forward pivotBars hs hohlc).imp (fun h => h.1),
    fun ev hev => bosWalk_timestamp hev, ?_, ?_, hdistinct⟩,
    fun ms => freshZones_eq_unguarded hdistinct (fun _ _ => List.not_mem_nil)⟩
  · exact fun c hc e he level swing =>
      (mem_detectBosEvents_iff pivotBars hs hohlc hc he level swing).1
  · exact fun c hc e he level swing =>
      (mem_detectBosEvents_iff pivotBars hs hohlc hc he level swing).2

/-- The breakout list has one event. -/
theorem breakout_spec : (detectBosEvents breakout 1).length = 1 ∧
    BosSpec breakout 1 (detectBosEvents breakout 1) ∧
      ∀ htfIntervalMs, freshZones breakout htfIntervalMs [] (detectBosEvents breakout 1) =
        unguardedZones breakout htfIntervalMs (detectBosEvents breakout 1) :=
  ⟨by decide +kernel,
    detectBosEvents_spec breakout 1 (by unfold Chronological; decide +kernel) (by decide +kernel)⟩

end SignalEngine
