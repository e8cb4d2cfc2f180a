/-
  Zone caches: when `_zone_lo` and `_zone_cache` give a zone what it has now.

  Both are kept under the zone's time and direction. The break time of a zone is not part of the
  key, and it is found again in every window: where an old pivot has left the window, the same
  zone may be broken later than before.

  Proved: `freshTurn_of_stable`: as long as the zones found under one key agree on the first LTF
  candle after their break, every turn of the zone loop uses the index and the entry of the zone
  as it is detected there; `slidWindow_stale` is a history where they do not agree.
-/
import SignalEngine.Backtest.HtfCache

namespace SignalEngine

open Lib

/-! ## What a turn should use -/

/-- The first LTF candle of a zone. -/
def History.zoneLoIdx (D : History) (ltf : Interval) (z : HtfRange) : ℕ :=
  bisectLeft Candle.timestamp (D.ltfCandles ltf) z.zoneStart

/-- The entry of a zone among the first `hi` candles. -/
def History.zoneEntry (D : History) (ltf : Interval) (hi : ℕ) (z : HtfRange) :
    Option (RejectionCandle × RejectionScore) :=
  findEntry (((D.ltfCandles ltf).take hi).drop (D.zoneLoIdx ltf z)) z.signalDirection z

/-- The turn of a zone takes the index and the entry of the zone as it is. -/
structure FreshTurn (b : Backtest) (D : History) (v : LtfView) (z : HtfRange)
    (st : BacktestState) : Prop where
  lo_eq : (b.ltfLoIdx v z st).2 = D.zoneLoIdx v.pair.2 z
  entry_eq : (b.rejResult v z (b.ltfLoIdx v z st).2 (b.ltfLoIdx v z st).1).2 =
    D.zoneEntry v.pair.2 v.hiIdx z

/-- One of the visits has found the zone for the pair. -/
def Found (b : Backtest) (D : History) (ops : List BacktestOp) (pair : Interval × Interval)
    (z : HtfRange) : Prop :=
  ∃ c, .visit c pair ∈ ops ∧ b.Evaluated pair (D.htfVisible pair.1 (b.analysisClose c)) ∧
    z ∈ b.ownZones pair (D.htfVisible pair.1 (b.analysisClose c))

/-- The zones have the same first LTF candle and the same band. -/
structure SameZone (D : History) (ltf : Interval) (z z' : HtfRange) : Prop where
  lo_eq : D.zoneLoIdx ltf z = D.zoneLoIdx ltf z'
  high_eq : z.rangeHigh = z'.rangeHigh
  low_eq : z.rangeLow = z'.rangeLow

/-- Zones that the visits have found under one key are the same to the zone loop. -/
def StableZones (b : Backtest) (D : History) (ops : List BacktestOp) : Prop :=
  ∀ pair z z', Found b D ops pair z → Found b D ops pair z' →
    b.zoneKey pair z = b.zoneKey pair z' → SameZone D pair.2 z z'

/-! ## What is kept was found -/

structure ZoneCacheSound (b : Backtest) (D : History) (ops : List BacktestOp)
    (st : BacktestState) : Prop where
  lo : ∀ k lo, st.zoneLo k = some lo → ∃ pair z, Found b D ops pair z ∧ b.zoneKey pair z = k ∧
    lo = D.zoneLoIdx pair.2 z
  entry : ∀ k hi rej, st.zoneCache k = some (hi, rej) → ∃ pair z, Found b D ops pair z ∧
    b.zoneKey pair z = k ∧ rej = D.zoneEntry pair.2 hi z

variable {b : Backtest} {D : History} {pair pair' : Interval × Interval}
  {ops ops' : List BacktestOp}
  {z z' : HtfRange} {zones : List HtfRange} {st st' st₁ : BacktestState} {v : LtfView} {c : Candle}
  {analysisClose : ℤ} {bias : Option StructureResult} {ca : HtfCaches} {ltf : Interval}

theorem Found.mono (h : Found b D ops pair z) (hsub : ops ⊆ ops') : Found b D ops' pair z := by
  obtain ⟨c, hc, hrest⟩ := h
  exact ⟨c, hsub hc, hrest⟩

theorem ZoneCacheSound.mono (h : ZoneCacheSound b D ops st) (hsub : ops ⊆ ops') :
    ZoneCacheSound b D ops' st := by
  constructor
  · intro k lo hlo
    obtain ⟨pair, z, hz, hrest⟩ := h.lo k lo hlo
    exact ⟨pair, z, hz.mono hsub, hrest⟩
  · intro k hi rej hrej
    obtain ⟨pair, z, hz, hrest⟩ := h.entry k hi rej hrej
    exact ⟨pair, z, hz.mono hsub, hrest⟩

theorem zoneKey_pair (h : b.zoneKey pair z = b.zoneKey pair' z') : pair = pair' := by
  simp only [Backtest.zoneKey, BacktestZone.mk.injEq] at h
  exact Prod.ext h.2.1 h.2.2.1

theorem zoneKey_direction (h : b.zoneKey pair z = b.zoneKey pair' z') :
    z.bosDirection = z'.bosDirection := by
  simp only [Backtest.zoneKey, BacktestZone.mk.injEq] at h
  exact h.2.2.2.2

/-- The scan reads only the band of its zone. -/
theorem scanBack_congr (hhigh : z.rangeHigh = z'.rangeHigh) (hlow : z.rangeLow = z'.rangeLow)
    (direction : SignalDirection) (cs : List Candle) :
    scanBack direction (some z) cs = scanBack direction (some z') cs := by
  have hinside : ∀ c, insideHtf c z = insideHtf c z' := by
    intro c
    rw [insideHtf, insideHtf, hhigh, hlow]
  have hcheck : ∀ c prev, crtCheck c prev direction (some z) =
      crtCheck c prev direction (some z') := by
    intro c prev
    unfold crtCheck
    rw [Option.any_some, Option.any_some, hinside]
  induction cs with
  | nil => rfl
  | cons c cs ih =>
      cases cs with
      | nil => rfl
      | cons prev older => rw [scanBack, scanBack, hcheck, ih]

theorem SameZone.entry_eq (h : SameZone D ltf z z') (hdir : z.bosDirection = z'.bosDirection)
    (hi : ℕ) : D.zoneEntry ltf hi z = D.zoneEntry ltf hi z' := by
  have hsignal : z.signalDirection = z'.signalDirection := by
    rw [HtfRange.signalDirection, hdir, HtfRange.signalDirection]
  rw [History.zoneEntry, History.zoneEntry, h.lo_eq, hsignal]
  exact scanBack_congr h.high_eq h.low_eq _ _

/-! ## One turn -/

/-- The view of a visit on its data. -/
structure ViewOf (D : History) (v : LtfView) : Prop where
  visible_eq : v.visible = (D.ltfCandles v.pair.2).take v.hiIdx
  loIdx_eq : v.loIdx = bisectLeft Candle.timestamp (D.ltfCandles v.pair.2)

theorem ltfView_viewOf (D : History) (pair : Interval × Interval) (analysisClose : ℤ)
    (bias : Option StructureResult) : ViewOf D (D.ltfView pair analysisClose bias) :=
  ⟨rfl, rfl⟩

theorem ltfLoIdx_fresh (hv : ViewOf D v) (hsound : ZoneCacheSound b D ops st)
    (hstable : StableZones b D ops) (hz : Found b D ops v.pair z) :
    (b.ltfLoIdx v z st).2 = D.zoneLoIdx v.pair.2 z ∧
      ZoneCacheSound b D ops (b.ltfLoIdx v z st).1 := by
  unfold Backtest.ltfLoIdx
  split
  · next lo hlo =>
      obtain ⟨pair, z', hz', hkey, rfl⟩ := hsound.lo _ _ hlo
      obtain rfl := zoneKey_pair hkey
      exact ⟨(hstable _ z' z hz' hz hkey).lo_eq, hsound⟩
  · have hfresh : v.loIdx z.zoneStart = D.zoneLoIdx v.pair.2 z := by
      rw [hv.loIdx_eq, History.zoneLoIdx]
    refine ⟨hfresh, fun k lo hlo => ?_, hsound.entry⟩
    dsimp only at hlo
    by_cases hk : k = b.zoneKey v.pair z
    · subst hk
      rw [Function.update_self] at hlo
      exact ⟨v.pair, z, hz, rfl, (Option.some.inj hlo).symm.trans hfresh⟩
    · rw [Function.update_of_ne hk] at hlo
      exact hsound.lo k lo hlo

theorem rejResult_fresh (hv : ViewOf D v) (hsound : ZoneCacheSound b D ops st)
    (hstable : StableZones b D ops) (hz : Found b D ops v.pair z) :
    (b.rejResult v z (D.zoneLoIdx v.pair.2 z) st).2 = D.zoneEntry v.pair.2 v.hiIdx z ∧
      ZoneCacheSound b D ops (b.rejResult v z (D.zoneLoIdx v.pair.2 z) st).1 := by
  unfold Backtest.rejResult
  split
  · next hi rej hrej =>
      obtain ⟨hcached, hhi⟩ := Option.filter_eq_some_iff.mp hrej
      obtain rfl : hi = v.hiIdx := of_decide_eq_true hhi
      obtain ⟨pair, z', hz', hkey, rfl⟩ := hsound.entry _ _ _ hcached
      obtain rfl := zoneKey_pair hkey
      have hsame := hstable _ z' z hz' hz hkey
      exact ⟨hsame.entry_eq (zoneKey_direction hkey) v.hiIdx, hsound⟩
  · have hfresh : findEntry (v.visible.drop (D.zoneLoIdx v.pair.2 z)) z.signalDirection z =
        D.zoneEntry v.pair.2 v.hiIdx z := by
      rw [hv.visible_eq, History.zoneEntry]
    refine ⟨hfresh, hsound.lo, fun k hi rej hrej => ?_⟩
    dsimp only at hrej
    by_cases hk : k = b.zoneKey v.pair z
    · subst hk
      rw [Function.update_self] at hrej
      cases hrej
      exact ⟨v.pair, z, hz, rfl, hfresh⟩
    · rw [Function.update_of_ne hk] at hrej
      exact hsound.entry k hi rej hrej

theorem freshTurn (hv : ViewOf D v) (hsound : ZoneCacheSound b D ops st)
    (hstable : StableZones b D ops) (hz : Found b D ops v.pair z) : FreshTurn b D v z st := by
  obtain ⟨hlo, hsound'⟩ := ltfLoIdx_fresh hv hsound hstable hz
  refine ⟨hlo, ?_⟩
  rw [hlo]
  exact (rejResult_fresh hv hsound' hstable hz).1

theorem zoneTurn_sound (hv : ViewOf D v) (hsound : ZoneCacheSound b D ops st)
    (hstable : StableZones b D ops) (hz : Found b D ops v.pair z) :
    ZoneCacheSound b D ops (b.zoneTurn v st z).1 := by
  obtain ⟨hlo, hsound'⟩ := ltfLoIdx_fresh hv hsound hstable hz
  unfold Backtest.zoneTurn
  dsimp only
  split
  · exact hsound
  split
  · exact hsound'
  · rw [hlo]
    exact (rejResult_fresh hv hsound' hstable hz).2

theorem scanZones_sound (hv : ViewOf D v) (hsound : ZoneCacheSound b D ops st)
    (hstable : StableZones b D ops) (hzones : ∀ z ∈ zones, Found b D ops v.pair z) :
    ZoneCacheSound b D ops (b.scanZones v st zones).1 := by
  induction zones generalizing st with
  | nil => exact hsound
  | cons z zones ih =>
      have hturn := zoneTurn_sound hv hsound hstable (hzones z List.mem_cons_self)
      rw [Backtest.scanZones]
      generalize b.zoneTurn v st z = r at hturn ⊢
      obtain ⟨st₁, _ | s⟩ := r
      · exact ih hturn (fun z hz => hzones z (List.mem_cons_of_mem _ hz))
      · exact hturn

/-! ## Runs -/

theorem of_update_none {κ ι : Type} [DecidableEq κ] {p : Prop} [Decidable p] {f : κ → Option ι}
    {k k' : κ} {a : ι} (h : (if decide p then Function.update f k' none else f) k = some a) :
    f k = some a := by
  split at h
  · by_cases hk : k = k'
    · rw [hk, Function.update_self] at h
      cases h
    · rwa [Function.update_of_ne hk] at h
  · exact h

theorem visit_sound (hD : D.Sorted) (hcaches : CacheSound b D st.caches)
    (hsound : ZoneCacheSound b D ops st) (hmem : .visit c pair ∈ ops)
    (hstable : StableZones b D ops) (h : b.visit D (b.analysisClose c) pair st = .ok st') :
    ZoneCacheSound b D ops st' := by
  have hscan : ∀ {st₁ o}, b.scan D (b.analysisClose c) pair st = .ok (st₁, o) →
      ZoneCacheSound b D ops st₁ := by
    intro st₁ o hscan
    unfold Backtest.scan at hscan
    split at hscan
    · cases hscan
    · cases hscan
      exact ⟨hsound.lo, hsound.entry⟩
    next ca bias zones hstage =>
    have hkept : ZoneCacheSound b D ops { st with caches := ca } := ⟨hsound.lo, hsound.entry⟩
    split at hscan
    · cases hscan
      exact hkept
    · obtain ⟨heval, hown⟩ := htfStage_zones hD hcaches hstage
      have hfound : ∀ z ∈ zones, Found b D ops pair z := fun z hz => ⟨c, hmem, heval, hown ▸ hz⟩
      have hzones := scanZones_sound (ltfView_viewOf D pair (b.analysisClose c) bias) hkept hstable
        hfound
      rwa [Except.ok.inj hscan] at hzones
  rcases visit_cases h with hnone | ⟨st₁, z, s, r, hsome, -, rfl⟩
  · exact hscan hnone
  have hsound₁ := hscan hsome
  refine ⟨fun k lo hlo => hsound₁.lo k lo ?_, fun k hi rej hrej => hsound₁.entry k hi rej ?_⟩
  · exact of_update_none (p := b.cfg.maxSignalCountPerZone ≤ s.zoneAttempt) hlo
  · exact of_update_none (p := b.cfg.maxSignalCountPerZone ≤ s.zoneAttempt) hrej

/-- Along the schedule, what is kept was found by a visit. -/
theorem zoneCacheSound_run (hD : D.Sorted) (hops : ops <+: b.schedule D)
    (hrun : b.runOps D ops = .ok st) (hstable : StableZones b D ops) :
    ZoneCacheSound b D ops st := by
  induction ops using List.reverseRecOn generalizing st with
  | nil =>
      cases hrun
      exact ⟨fun _ _ h => (by cases h), fun _ _ _ h => (by cases h)⟩
  | append_singleton ops op ih =>
      obtain ⟨st₀, hst₀, happly⟩ := runOps_append_singleton hrun
      have hsub : ops ⊆ ops ++ [op] := List.subset_append_left _ _
      have hold := ih ((List.prefix_append _ _).trans hops) hst₀
        (fun pair z z' hz hz' => hstable pair z z' (hz.mono hsub) (hz'.mono hsub))
      cases op with
      | expireLocks c =>
          cases happly
          exact ⟨(hold.mono hsub).lo, (hold.mono hsub).entry⟩
      | visit c pair =>
          exact visit_sound hD (cacheSound_run hD hops hst₀) (hold.mono hsub) (by simp) hstable
            happly

/-- **The zone caches are transparent** at every turn of the zone loop of every run, as long as
    the zones found under one key agree on their first LTF candle and their band. -/
theorem freshTurn_of_stable (hD : D.Sorted) (hops : ops ++ [.visit c pair] <+: b.schedule D)
    (hrun : b.runOps D ops = .ok st) (hstable : StableZones b D (ops ++ [.visit c pair]))
    (hstage : b.htfStage pair (D.htfVisible pair.1 (b.analysisClose c)) st.caches =
      .ok (ca, some (bias, zones)))
    {pre post : List HtfRange} (hzones : zones = pre ++ z :: post)
    (hscan : b.scanZones (D.ltfView pair (b.analysisClose c) bias) { st with caches := ca } pre =
      (st₁, none)) :
    FreshTurn b D (D.ltfView pair (b.analysisClose c) bias) z st₁ := by
  have hsub : ops ⊆ ops ++ [.visit c pair] := List.subset_append_left _ _
  have hold := zoneCacheSound_run hD ((List.prefix_append _ _).trans hops) hrun
    (fun pair z z' hz hz' => hstable pair z z' (hz.mono hsub) (hz'.mono hsub))
  obtain ⟨heval, hown⟩ := htfStage_zones hD (cacheSound_run hD hops hrun) hstage
  rw [hzones] at hown
  have hfound : ∀ y ∈ pre ++ z :: post, Found b D (ops ++ [.visit c pair]) pair y :=
    fun y hy => ⟨c, by simp, heval, hown ▸ hy⟩
  have hview := ltfView_viewOf D pair (b.analysisClose c) bias
  have hpre := scanZones_sound hview
    (⟨(hold.mono hsub).lo, (hold.mono hsub).entry⟩ :
      ZoneCacheSound b D (ops ++ [.visit c pair]) { st with caches := ca }) hstable
    (fun y hy => hfound y (List.mem_append_left _ hy))
  rw [hscan] at hpre
  exact freshTurn hview hpre hstable (hfound z (by simp))

/-! ## A window that slides past a pivot -/

/-- A high at 4:00, a low at 5:00, a close above the high at 6:00 and a higher one at 9:00. -/
def slidHourly : List Candle :=
  [⟨0, 10, 11, 9, 10, 0⟩, ⟨3600000, 10, 11, 9, 10, 0⟩, ⟨7200000, 10, 11, 9, 10, 0⟩,
    ⟨10800000, 10, 11, 9, 10, 0⟩, ⟨14400000, 10, 12, 17 / 2, 9, 0⟩,
    ⟨18000000, 9, 19 / 2, 7, 8, 0⟩, ⟨21600000, 8, 27 / 2, 15 / 2, 13, 0⟩,
    ⟨25200000, 13, 15, 8, 27 / 2, 0⟩, ⟨28800000, 27 / 2, 14, 9, 27 / 2, 0⟩,
    ⟨32400000, 27 / 2, 20, 10, 19, 0⟩]

/-- A 5-minute candle above the zone. -/
def slidCandle (ts : ℤ) : Candle := ⟨ts, 12, 61 / 5, 59 / 5, 12, 0⟩

def slidFive : List Candle := (List.range 102).map (fun i => slidCandle (5400000 + i * 300000))

def slidData : History where
  htfCandles := fun _ => slidHourly
  ltfCandles := fun _ => slidFive

def slidBacktest (lookback : ℤ) : Backtest where
  cfg := sampleSettings
  symbol := "XAUUSD"
  pairs := [(oneHour, fiveMin)]
  pairs_ne := samplePair_ne
  profileOf := fun _ _ => sampleProfile
  htfLookback := some lookback

/-- The step at 9:50 and the start of the one at 9:55, whose analysis sees the 9:00 candle. -/
def slidOps : List BacktestOp :=
  [.expireLocks (slidCandle 35400000), .visit (slidCandle 35400000) (oneHour, fiveMin),
    .expireLocks (slidCandle 35700000)]

/-- The zone of the low at 5:00. -/
def slidZone (brokenAt : ℤ) (tpLevel : ℚ) : HtfRange where
  rangeHigh := 19 / 2
  rangeLow := 7
  bosDirection := .bullish
  timestamp := 18000000
  brokenAt := brokenAt
  tpLevel := tpLevel
  htfCandleOpen := 18000000
  htfCandleClose := 21600000

theorem slidData_sorted : slidData.Sorted where
  htf := fun _ => by
    change SortedBy Candle.timestamp slidHourly
    unfold SortedBy
    decide +kernel
  ltf := fun _ => by
    change SortedBy Candle.timestamp slidFive
    unfold SortedBy
    decide +kernel

theorem slidOps_isPrefix (lookback : ℤ) (h : (slidBacktest lookback).ltfLb = 100) :
    slidOps ++ [.visit (slidCandle 35700000) (oneHour, fiveMin)] <+:
      (slidBacktest lookback).schedule slidData := by
  have hmaster : slidData.master (slidBacktest lookback) = slidFive := rfl
  have hdrop : slidFive.drop 100 = [slidCandle 35400000, slidCandle 35700000] := by
    decide +kernel
  rw [Backtest.schedule, hmaster, h, hdrop]
  exact ⟨[], rfl⟩

/-- The zones the HTF side of a visit ends with. -/
def stageZones (b : Backtest) (D : History) (pair : Interval × Interval) (c : Candle)
    (st : BacktestState) : List HtfRange :=
  match b.htfStage pair (D.htfVisible pair.1 (b.analysisClose c)) st.caches with
  | .ok (_, some (_, zones)) => zones
  | _ => []

theorem stageZones_eq {c : Candle} (h : stageZones b D pair c st = z :: zones) :
    ∃ ca bias, b.htfStage pair (D.htfVisible pair.1 (b.analysisClose c)) st.caches =
      .ok (ca, some (bias, z :: zones)) := by
  unfold stageZones at h
  split at h
  · next ca bias zones' hstage =>
      subst h
      exact ⟨ca, bias, hstage⟩
  · cases h

theorem heldWindow_zones {pair : Interval × Interval} {z : HtfRange}
    (h : Found (slidBacktest 7) slidData
      (slidOps ++ [.visit (slidCandle 35700000) (oneHour, fiveMin)]) pair z) :
    pair = (oneHour, fiveMin) ∧ (z = slidZone 21600000 15 ∨ z = slidZone 21600000 20) := by
  obtain ⟨c, hc, -, hz⟩ := h
  have hvisit : (c = slidCandle 35400000 ∨ c = slidCandle 35700000) ∧
      pair = (oneHour, fiveMin) := by
    simp only [slidOps, List.cons_append, List.nil_append, List.mem_cons, reduceCtorEq,
      BacktestOp.visit.injEq, List.not_mem_nil, or_false, false_or] at hc
    rcases hc with ⟨hc, hpair⟩ | ⟨hc, hpair⟩
    · exact ⟨Or.inl hc, hpair⟩
    · exact ⟨Or.inr hc, hpair⟩
  obtain ⟨hcandle, rfl⟩ := hvisit
  refine ⟨rfl, ?_⟩
  rcases hcandle with rfl | rfl
  · have hown : (slidBacktest 7).ownZones (oneHour, fiveMin) (slidData.htfVisible
        (oneHour, fiveMin).1 ((slidBacktest 7).analysisClose (slidCandle 35400000))) =
        [slidZone 21600000 15] := by decide +kernel
    rw [hown] at hz
    exact Or.inl (List.mem_singleton.mp hz)
  · have hown : (slidBacktest 7).ownZones (oneHour, fiveMin) (slidData.htfVisible
        (oneHour, fiveMin).1 ((slidBacktest 7).analysisClose (slidCandle 35700000))) =
        [slidZone 21600000 20] := by decide +kernel
    rw [hown] at hz
    exact Or.inr (List.mem_singleton.mp hz)

theorem heldWindow_stable : StableZones (slidBacktest 7) slidData
    (slidOps ++ [.visit (slidCandle 35700000) (oneHour, fiveMin)]) := by
  intro pair z z' hz hz' _
  have hlo : slidData.zoneLoIdx pair.2 (slidZone 21600000 15) =
      slidData.zoneLoIdx pair.2 (slidZone 21600000 20) := rfl
  rcases (heldWindow_zones hz).2 with rfl | rfl
  · rcases (heldWindow_zones hz').2 with rfl | rfl
    · exact ⟨rfl, rfl, rfl⟩
    · exact ⟨hlo, rfl, rfl⟩
  · rcases (heldWindow_zones hz').2 with rfl | rfl
    · exact ⟨hlo.symm, rfl, rfl⟩
    · exact ⟨rfl, rfl, rfl⟩

/-- With a window that still holds the high at 4:00 the zone stays broken at 6:00. -/
theorem heldWindow_fresh : ∃ ca bias st, (slidBacktest 7).runOps slidData slidOps = .ok st ∧
    FreshTurn (slidBacktest 7) slidData (slidData.ltfView (oneHour, fiveMin)
      ((slidBacktest 7).analysisClose (slidCandle 35700000)) bias) (slidZone 21600000 20)
      { st with caches := ca } := by
  have hrun : ((slidBacktest 7).runOps slidData slidOps).map
      (stageZones (slidBacktest 7) slidData (oneHour, fiveMin) (slidCandle 35700000)) =
      .ok [slidZone 21600000 20] := by decide +kernel
  obtain ⟨st, hst, hzones⟩ := runOps_of_map hrun
  obtain ⟨ca, bias, hstage⟩ := stageZones_eq hzones
  exact ⟨ca, bias, st, hst, freshTurn_of_stable slidData_sorted
    (slidOps_isPrefix 7 (by decide +kernel)) hst heldWindow_stable hstage (List.nil_append _).symm
    rfl⟩

/-- Once the high at 4:00 is the first candle of the window it is no pivot, the zone is broken at
    9:00, and the index kept is still that of 6:00. -/
theorem slidWindow_stale :
    ¬ ∀ (b : Backtest) (D : History) (pair : Interval × Interval) (c : Candle)
      (ops : List BacktestOp) (st st₁ : BacktestState) (ca : HtfCaches)
      (bias : Option StructureResult) (pre : List HtfRange) (z : HtfRange) (post : List HtfRange),
      D.Sorted → ops ++ [.visit c pair] <+: b.schedule D → b.runOps D ops = .ok st →
      b.htfStage pair (D.htfVisible pair.1 (b.analysisClose c)) st.caches =
        .ok (ca, some (bias, pre ++ z :: post)) →
      b.scanZones (D.ltfView pair (b.analysisClose c) bias) { st with caches := ca } pre =
        (st₁, none) →
      FreshTurn b D (D.ltfView pair (b.analysisClose c) bias) z st₁ := by
  intro h
  have hrun : ((slidBacktest 6).runOps slidData slidOps).map (fun st =>
      (stageZones (slidBacktest 6) slidData (oneHour, fiveMin) (slidCandle 35700000) st,
        st.zoneLo ((slidBacktest 6).zoneKey (oneHour, fiveMin) (slidZone 32400000 (19 / 2))))) =
      .ok ([slidZone 32400000 (19 / 2)], some 54) := by decide +kernel
  obtain ⟨st, hst, heq⟩ := runOps_of_map hrun
  obtain ⟨hzones, hlo⟩ := Prod.mk.inj heq
  obtain ⟨ca, bias, hstage⟩ := stageZones_eq hzones
  have hfresh := h (slidBacktest 6) slidData (oneHour, fiveMin) (slidCandle 35700000) slidOps st
    { st with caches := ca } ca bias [] (slidZone 32400000 (19 / 2)) [] slidData_sorted
    (slidOps_isPrefix 6 (by decide +kernel)) hst hstage rfl
  have hkept : ((slidBacktest 6).ltfLoIdx (slidData.ltfView (oneHour, fiveMin)
      ((slidBacktest 6).analysisClose (slidCandle 35700000)) bias) (slidZone 32400000 (19 / 2))
      { st with caches := ca }).2 = 54 := by
    have hsame : ({ st with caches := ca } : BacktestState).zoneLo ((slidBacktest 6).zoneKey
        (oneHour, fiveMin) (slidZone 32400000 (19 / 2))) = some 54 := hlo
    have hpair : (slidData.ltfView (oneHour, fiveMin)
      ((slidBacktest 6).analysisClose (slidCandle 35700000)) bias).pair = (oneHour, fiveMin) := rfl
    rw [Backtest.ltfLoIdx, hpair, hsame]
  have hnow := hkept.symm.trans hfresh.lo_eq
  have hninety : slidData.zoneLoIdx fiveMin (slidZone 32400000 (19 / 2)) = 90 := by
    decide +kernel
  exact absurd (hnow.trans hninety) (by decide)

end SignalEngine
