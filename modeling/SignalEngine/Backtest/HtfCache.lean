/-
  HTF caches: when `_ms_cache` and `_range_cache` give a pair what its own window gives.

  `_range_cache` is keyed by the pair, `_ms_cache` by the HTF alone, and an entry of either is
  good as long as the last HTF candle is the same. On sorted candles that candle decides what
  is visible, but not how far back a pair looks.

  Proved: `usedStructure`: a visit uses the structure of the first pair with its HTF whose window
  is long enough; `caches_transparent_iff`: the caches of a visit are transparent exactly when
  that structure is the one of its own window.
-/
import SignalEngine.Backtest.LookAhead

namespace SignalEngine

open Lib

/-! ## What a visit should use -/

/-- The visit passes the test of its window. -/
def Backtest.Evaluated (b : Backtest) (pair : Interval × Interval) (visible : List Candle) :
    Prop :=
  b.resolveLookback pair / 3 ≤ ((b.htfWindow pair visible).length : ℤ) ∧
    b.htfWindow pair visible ≠ []

instance (b : Backtest) (pair : Interval × Interval) (visible : List Candle) :
    Decidable (b.Evaluated pair visible) :=
  inferInstanceAs (Decidable (_ ∧ _))

/-- The trend structure of the pair's own window. -/
def Backtest.ownStructure (b : Backtest) (pair : Interval × Interval) (visible : List Candle) :
    Option StructureResult :=
  if b.profile.useTrendFilter then some (detectStructure (b.htfWindow pair visible) pivotBars)
  else none

/-- The zones of the pair's own window that pass the displacement filter. -/
def Backtest.ownZones (b : Backtest) (pair : Interval × Interval) (visible : List Candle) :
    List HtfRange :=
  let zones :=
    findHtfRanges (b.htfWindow pair visible) pivotBars (intervalMs pair.1) b.cfg.maxHtfZonesPerDir
  if b.cfg.useDisplacementFilter then
    zones.filter (fun z =>
      detectDisplacement visible z.brokenAt b.cfg.displacementAtrPeriod
        (b.cfg.displacementMultFor pair.1 pair.2))
  else zones

/-- A visit with these caches uses its own structure and its own zones, and goes on with what it
    would go on with if nothing were cached. -/
structure UsesOwn (b : Backtest) (pair : Interval × Interval) (visible : List Candle)
    (ca : HtfCaches) : Prop where
  structure_eq : ∀ last ∈ (b.htfWindow pair visible).getLast?,
    (b.structureFor pair.1 (b.htfWindow pair visible) last.timestamp ca).2 =
      b.ownStructure pair visible
  zones_eq : ∀ last ∈ (b.htfWindow pair visible).getLast?,
    (b.zonesFor pair (b.htfWindow pair visible) visible last.timestamp
      (b.structureFor pair.1 (b.htfWindow pair visible) last.timestamp ca).1).2 =
      b.ownZones pair visible
  stage_eq : (b.htfStage pair visible ca).map Prod.snd = (b.htfStage pair visible {}).map Prod.snd

/-- The first pair with the HTF that is evaluated. -/
def Backtest.firstEvaluated (b : Backtest) (htf : Interval) (visible : List Candle) :
    Option (Interval × Interval) :=
  b.pairs.find? (fun q => decide (q.1 = htf ∧ b.Evaluated q visible))

/-- The trend structure is the one of the first evaluated pair with the same HTF. -/
def Backtest.SharesStructure (b : Backtest) (pair : Interval × Interval)
    (visible : List Candle) : Prop :=
  ∀ q ∈ b.firstEvaluated pair.1 visible, b.ownStructure q visible = b.ownStructure pair visible

instance (b : Backtest) (pair : Interval × Interval) (visible : List Candle) :
    Decidable (b.SharesStructure pair visible) :=
  inferInstanceAs (Decidable (∀ q ∈ b.firstEvaluated pair.1 visible,
    b.ownStructure q visible = b.ownStructure pair visible))

/-! ## The last candle decides what is visible -/

variable {b : Backtest} {D : History} {pair q : Interval × Interval} {visible : List Candle}
  {ca ca' : HtfCaches} {last last' : Candle} {ts x y analysisClose : ℤ} {htf : Interval}
  {s : StructureResult} {st st' : BacktestState} {pre post : List (Interval × Interval)}

theorem mem_htfVisible (hD : D.Sorted) {c : Candle} :
    c ∈ D.htfVisible htf x ↔ c ∈ D.htfCandles htf ∧ c.timestamp ≤ x - intervalMs htf := by
  rw [History.htfVisible, take_bisectRight (hD.htf htf), List.mem_filter, decide_eq_true_eq]

theorem htfVisible_eq_of_last (hD : D.Sorted)
    (hx : (D.htfVisible htf x).getLast? = some last)
    (hy : (D.htfVisible htf y).getLast? = some last') (hts : last.timestamp = last'.timestamp) :
    D.htfVisible htf x = D.htfVisible htf y := by
  have hsorted : ∀ x, SortedBy Candle.timestamp (D.htfVisible htf x) :=
    fun x => List.Pairwise.sublist (List.take_sublist _ _) (hD.htf htf)
  have hmem := List.mem_of_getLast? hx
  have hmem' := List.mem_of_getLast? hy
  rw [mem_htfVisible hD] at hmem hmem'
  rw [History.htfVisible, History.htfVisible, take_bisectRight (hD.htf htf),
    take_bisectRight (hD.htf htf)]
  refine List.filter_congr fun c hc => decide_eq_decide.mpr ⟨fun hle => ?_, fun hle => ?_⟩
  · have hlast := (hsorted x).le_getLast hx ((mem_htfVisible hD).mpr ⟨hc, hle⟩)
    omega
  · have hlast := (hsorted y).le_getLast hy ((mem_htfVisible hD).mpr ⟨hc, hle⟩)
    omega

theorem htfWindow_last (h : (b.htfWindow pair visible).getLast? = some last) :
    visible.getLast? = some last := by
  rw [Backtest.htfWindow, List.getLast?_drop] at h
  split at h
  · cases h
  · exact h

/-! ## The two caches -/

theorem structureFor_hit (huse : b.profile.useTrendFilter = true) (h : ca.ms htf = some (ts, s))
    (window : List Candle) : b.structureFor htf window ts ca = (ca, some s) := by
  have hkeep : (some (ts, s)).filter (fun e => decide (e.1 = ts)) = some (ts, s) :=
    Option.filter_some_pos (decide_eq_true rfl)
  rw [Backtest.structureFor, if_pos huse, h, hkeep]

theorem structureFor_miss (huse : b.profile.useTrendFilter = true)
    (h : ∀ s, ca.ms htf ≠ some (ts, s)) (window : List Candle) :
    b.structureFor htf window ts ca =
      ({ ca with
          ms := Function.update ca.ms htf (some (ts, detectStructure window pivotBars)) },
        some (detectStructure window pivotBars)) := by
  have hnone : (ca.ms htf).filter (fun e => decide (e.1 = ts)) = none := by
    refine Option.filter_eq_none_iff.mpr fun e he hts => ?_
    rw [decide_eq_true_eq] at hts
    exact h e.2 (hts ▸ he)
  rw [Backtest.structureFor, if_pos huse, hnone]

theorem structureFor_off (huse : ¬ b.profile.useTrendFilter = true) (window : List Candle) :
    b.structureFor htf window ts ca = (ca, none) := by
  rw [Backtest.structureFor, if_neg huse]

theorem zonesFor_hit {zones : List HtfRange} (h : ca.ranges pair = some (ts, zones))
    (window visible : List Candle) : b.zonesFor pair window visible ts ca = (ca, zones) := by
  have hkeep : (some (ts, zones)).filter (fun e => decide (e.1 = ts)) = some (ts, zones) :=
    Option.filter_some_pos (decide_eq_true rfl)
  rw [Backtest.zonesFor, h, hkeep]

theorem zonesFor_miss (h : ∀ zones, ca.ranges pair ≠ some (ts, zones)) (visible : List Candle) :
    b.zonesFor pair (b.htfWindow pair visible) visible ts ca =
      ({ ca with
          ranges := Function.update ca.ranges pair (some (ts, b.ownZones pair visible)) },
        b.ownZones pair visible) := by
  have hnone : (ca.ranges pair).filter (fun e => decide (e.1 = ts)) = none := by
    refine Option.filter_eq_none_iff.mpr fun e he hts => ?_
    rw [decide_eq_true_eq] at hts
    exact h e.2 (hts ▸ he)
  rw [Backtest.zonesFor, hnone]
  rfl

/-- What is cached was found at some step: the zones by the pair itself, the structure by the
    first evaluated pair with the HTF. -/
structure CacheSound (b : Backtest) (D : History) (ca : HtfCaches) : Prop where
  ms : ∀ htf ts s, ca.ms htf = some (ts, s) → ∃ x last q,
    (D.htfVisible htf x).getLast? = some last ∧ last.timestamp = ts ∧
      b.firstEvaluated htf (D.htfVisible htf x) = some q ∧
      b.ownStructure q (D.htfVisible htf x) = some s
  ranges : ∀ pair ts zones, ca.ranges pair = some (ts, zones) → ∃ x last,
    (D.htfVisible pair.1 x).getLast? = some last ∧ last.timestamp = ts ∧
      zones = b.ownZones pair (D.htfVisible pair.1 x)

/-- The pairs visited so far at `x` have left a structure for their HTF. -/
def Filled (b : Backtest) (D : History) (x : ℤ) (pre : List (Interval × Interval))
    (ca : HtfCaches) : Prop :=
  b.profile.useTrendFilter = true → ∀ q ∈ pre, b.Evaluated q (D.htfVisible q.1 x) →
    ∀ last ∈ (D.htfVisible q.1 x).getLast?, ∃ s, ca.ms q.1 = some (last.timestamp, s)

theorem cacheSound_init (b : Backtest) (D : History) : CacheSound b D {} where
  ms := fun _ _ _ h => by cases h
  ranges := fun _ _ _ h => by cases h

/-! ## One visit -/

/-- Where nothing is cached, the pair is the first one evaluated. -/
theorem firstEvaluated_of_miss (hfilled : Filled b D x pre ca)
    (huse : b.profile.useTrendFilter = true) (hpairs : b.pairs = pre ++ pair :: post)
    (heval : b.Evaluated pair (D.htfVisible pair.1 x))
    (hlast : (D.htfVisible pair.1 x).getLast? = some last)
    (hmiss : ∀ s, ca.ms pair.1 ≠ some (last.timestamp, s)) :
    b.firstEvaluated pair.1 (D.htfVisible pair.1 x) = some pair := by
  have hnone : pre.find? (fun q => decide (q.1 = pair.1 ∧
      b.Evaluated q (D.htfVisible pair.1 x))) = none := by
    refine List.find?_eq_none.mpr fun q hq hfound => ?_
    obtain ⟨hhtf, hq'⟩ := of_decide_eq_true hfound
    rw [← hhtf] at hq' hlast hmiss
    obtain ⟨s, hs⟩ := hfilled huse q hq hq' last hlast
    exact hmiss s hs
  rw [Backtest.firstEvaluated, hpairs, List.find?_append, hnone, Option.none_or,
    List.find?_cons_of_pos]
  exact decide_eq_true ⟨rfl, heval⟩

/-- What the structure cache does at an evaluated visit. -/
structure StructureTurn (b : Backtest) (D : History) (x : ℤ) (pair : Interval × Interval)
    (pre : List (Interval × Interval)) (r : HtfCaches × Option StructureResult) : Prop where
  sound : CacheSound b D r.1
  filled : Filled b D x (pre ++ [pair]) r.1
  used : ∀ q ∈ b.firstEvaluated pair.1 (D.htfVisible pair.1 x),
    r.2 = b.ownStructure q (D.htfVisible pair.1 x)

theorem Filled.hit (h : Filled b D x pre ca)
    (hlast : (D.htfVisible pair.1 x).getLast? = some last)
    (hms : ca.ms pair.1 = some (last.timestamp, s)) : Filled b D x (pre ++ [pair]) ca := by
  intro huse q hq heval last' hlast'
  rcases List.mem_append.mp hq with hq | hq
  · exact h huse q hq heval last' hlast'
  · rw [List.mem_singleton.mp hq] at hlast' ⊢
    cases hlast.symm.trans hlast'
    exact ⟨s, hms⟩

theorem Filled.miss (h : Filled b D x pre ca)
    (hlast : (D.htfVisible pair.1 x).getLast? = some last) (s : StructureResult) :
    Filled b D x (pre ++ [pair])
      { ca with ms := Function.update ca.ms pair.1 (some (last.timestamp, s)) } := by
  intro huse q hq heval last' hlast'
  by_cases hhtf : q.1 = pair.1
  · rw [hhtf] at hlast' ⊢
    cases hlast.symm.trans hlast'
    exact ⟨s, Function.update_self _ _ _⟩
  · rcases List.mem_append.mp hq with hq | hq
    · obtain ⟨s', hs'⟩ := h huse q hq heval last' hlast'
      exact ⟨s', (Function.update_of_ne hhtf _ _).trans hs'⟩
    · exact absurd (congrArg Prod.fst (List.mem_singleton.mp hq)) hhtf

theorem structureTurn (hD : D.Sorted) (hsound : CacheSound b D ca)
    (hfilled : Filled b D x pre ca) (hpairs : b.pairs = pre ++ pair :: post)
    (heval : b.Evaluated pair (D.htfVisible pair.1 x))
    (hlast : (b.htfWindow pair (D.htfVisible pair.1 x)).getLast? = some last) :
    StructureTurn b D x pair pre
      (b.structureFor pair.1 (b.htfWindow pair (D.htfVisible pair.1 x)) last.timestamp ca) := by
  have hvisible := htfWindow_last hlast
  by_cases huse : b.profile.useTrendFilter = true
  swap
  · rw [structureFor_off huse]
    refine ⟨hsound, fun hon => absurd hon huse, fun q _ => ?_⟩
    rw [Backtest.ownStructure, if_neg huse]
  by_cases hhit : ∃ s, ca.ms pair.1 = some (last.timestamp, s)
  · obtain ⟨s, hs⟩ := hhit
    rw [structureFor_hit huse hs]
    refine ⟨hsound, hfilled.hit hvisible hs, fun q hq => ?_⟩
    obtain ⟨y, last', q', hlast', hts, hq', hown⟩ := hsound.ms _ _ _ hs
    rw [htfVisible_eq_of_last hD hlast' hvisible hts] at hq' hown
    cases hq.symm.trans hq'
    exact hown.symm
  · have hmiss : ∀ s, ca.ms pair.1 ≠ some (last.timestamp, s) := fun s hs => hhit ⟨s, hs⟩
    have hfirst := firstEvaluated_of_miss hfilled huse hpairs heval hvisible hmiss
    have hown : b.ownStructure pair (D.htfVisible pair.1 x) =
        some (detectStructure (b.htfWindow pair (D.htfVisible pair.1 x)) pivotBars) := if_pos huse
    rw [structureFor_miss huse hmiss]
    refine ⟨⟨fun htf ts s hs => ?_, hsound.ranges⟩, hfilled.miss hvisible _, fun q hq => ?_⟩
    · dsimp only at hs
      by_cases hhtf : htf = pair.1
      · subst hhtf
        rw [Function.update_self] at hs
        cases hs
        exact ⟨x, last, pair, hvisible, rfl, hfirst, hown⟩
      · rw [Function.update_of_ne hhtf] at hs
        exact hsound.ms htf ts s hs
    · cases hfirst.symm.trans hq
      exact hown.symm

/-- The zones used are always the pair's own. -/
theorem zonesFor_own (hD : D.Sorted) (hsound : CacheSound b D ca)
    (hlast : (b.htfWindow pair (D.htfVisible pair.1 x)).getLast? = some last) :
    (b.zonesFor pair (b.htfWindow pair (D.htfVisible pair.1 x)) (D.htfVisible pair.1 x)
      last.timestamp ca).2 = b.ownZones pair (D.htfVisible pair.1 x) := by
  by_cases hhit : ∃ zones, ca.ranges pair = some (last.timestamp, zones)
  · obtain ⟨zones, hzones⟩ := hhit
    obtain ⟨y, last', hlast', hts, rfl⟩ := hsound.ranges _ _ _ hzones
    rw [zonesFor_hit hzones, htfVisible_eq_of_last hD hlast' (htfWindow_last hlast) hts]
  · rw [zonesFor_miss (fun zones hzones => hhit ⟨zones, hzones⟩)]

theorem CacheSound.zonesFor (hsound : CacheSound b D ca)
    (hlast : (b.htfWindow pair (D.htfVisible pair.1 x)).getLast? = some last) :
    CacheSound b D (b.zonesFor pair (b.htfWindow pair (D.htfVisible pair.1 x))
      (D.htfVisible pair.1 x) last.timestamp ca).1 := by
  by_cases hhit : ∃ zones, ca.ranges pair = some (last.timestamp, zones)
  · obtain ⟨zones, hzones⟩ := hhit
    rwa [zonesFor_hit hzones]
  · rw [zonesFor_miss (fun zones hzones => hhit ⟨zones, hzones⟩)]
    refine ⟨hsound.ms, fun other ts zones hzones => ?_⟩
    dsimp only at hzones
    by_cases hpair : other = pair
    · subst hpair
      rw [Function.update_self] at hzones
      cases hzones
      exact ⟨x, last, htfWindow_last hlast, rfl, rfl⟩
    · rw [Function.update_of_ne hpair] at hzones
      exact hsound.ranges other ts zones hzones

@[simp] theorem zonesFor_ms (pair : Interval × Interval) (window visible : List Candle) :
    (b.zonesFor pair window visible ts ca).1.ms = ca.ms := by
  unfold Backtest.zonesFor
  split <;> rfl

theorem structureFor_ranges (htf : Interval) (window : List Candle) (ts : ℤ) (ca : HtfCaches) :
    (b.structureFor htf window ts ca).1.ranges = ca.ranges := by
  unfold Backtest.structureFor
  split
  · split <;> rfl
  · rfl

theorem zonesFor_congr (h : ca'.ranges = ca.ranges) (window visible : List Candle) :
    (b.zonesFor pair window visible ts ca').2 = (b.zonesFor pair window visible ts ca).2 := by
  unfold Backtest.zonesFor
  rw [h]
  split <;> rfl

theorem Filled.of_ms (h : Filled b D x pre ca) (hms : ca'.ms = ca.ms) : Filled b D x pre ca' := by
  unfold Filled at h ⊢
  rwa [hms]

/-- The visit does not pass the test of its window. -/
theorem Filled.skip (h : Filled b D x pre ca)
    (hskip : ¬ b.Evaluated pair (D.htfVisible pair.1 x)) : Filled b D x (pre ++ [pair]) ca := by
  intro huse q hq heval
  rcases List.mem_append.mp hq with hq | hq
  · exact h huse q hq heval
  · rw [List.mem_singleton.mp hq] at heval
    exact absurd heval hskip

/-- The three ways through the HTF side of a visit. -/
theorem htfStage_cases {o : Option (Option StructureResult × List HtfRange)}
    (h : b.htfStage pair visible ca = .ok (ca', o)) :
    (¬ b.Evaluated pair visible ∧ ca' = ca) ∨
      ∃ last, b.Evaluated pair visible ∧
        (b.htfWindow pair visible).getLast? = some last ∧
        (ca' = (b.structureFor pair.1 (b.htfWindow pair visible) last.timestamp ca).1 ∨
          ca' = (b.zonesFor pair (b.htfWindow pair visible) visible last.timestamp
            (b.structureFor pair.1 (b.htfWindow pair visible) last.timestamp ca).1).1) := by
  unfold Backtest.htfStage at h
  dsimp only at h
  split at h
  · next hshort =>
      cases h
      exact Or.inl ⟨fun heval => absurd heval.1 (not_le.mpr hshort), rfl⟩
  next hlong =>
  split at h
  · cases h
  next last hlast =>
  have heval : b.Evaluated pair visible := by
    refine ⟨not_lt.mp hlong, fun hnil => ?_⟩
    rw [hnil] at hlast
    cases hlast
  split at h
  · cases h
    exact Or.inr ⟨last, heval, hlast, Or.inl rfl⟩
  · cases h
    exact Or.inr ⟨last, heval, hlast, Or.inr rfl⟩

/-- The zones a visit goes through are those of its own window. -/
theorem htfStage_zones {bias : Option StructureResult} {zones : List HtfRange} (hD : D.Sorted)
    (hsound : CacheSound b D ca)
    (h : b.htfStage pair (D.htfVisible pair.1 x) ca = .ok (ca', some (bias, zones))) :
    b.Evaluated pair (D.htfVisible pair.1 x) ∧ zones = b.ownZones pair (D.htfVisible pair.1 x) := by
  unfold Backtest.htfStage at h
  dsimp only at h
  split at h
  · cases h
  next hlong =>
  split at h
  · cases h
  next last hlast =>
  split at h
  · cases h
  cases h
  refine ⟨⟨not_lt.mp hlong, fun hnil => ?_⟩, ?_⟩
  · rw [hnil] at hlast
    cases hlast
  · rw [zonesFor_congr (structureFor_ranges _ _ _ _), zonesFor_own hD hsound hlast]

theorem htfStage_keeps {o : Option (Option StructureResult × List HtfRange)} (hD : D.Sorted)
    (hsound : CacheSound b D ca) (hfilled : Filled b D x pre ca)
    (hpairs : b.pairs = pre ++ pair :: post)
    (h : b.htfStage pair (D.htfVisible pair.1 x) ca = .ok (ca', o)) :
    CacheSound b D ca' ∧ Filled b D x (pre ++ [pair]) ca' := by
  rcases htfStage_cases h with ⟨hskip, rfl⟩ | ⟨last, heval, hlast, heq⟩
  · exact ⟨hsound, hfilled.skip hskip⟩
  have hturn := structureTurn hD hsound hfilled hpairs heval hlast
  rcases heq with rfl | rfl
  · exact ⟨hturn.sound, hturn.filled⟩
  · exact ⟨hturn.sound.zonesFor hlast, hturn.filled.of_ms (zonesFor_ms _ _ _)⟩

/-! ## The zone loop leaves the caches alone -/

theorem zoneTurn_caches (b : Backtest) (v : LtfView) (st : BacktestState) (z : HtfRange) :
    (b.zoneTurn v st z).1.caches = st.caches := by
  have hlo : (b.ltfLoIdx v z st).1.caches = st.caches := by
    unfold Backtest.ltfLoIdx
    split <;> rfl
  have hrej : ∀ lo st, (b.rejResult v z lo st).1.caches = st.caches := by
    intro lo st
    unfold Backtest.rejResult
    split <;> rfl
  unfold Backtest.zoneTurn
  dsimp only
  split
  · rfl
  split
  · exact hlo
  · rw [hrej, hlo]

theorem scanZones_caches (b : Backtest) (v : LtfView) (st : BacktestState)
    (zs : List HtfRange) : (b.scanZones v st zs).1.caches = st.caches := by
  induction zs generalizing st with
  | nil => rfl
  | cons z zs ih =>
      have hturn := zoneTurn_caches b v st z
      rw [Backtest.scanZones]
      generalize b.zoneTurn v st z = r at hturn ⊢
      obtain ⟨st₁, _ | s⟩ := r
      · exact (ih st₁).trans hturn
      · exact hturn

theorem scan_caches {o : Option (HtfRange × TradeSignal)}
    (h : b.scan D analysisClose pair st = .ok (st', o)) :
    ∃ r, b.htfStage pair (D.htfVisible pair.1 analysisClose) st.caches = .ok (st'.caches, r) := by
  unfold Backtest.scan at h
  split at h
  · cases h
  · next hstage =>
      cases h
      exact ⟨none, hstage⟩
  next ca bias zones hstage =>
  refine ⟨some (bias, zones), hstage.trans ?_⟩
  split at h
  · cases h
    rfl
  · have hkept := scanZones_caches b (D.ltfView pair analysisClose bias)
      { st with caches := ca } zones
    rw [Except.ok.inj h] at hkept
    rw [hkept]

theorem visit_caches (h : b.visit D analysisClose pair st = .ok st') :
    ∃ r, b.htfStage pair (D.htfVisible pair.1 analysisClose) st.caches = .ok (st'.caches, r) := by
  rcases visit_cases h with hscan | ⟨st₁, z, s, r, hscan, -, rfl⟩
  · exact scan_caches hscan
  · have hcaches := scan_caches hscan
    exact hcaches

/-! ## Runs -/

/-- A visit of the schedule: whole steps before it, and in its own step the pairs before it. -/
theorem schedule_split {masters : List Candle} {c : Candle} {ops : List BacktestOp}
    (h : ops ++ [.visit c pair] <+: masters.flatMap b.stepOps) :
    ∃ before pre post, before ++ [c] <+: masters ∧ b.pairs = pre ++ pair :: post ∧
      ops = before.flatMap b.stepOps ++ .expireLocks c :: pre.map (BacktestOp.visit c) := by
  induction masters generalizing ops with
  | nil =>
      rw [List.flatMap_nil, List.prefix_nil] at h
      exact absurd h (List.append_ne_nil_of_right_ne_nil _ (List.cons_ne_nil _ _))
  | cons d masters ih =>
      obtain ⟨rest, heq⟩ := h
      have hlater : ∀ bs, ops = b.stepOps d ++ bs →
          masters.flatMap b.stepOps = bs ++ .visit c pair :: rest → ∃ before pre post,
            before ++ [c] <+: d :: masters ∧ b.pairs = pre ++ pair :: post ∧
            ops = before.flatMap b.stepOps ++ .expireLocks c :: pre.map (BacktestOp.visit c) := by
        intro bs hops hrest
        have hpre : bs ++ [.visit c pair] <+: masters.flatMap b.stepOps := by
          rw [hrest]
          exact ⟨rest, by rw [List.append_assoc, List.singleton_append]⟩
        obtain ⟨before, pre, post, hbefore, hpairs, rfl⟩ := ih hpre
        refine ⟨d :: before, pre, post, List.cons_prefix_cons.mpr ⟨rfl, hbefore⟩, hpairs, ?_⟩
        rw [hops, List.flatMap_cons, List.append_assoc]
      rw [List.flatMap_cons, List.append_assoc, List.singleton_append] at heq
      rcases List.append_eq_append_iff.mp heq with ⟨as, hstep, hrest⟩ | ⟨bs, hops, hrest⟩
      swap
      · exact hlater bs hops hrest
      cases as with
      | nil =>
          rw [List.append_nil] at hstep
          exact hlater [] (by rw [hstep, List.append_nil]) hrest.symm
      | cons v as =>
          rw [List.cons_append, List.cons.injEq] at hrest
          obtain ⟨rfl, -⟩ := hrest
          cases ops with
          | nil => cases hstep
          | cons op ops =>
              rw [Backtest.stepOps, List.cons_append, List.cons.injEq] at hstep
              obtain ⟨rfl, hvisits⟩ := hstep
              obtain ⟨pre, rest', hpairs, hpre, hrest'⟩ := List.map_eq_append_iff.mp hvisits
              obtain ⟨q, post, rfl, hq, -⟩ := List.map_eq_cons_iff.mp hrest'
              cases hq
              exact ⟨[], pre, post, ⟨masters, rfl⟩, hpairs, by rw [← hpre]; rfl⟩

/-- The caches along a step. -/
theorem caches_run (hD : D.Sorted) {before : List Candle} {c : Candle}
    (hbefore : ∀ st, b.runOps D (before.flatMap b.stepOps) = .ok st → CacheSound b D st.caches)
    (hpairs : b.pairs = pre ++ post)
    (hrun : b.runOps D (before.flatMap b.stepOps ++
      .expireLocks c :: pre.map (BacktestOp.visit c)) = .ok st) :
    CacheSound b D st.caches ∧ Filled b D (b.analysisClose c) pre st.caches := by
  induction pre using List.reverseRecOn generalizing st post with
  | nil =>
      obtain ⟨st₀, hst₀, hexpire⟩ := runOps_append_singleton hrun
      cases hexpire
      exact ⟨hbefore st₀ hst₀, fun _ q hq => by cases hq⟩
  | append_singleton pre q ih =>
      rw [List.map_append, ← List.cons_append, ← List.append_assoc] at hrun
      obtain ⟨st₀, hst₀, hvisit⟩ := runOps_append_singleton hrun
      rw [List.append_assoc, List.singleton_append] at hpairs
      obtain ⟨hsound, hfilled⟩ := ih hpairs hst₀
      obtain ⟨r, hstage⟩ := visit_caches hvisit
      exact htfStage_keeps hD hsound hfilled hpairs hstage

theorem caches_steps (hD : D.Sorted) (before : List Candle) (st : BacktestState)
    (hrun : b.runOps D (before.flatMap b.stepOps) = .ok st) : CacheSound b D st.caches := by
  induction before using List.reverseRecOn generalizing st with
  | nil =>
      cases hrun
      exact cacheSound_init b D
  | append_singleton before c ih =>
      rw [List.flatMap_append, List.flatMap_singleton] at hrun
      exact (caches_run hD ih (List.append_nil b.pairs).symm hrun).1

theorem cacheSound_run (hD : D.Sorted) {c : Candle} {ops : List BacktestOp}
    (hops : ops ++ [.visit c pair] <+: b.schedule D) (hrun : b.runOps D ops = .ok st) :
    CacheSound b D st.caches := by
  obtain ⟨before, pre, post, -, hpairs, rfl⟩ := schedule_split hops
  exact (caches_run hD (caches_steps hD before) hpairs hrun).1

/-- At a visit of the run, the structure used is that of the first pair with the HTF that is
    evaluated, and the zones are the pair's own. -/
theorem usedStructure (hD : D.Sorted) {c : Candle} {ops : List BacktestOp}
    (hops : ops ++ [.visit c pair] <+: b.schedule D) (hrun : b.runOps D ops = .ok st)
    (heval : b.Evaluated pair (D.htfVisible pair.1 (b.analysisClose c)))
    (hlast : (b.htfWindow pair (D.htfVisible pair.1 (b.analysisClose c))).getLast? = some last) :
    ∃ pre, StructureTurn b D (b.analysisClose c) pair pre
      (b.structureFor pair.1 (b.htfWindow pair (D.htfVisible pair.1 (b.analysisClose c)))
        last.timestamp st.caches) := by
  obtain ⟨before, pre, post, -, hpairs, rfl⟩ := schedule_split hops
  obtain ⟨hsound, hfilled⟩ := caches_run hD (caches_steps hD before) hpairs hrun
  exact ⟨pre, structureTurn hD hsound hfilled hpairs heval hlast⟩

theorem structureFor_empty (pair : Interval × Interval) (visible : List Candle) (ts : ℤ) :
    (b.structureFor pair.1 (b.htfWindow pair visible) ts {}).2 = b.ownStructure pair visible ∧
      (b.structureFor pair.1 (b.htfWindow pair visible) ts {}).1.ranges = fun _ => none := by
  by_cases huse : b.profile.useTrendFilter = true
  · rw [structureFor_miss huse (fun s h => by cases h), Backtest.ownStructure, if_pos huse]
    exact ⟨rfl, rfl⟩
  · rw [structureFor_off huse, Backtest.ownStructure, if_neg huse]
    exact ⟨rfl, rfl⟩

theorem htfStage_own (hlast : (b.htfWindow pair visible).getLast? = some last)
    (heval : b.Evaluated pair visible)
    (hstructure : (b.structureFor pair.1 (b.htfWindow pair visible) last.timestamp ca).2 =
      b.ownStructure pair visible)
    (hzones : (b.zonesFor pair (b.htfWindow pair visible) visible last.timestamp
      (b.structureFor pair.1 (b.htfWindow pair visible) last.timestamp ca).1).2 =
      b.ownZones pair visible) :
    (b.htfStage pair visible ca).map Prod.snd =
      .ok (if (b.ownStructure pair visible).any (fun s => decide (s.bias = .neutral)) then none
        else some (b.ownStructure pair visible, b.ownZones pair visible)) := by
  rw [Backtest.htfStage]
  dsimp only
  rw [if_neg (not_lt.mpr heval.1), hlast]
  dsimp only
  rw [hstructure]
  split
  · rfl
  · rw [hzones]
    rfl

/-- What a visit goes on with if nothing is cached. -/
theorem htfStage_empty (heval : b.Evaluated pair visible) :
    (b.htfStage pair visible {}).map Prod.snd =
      .ok (if (b.ownStructure pair visible).any (fun s => decide (s.bias = .neutral)) then none
        else some (b.ownStructure pair visible, b.ownZones pair visible)) := by
  obtain ⟨last, hlast⟩ := Option.isSome_iff_exists.mp (List.getLast?_isSome.mpr heval.2)
  obtain ⟨hstructure, hranges⟩ := structureFor_empty (b := b) pair visible last.timestamp
  refine htfStage_own hlast heval hstructure ?_
  rw [zonesFor_miss]
  intro zones hcached
  rw [hranges] at hcached
  cases hcached

/-- **The caches of the HTF side are transparent at a visit exactly when** the first pair with
    the same HTF that is evaluated there has the trend structure of the pair itself. -/
theorem caches_transparent_iff (hD : D.Sorted) {c : Candle} {ops : List BacktestOp}
    (hops : ops ++ [.visit c pair] <+: b.schedule D) (hrun : b.runOps D ops = .ok st)
    (heval : b.Evaluated pair (D.htfVisible pair.1 (b.analysisClose c))) :
    UsesOwn b pair (D.htfVisible pair.1 (b.analysisClose c)) st.caches ↔
      b.SharesStructure pair (D.htfVisible pair.1 (b.analysisClose c)) := by
  obtain ⟨last, hlast⟩ := Option.isSome_iff_exists.mp (List.getLast?_isSome.mpr heval.2)
  obtain ⟨pre, hturn⟩ := usedStructure hD hops hrun heval hlast
  constructor
  · intro h q hq
    rw [← hturn.used q hq, h.structure_eq last hlast]
  intro h
  obtain ⟨q, hq⟩ : ∃ q, b.firstEvaluated pair.1
      (D.htfVisible pair.1 (b.analysisClose c)) = some q := by
    obtain ⟨before, pre, post, -, hpairs, -⟩ := schedule_split hops
    refine Option.isSome_iff_exists.mp (List.find?_isSome.mpr ⟨pair, ?_, ?_⟩)
    · rw [hpairs]
      exact List.mem_append_right _ List.mem_cons_self
    · exact decide_eq_true ⟨rfl, heval⟩
  have hstructure := (hturn.used q hq).trans (h q hq)
  have hzones := zonesFor_own hD hturn.sound hlast
  refine ⟨fun last' hlast' => ?_, fun last' hlast' => ?_, ?_⟩
  · cases hlast.symm.trans hlast'
    exact hstructure
  · cases hlast.symm.trans hlast'
    exact hzones
  · rw [htfStage_own hlast heval hstructure hzones, htfStage_empty heval]

/-! ## Two pairs on one HTF -/

/-- The sample pairs with the trend filter on; the first one looks back 3 hours, the second 8. -/
def mixedBacktest : Backtest :=
  { sampleBacktest with
    cfg := { sampleSettings with htfLookback := .perPair [((60, 15), 3), ((60, 5), 8)] none }
    profileOf := fun _ _ => { sampleProfile with useTrendFilter := true }
    htfLookback := none }

/-- The operations before the second visit of the first step. -/
def firstVisit : List BacktestOp :=
  [.expireLocks (quietCandle 30000000), .visit (quietCandle 30000000) (oneHour, fifteenMin)]

theorem firstVisit_isPrefix (b : Backtest) (hpairs : b.pairs = [(oneHour, fifteenMin),
    (oneHour, fiveMin)]) (hlb : b.ltfLb = 100) :
    firstVisit ++ [.visit (quietCandle 30000000) (oneHour, fiveMin)] <+:
      b.schedule (sampleData 8) := by
  have hmaster : (sampleData 8).master b = sampleFive := by
    simp only [History.master, Backtest.masterLtf, hpairs]
    rfl
  rw [Backtest.schedule, hmaster, hlb]
  refine ⟨(sampleFive.drop 101).flatMap b.stepOps, ?_⟩
  have hdrop : sampleFive.drop 100 = quietCandle 30000000 :: sampleFive.drop 101 := by
    decide +kernel
  rw [hdrop, List.flatMap_cons, Backtest.stepOps, hpairs]
  rfl

/-- With one lookback for both pairs, the second one uses its own structure. -/
theorem oneLookback_own : ∃ st,
    ({ mixedBacktest with htfLookback := some 8 } : Backtest).runOps (sampleData 8) firstVisit =
      .ok st ∧
    UsesOwn { mixedBacktest with htfLookback := some 8 } (oneHour, fiveMin) sampleHourly
      st.caches := by
  have hrun : (({ mixedBacktest with htfLookback := some 8 } : Backtest).runOps (sampleData 8)
      firstVisit).map (fun st => st.results.length) = .ok 1 := by decide +kernel
  obtain ⟨st, hst, -⟩ := runOps_of_map hrun
  exact ⟨st, hst, (caches_transparent_iff (c := quietCandle 30000000) (sampleData_sorted 8)
    (firstVisit_isPrefix _ rfl (by decide +kernel)) hst (by decide +kernel)).mpr
    (by decide +kernel)⟩

/-- The window of the first pair shows no trend, so the second pair is not considered. -/
theorem shortLookback_shadows :
    ¬ ∀ (b : Backtest) (D : History) (pair : Interval × Interval) (c : Candle)
      (ops : List BacktestOp) (st : BacktestState), D.Sorted →
      ops ++ [.visit c pair] <+: b.schedule D → b.runOps D ops = .ok st →
      b.Evaluated pair (D.htfVisible pair.1 (b.analysisClose c)) →
      UsesOwn b pair (D.htfVisible pair.1 (b.analysisClose c)) st.caches := by
  intro h
  have hrun : (mixedBacktest.runOps (sampleData 8) firstVisit).map
      (fun st => st.results.length) = .ok 0 := by decide +kernel
  obtain ⟨st, hst, -⟩ := runOps_of_map hrun
  have hprefix := firstVisit_isPrefix mixedBacktest rfl (by decide +kernel)
  have heval : mixedBacktest.Evaluated (oneHour, fiveMin)
      ((sampleData 8).htfVisible oneHour (mixedBacktest.analysisClose (quietCandle 30000000))) := by
    decide +kernel
  have hlast : (mixedBacktest.htfWindow (oneHour, fiveMin) ((sampleData 8).htfVisible oneHour
      (mixedBacktest.analysisClose (quietCandle 30000000)))).getLast? =
      some ⟨25200000, 11, 15, 10, 14, 0⟩ := by decide +kernel
  have hfirst : mixedBacktest.firstEvaluated oneHour ((sampleData 8).htfVisible oneHour
      (mixedBacktest.analysisClose (quietCandle 30000000))) = some (oneHour, fifteenMin) := by
    decide +kernel
  obtain ⟨_, hturn⟩ := usedStructure (sampleData_sorted 8) hprefix hst heval hlast
  have hown := (h mixedBacktest (sampleData 8) (oneHour, fiveMin) (quietCandle 30000000)
    firstVisit st (sampleData_sorted 8) hprefix hst heval).structure_eq _ hlast
  rw [hturn.used _ hfirst] at hown
  revert hown
  decide +kernel

end SignalEngine
