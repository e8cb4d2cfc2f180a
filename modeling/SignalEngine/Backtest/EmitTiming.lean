/-
  Emit timing: when the backtest emits what the live engine would emit too.

  The live engine skips a pair between its LTF closes and a rejection that closed more than
  `max_emit_lag_ms` ago. The backtest visits every pair at every close of the smallest LTF and
  takes a rejection up to two LTF candles old.

  A rejection is offered to the builder when a visit comes to it with its zone below the limit, its
  lock free and itself unseen and young. What has been offered is emitted and seen, or refused for
  good (`OfferedIn.seen_or_refused`), so a run is in time if its first offers are
  (`emissions_timely`).

  Proved on the way: the emissions are timely exactly when what each visit looks at is timely or
  blocked (`emissions_timely_iff`), and they are in runs on one LTF that is allowed two candles of
  lag (`timely_of_one_ltf`).
-/
import SignalEngine.Backtest.DedupParity

namespace SignalEngine

open Lib

/-- The live engine evaluates the LTF at this close and takes the rejection as fresh. -/
structure TimelyAt (b : Backtest) (analysisClose : ℤ) (ltf : Interval) (rejTs : ℤ) : Prop where
  ltf_close : analysisClose % intervalMs ltf = 0
  lag_le : analysisClose - (rejTs + intervalMs ltf) ≤ b.cfg.maxEmitLagMs

def Emission.Timely (b : Backtest) (e : Emission) : Prop :=
  TimelyAt b e.analysisClose e.signal.ltfInterval e.signal.rejectionCandle.timestamp

/-- At a close of the LTF the lag is the age of the rejection. -/
theorem timelyAt_of_age {b : Backtest} {analysisClose rejTs : ℤ} {ltf : Interval}
    (hclose : intervalMs ltf ∣ analysisClose)
    (hage : pairCurrentTs ltf analysisClose - rejTs ≤ b.cfg.maxEmitLagMs) :
    TimelyAt b analysisClose ltf rejTs := by
  refine ⟨Int.emod_eq_zero_of_dvd hclose, ?_⟩
  rw [pairCurrentTs, Int.ediv_mul_cancel hclose] at hage
  omega

/-! ## What a visit looks at -/

/-- In a visit of the pair from state `st`, the zone loop comes to `z`, which is below its limit
    and with the bias, and finds the rejection `r` in state `st'`. -/
def LooksAt (b : Backtest) (D : History) (c : Candle) (pair : Interval × Interval)
    (st : BacktestState) (z : HtfRange) (r : RejectionCandle) (st' : BacktestState) : Prop :=
  ∃ ca bias zones pre post st₀ score,
    b.htfStage pair (D.htfVisible pair.1 (b.analysisClose c)) st.caches =
      .ok (ca, some (bias, zones)) ∧
    ltfHiIdx pair.2 (D.ltfCandles pair.2) (b.analysisClose c) ≠ 0 ∧
    zones = pre ++ z :: post ∧
    b.scanZones (D.ltfView pair (b.analysisClose c) bias) { st with caches := ca } pre =
      (st₀, none) ∧
    ¬ (b.zoneKey pair z ∈ st₀.deadZones ∨
      b.cfg.maxSignalCountPerZone ≤ st₀.zoneSignalCounts (b.zoneKey pair z)) ∧
    bias.any (fun s => !s.allows z.signalDirection) = false ∧
    b.rejResult (D.ltfView pair (b.analysisClose c) bias) z
      (b.ltfLoIdx (D.ltfView pair (b.analysisClose c) bias) z st₀).2
      (b.ltfLoIdx (D.ltfView pair (b.analysisClose c) bias) z st₀).1 = (st', some (r, score))

/-- The backtest's own rules turn the rejection down. -/
def Blocked (b : Backtest) (c : Candle) (pair : Interval × Interval) (z : HtfRange)
    (r : RejectionCandle) (st : BacktestState) : Prop :=
  b.rejKey pair r ∈ st.seenRej ∨ (st.openDir (b.dirKey pair z.signalDirection)).isSome = true ∨
    staleMs pair.2 < pairCurrentTs pair.2 (b.analysisClose c) - r.timestamp ∨
    (evaluateSetup b.symbol pair.1 pair.2 z r
      ⟨b.symbol, pair.1, pair.2, r.timestamp, z.signalDirection⟩
      (b.profileOf pair.1 pair.2)).signal = none

/-- Every rejection the visit looks at is timely or blocked. -/
def UntimelyBlocked (b : Backtest) (D : History) (c : Candle) (pair : Interval × Interval)
    (st : BacktestState) : Prop :=
  ∀ z r st', LooksAt b D c pair st z r st' →
    TimelyAt b (b.analysisClose c) pair.2 r.timestamp ∨ Blocked b c pair z r st'

variable {b : Backtest} {D : History} {c : Candle} {pair : Interval × Interval}
  {st st' st'' : BacktestState} {z : HtfRange} {r : RejectionCandle} {s : TradeSignal}
  {v : LtfView} {ops : List BacktestOp}

theorem signalFor_eq_none_iff (v : LtfView) (pair : Interval × Interval) (hp : v.pair = pair)
    (hts : v.pairCurrentTs = pairCurrentTs pair.2 (b.analysisClose c)) :
    b.signalFor v z r st = none ↔ Blocked b c pair z r st := by
  subst hp
  unfold Backtest.signalFor Blocked
  rw [hts]
  split
  · next h => exact ⟨fun _ => Or.inl h, fun _ => rfl⟩
  next h1 =>
  split
  · next h => exact ⟨fun _ => Or.inr (Or.inl h), fun _ => rfl⟩
  next h2 =>
  split
  · next h => exact ⟨fun _ => Or.inr (Or.inr (Or.inl h)), fun _ => rfl⟩
  next h3 =>
  rw [Option.map_eq_none_iff]
  exact ⟨fun h => Or.inr (Or.inr (Or.inr h)),
    fun h => ((h.resolve_left h1).resolve_left h2).resolve_left h3⟩

theorem zoneTurn_of_signalFor {score : RejectionScore}
    (hlimit : ¬ (b.zoneKey v.pair z ∈ st.deadZones ∨
      b.cfg.maxSignalCountPerZone ≤ st.zoneSignalCounts (b.zoneKey v.pair z)))
    (hbias : v.bias.any (fun s => !s.allows z.signalDirection) = false)
    (hrej : b.rejResult v z (b.ltfLoIdx v z st).2 (b.ltfLoIdx v z st).1 = (st', some (r, score)))
    (hs : b.signalFor v z r st' = some s) : b.zoneTurn v st z = (st', some s) := by
  unfold Backtest.zoneTurn
  dsimp only
  rw [if_neg hlimit, hbias, hrej]
  exact congrArg (Prod.mk st') hs

theorem scanZones_of_turn {pre post : List HtfRange} {st₀ : BacktestState}
    (hpre : b.scanZones v st pre = (st₀, none)) (hz : b.zoneTurn v st₀ z = (st', some s)) :
    b.scanZones v st (pre ++ z :: post) = (st', some (z, s)) := by
  induction pre generalizing st with
  | nil =>
      cases hpre
      rw [List.nil_append, Backtest.scanZones, hz]
  | cons y pre ih =>
      rw [Backtest.scanZones] at hpre
      rw [List.cons_append, Backtest.scanZones]
      split at hpre
      · cases hpre
      · exact ih hpre

/-- What a visit emits comes from a rejection that it looked at and did not block. -/
theorem scan_eq_some_iff :
    b.scan D (b.analysisClose c) pair st = .ok (st', some (z, s)) ↔
      ∃ r, LooksAt b D c pair st z r st' ∧
        b.signalFor (D.ltfView pair (b.analysisClose c) none) z r st' = some s := by
  unfold Backtest.scan
  constructor
  · intro h
    split at h
    · cases h
    · cases h
    next ca bias zones hstage =>
    split at h
    · cases h
    next hhi =>
    simp only [Except.ok.injEq] at h
    obtain ⟨pre, post, st₀, hzones, hpre, hturn⟩ := scanZones_eq_some h
    obtain ⟨hlimit, hbias, r, score, hrej, hs⟩ := zoneTurn_eq_some hturn
    exact ⟨r, ⟨ca, bias, zones, pre, post, st₀, score, hstage, hhi, hzones, hpre, hlimit, hbias,
      hrej⟩, hs⟩
  · rintro ⟨r, ⟨ca, bias, zones, pre, post, st₀, score, hstage, hhi, rfl, hpre, hlimit, hbias,
      hrej⟩, hs⟩
    rw [hstage]
    dsimp only
    rw [if_neg hhi]
    exact congrArg _ (scanZones_of_turn hpre (zoneTurn_of_signalFor hlimit hbias hrej hs))

/-! ## What a visit may look at -/

/-- The rejections kept or findable for the key of `z`, on the closed LTF candles: the entry kept
    for this LTF candle, and the newest sweep into each zone of the key. -/
def Backtest.sweeps (b : Backtest) (v : LtfView) (zones : List HtfRange) (st : BacktestState)
    (z : HtfRange) : List (RejectionCandle × RejectionScore) :=
  (((st.zoneCache (b.zoneKey v.pair z)).filter (fun e => decide (e.1 = v.hiIdx))).bind
    (·.2)).toList ++
  (zones.filter (fun y => decide (b.zoneKey v.pair y = b.zoneKey v.pair z))).filterMap
    (fun y => findEntry v.visible y.signalDirection y)

/-- The zones with the bias before a visit, each with its rejections. -/
def Backtest.candidates (b : Backtest) (D : History) (c : Candle) (pair : Interval × Interval)
    (st : BacktestState) : List (HtfRange × RejectionCandle) :=
  match b.htfStage pair (D.htfVisible pair.1 (b.analysisClose c)) st.caches with
  | .ok (_, some (bias, zones)) =>
      (zones.filter (fun z => !bias.any (fun s => !s.allows z.signalDirection))).flatMap fun z =>
        (b.sweeps (D.ltfView pair (b.analysisClose c) bias) zones st z).map fun e => (z, e.1)
  | _ => []

theorem ltfLoIdx_zoneCache : (b.ltfLoIdx v z st).1.zoneCache = st.zoneCache := by
  unfold Backtest.ltfLoIdx
  split <;> rfl

theorem rejResult_snd {lo : ℕ} {e : RejectionCandle × RejectionScore}
    (h : (b.rejResult v z lo st).2 = some e) :
    st.zoneCache (b.zoneKey v.pair z) = some (v.hiIdx, some e) ∨
      findEntry v.visible z.signalDirection z = some e := by
  unfold Backtest.rejResult at h
  split at h
  · next hi rej hkept =>
      obtain ⟨hcache, hhi⟩ := Option.filter_eq_some_iff.mp hkept
      have hhi' : hi = v.hiIdx := of_decide_eq_true hhi
      rw [hcache, hhi', show rej = some e from h]
      exact Or.inl rfl
  · exact Or.inr (findEntry_of_drop h)

/-- What a turn has kept for this LTF candle was kept before, or is the newest sweep into its
    zone. -/
theorem zoneTurn_zoneCache {k : BacktestZone} {e : RejectionCandle × RejectionScore}
    (h : (b.zoneTurn v st z).1.zoneCache k = some (v.hiIdx, some e)) :
    st.zoneCache k = some (v.hiIdx, some e) ∨
      b.zoneKey v.pair z = k ∧ findEntry v.visible z.signalDirection z = some e := by
  unfold Backtest.zoneTurn at h
  dsimp only at h
  split at h
  · exact Or.inl h
  split at h
  · rw [ltfLoIdx_zoneCache] at h
    exact Or.inl h
  unfold Backtest.rejResult at h
  rw [ltfLoIdx_zoneCache] at h
  split at h
  · rw [ltfLoIdx_zoneCache] at h
    exact Or.inl h
  · by_cases hk : k = b.zoneKey v.pair z
    · subst hk
      dsimp only at h
      rw [Function.update_self, Option.some.injEq, Prod.mk.injEq] at h
      exact Or.inr ⟨rfl, findEntry_of_drop h.2⟩
    · dsimp only at h
      rw [Function.update_of_ne hk] at h
      exact Or.inl h

theorem scanZones_zoneCache {zones : List HtfRange} {k : BacktestZone}
    {e : RejectionCandle × RejectionScore} (hscan : b.scanZones v st zones = (st', none))
    (h : st'.zoneCache k = some (v.hiIdx, some e)) :
    st.zoneCache k = some (v.hiIdx, some e) ∨
      ∃ y ∈ zones, b.zoneKey v.pair y = k ∧ findEntry v.visible y.signalDirection y = some e := by
  induction zones generalizing st with
  | nil =>
      cases hscan
      exact Or.inl h
  | cons y zones ih =>
      rw [Backtest.scanZones] at hscan
      split at hscan
      · cases hscan
      next st₁ hturn =>
      rcases ih hscan with hkept | ⟨x, hx, hfound⟩
      · have hst₁ : st₁ = (b.zoneTurn v st y).1 := by rw [hturn]
        rw [hst₁] at hkept
        rcases zoneTurn_zoneCache hkept with hkept | hfound
        · exact Or.inl hkept
        · exact Or.inr ⟨y, List.mem_cons_self, hfound⟩
      · exact Or.inr ⟨x, List.mem_cons_of_mem _ hx, hfound⟩

theorem LooksAt.mem_candidates (h : LooksAt b D c pair st z r st') :
    (z, r) ∈ b.candidates D c pair st := by
  obtain ⟨ca, bias, zones, pre, post, st₀, score, hstage, -, hzones, hpre, -, hbias, hrej⟩ := h
  have hz : z ∈ zones := by rw [hzones]; simp
  unfold Backtest.candidates
  rw [hstage]
  refine List.mem_flatMap.mpr ⟨z, List.mem_filter.mpr ⟨hz, by rw [hbias]; rfl⟩, ?_⟩
  refine List.mem_map.mpr ⟨(r, score), ?_, rfl⟩
  rcases rejResult_snd (congrArg Prod.snd hrej) with hkept | hfound
  · rw [ltfLoIdx_zoneCache] at hkept
    rcases scanZones_zoneCache hpre hkept with hkept | ⟨y, hy, hkey, hfound⟩
    · have hkept' : st.zoneCache (b.zoneKey (D.ltfView pair (b.analysisClose c) bias).pair z) =
          some ((D.ltfView pair (b.analysisClose c) bias).hiIdx, some (r, score)) := hkept
      refine List.mem_append_left _ ?_
      rw [hkept', Option.filter_some, decide_eq_true rfl, if_pos rfl]
      exact List.mem_singleton.mpr rfl
    · refine List.mem_append_right _ (List.mem_filterMap.mpr ⟨y, ?_, hfound⟩)
      have hy' : y ∈ zones := by rw [hzones]; exact List.mem_append_left _ hy
      exact List.mem_filter.mpr ⟨hy', decide_eq_true hkey⟩
  · exact List.mem_append_right _
      (List.mem_filterMap.mpr ⟨z, List.mem_filter.mpr ⟨hz, decide_eq_true rfl⟩, hfound⟩)

/-! ## Runs -/

/-- An operation emits nothing, or the signal its visit found. -/
theorem applyOp_results {op : BacktestOp} (h : b.applyOp D st op = .ok st') :
    (st'.results = st.results ∧ ∀ c pair, op = .visit c pair →
      ∀ st₁ z s, b.scan D (b.analysisClose c) pair st ≠ .ok (st₁, some (z, s))) ∨
      ∃ c pair st₁ z s res, op = .visit c pair ∧
        b.scan D (b.analysisClose c) pair st = .ok (st₁, some (z, s)) ∧
        st'.results = st.results ++ [⟨b.analysisClose c, s, res⟩] := by
  cases op with
  | expireLocks c => cases h; exact Or.inl ⟨rfl, fun c pair hop => by cases hop⟩
  | visit c pair =>
      rcases visit_cases h with hscan | ⟨st₁, z, s, res, hscan, -, rfl⟩
      · refine Or.inl ⟨(scan_onlyCaches hscan).results_eq, ?_⟩
        rintro _ _ ⟨⟩ st₁ z s hsome
        rw [hscan] at hsome
        cases hsome
      · refine Or.inr ⟨c, pair, st₁, z, s, res, rfl, hscan, ?_⟩
        rw [← (scan_onlyCaches hscan).results_eq]
        rfl

theorem looksAt_of_scan (h : b.scan D (b.analysisClose c) pair st = .ok (st', some (z, s))) :
    LooksAt b D c pair st z s.rejectionCandle st' ∧ ¬ Blocked b c pair z s.rejectionCandle st' ∧
      s.ltfInterval = pair.2 := by
  obtain ⟨r, hlooks, hs⟩ := scan_eq_some_iff.mp h
  obtain ⟨rfl, hltf, -⟩ := signalFor_trade hs
  refine ⟨hlooks, fun hblocked => ?_, hltf⟩
  rw [(signalFor_eq_none_iff _ pair rfl rfl).mpr hblocked] at hs
  cases hs

theorem scan_of_looksAt (h : LooksAt b D c pair st z r st') (hfree : ¬ Blocked b c pair z r st') :
    ∃ s, b.scan D (b.analysisClose c) pair st = .ok (st', some (z, s)) ∧
      s.rejectionCandle = r ∧ s.ltfInterval = pair.2 := by
  have hne := mt (signalFor_eq_none_iff (D.ltfView pair (b.analysisClose c) none) pair rfl rfl).mp
    hfree
  obtain ⟨s, hs⟩ := Option.ne_none_iff_exists'.mp hne
  obtain ⟨hrej, hltf, -⟩ := signalFor_trade hs
  exact ⟨s, scan_eq_some_iff.mpr ⟨r, h, hs⟩, hrej, hltf⟩

/-- What has been emitted stays in the results. -/
theorem results_mono {more : List BacktestOp} (h : b.runOps D ops = .ok st)
    (h' : b.runOps D (ops ++ more) = .ok st') : ∀ e ∈ st.results, e ∈ st'.results := by
  induction more using List.reverseRecOn generalizing st' with
  | nil =>
      rw [List.append_nil, h] at h'
      cases h'
      exact fun e he => he
  | append_singleton more op ih =>
      rw [← List.append_assoc] at h'
      obtain ⟨st₁, hpre, hop⟩ := runOps_append_singleton h'
      intro e he
      rcases applyOp_results hop with ⟨heq, -⟩ | ⟨_, _, _, _, _, _, -, -, heq⟩
      · rw [heq]; exact ih hpre e he
      · rw [heq]; exact List.mem_append_left _ (ih hpre e he)

theorem runOps_prefix {pre : List BacktestOp} (h : b.runOps D ops = .ok st) (hpre : pre <+: ops) :
    ∃ st₁, b.runOps D pre = .ok st₁ ∧ ∀ e ∈ st₁.results, e ∈ st.results := by
  obtain ⟨more, rfl⟩ := hpre
  cases hrun : b.runOps D pre with
  | error e =>
      unfold Backtest.runOps at h hrun
      rw [List.foldlM_append, hrun] at h
      cases h
  | ok st₁ => exact ⟨st₁, rfl, results_mono hrun h⟩

/-- The emissions of a run are timely exactly when each visit looks at timely or blocked
    rejections only. -/
theorem emissions_timely_iff (b : Backtest) (D : History) (h : b.runOps D ops = .ok st) :
    (∀ e ∈ st.results, e.Timely b) ↔
      ∀ pre c pair stPre, pre ++ [.visit c pair] <+: ops → b.runOps D pre = .ok stPre →
        UntimelyBlocked b D c pair stPre := by
  constructor
  · intro htimely pre c pair stPre hpre hrun z r st' hlooks
    by_cases hblocked : Blocked b c pair z r st'
    · exact Or.inr hblocked
    obtain ⟨s, hscan, hrej, hltf⟩ := scan_of_looksAt hlooks hblocked
    obtain ⟨st₁, hrun₁, hsub⟩ := runOps_prefix h hpre
    obtain ⟨st₀, hrun₀, hop⟩ := runOps_append_singleton hrun₁
    rw [hrun] at hrun₀
    cases hrun₀
    rcases applyOp_results hop with ⟨-, hno⟩ | ⟨_, _, st₂, z₂, s₂, res, hop₂, hscan₂, heq⟩
    · exact absurd hscan (hno c pair rfl st' z s)
    · cases hop₂
      rw [hscan] at hscan₂
      cases hscan₂
      have hmem := hsub ⟨b.analysisClose c, s, res⟩
        (heq ▸ List.mem_append_right _ (List.mem_singleton.mpr rfl))
      have ht := htimely _ hmem
      unfold Emission.Timely at ht
      rw [hrej, hltf] at ht
      exact Or.inl ht
  · intro hcond
    induction ops using List.reverseRecOn generalizing st with
    | nil =>
        cases h
        intro e he
        cases he
    | append_singleton ops op ih =>
        obtain ⟨st₀, hrun, hop⟩ := runOps_append_singleton h
        have hold := ih hrun (fun pre c pair stPre hpre =>
          hcond pre c pair stPre (hpre.trans (List.prefix_append _ _)))
        rcases applyOp_results hop with ⟨heq, -⟩ | ⟨c, pair, st₁, z, s, res, rfl, hscan, heq⟩
        · rw [heq]; exact hold
        intro e he
        rw [heq] at he
        rcases List.mem_append.mp he with he | he
        · exact hold e he
        obtain rfl := List.mem_singleton.mp he
        obtain ⟨hlooks, hfree, hltf⟩ := looksAt_of_scan hscan
        have ht := (hcond ops c pair st₀ List.prefix_rfl hrun z _ st₁ hlooks).resolve_right hfree
        unfold Emission.Timely
        rw [hltf]
        exact ht

/-- On one LTF whose candles lie on its grid, the backtest's staleness rule is the live
    engine's, if that allows two LTF candles of lag. -/
theorem timely_of_one_ltf (h : b.runOps D ops = .ok st) (hops : ops <+: b.schedule D)
    (hltf : ∀ pair ∈ b.pairs, pair.2 = b.masterLtf)
    (hgrid : ∀ c ∈ D.master b, c.timestamp % intervalMs b.masterLtf = 0)
    (hlag : staleMs b.masterLtf ≤ b.cfg.maxEmitLagMs) : ∀ e ∈ st.results, e.Timely b := by
  rw [emissions_timely_iff b D h]
  intro pre c pair stPre hpre _ z r st' _
  have hmem : BacktestOp.visit c pair ∈ b.schedule D :=
    (hpre.trans hops).subset (List.mem_append_right _ (List.mem_singleton.mpr rfl))
  obtain ⟨c', hc', hop⟩ := List.mem_flatMap.mp hmem
  obtain ⟨pair', hpair', heq⟩ : ∃ pair' ∈ b.pairs, BacktestOp.visit c' pair' = .visit c pair := by
    simpa [Backtest.stepOps] using hop
  cases heq
  have hpos := intervalMs_pos b.masterLtf
  have hclose : b.analysisClose c % intervalMs b.masterLtf = 0 := by
    unfold Backtest.analysisClose
    rw [Int.add_emod_right]
    exact hgrid c (List.mem_of_mem_drop hc')
  by_cases hstale : staleMs pair.2 < pairCurrentTs pair.2 (b.analysisClose c) - r.timestamp
  · exact Or.inr (Or.inr (Or.inr (Or.inl hstale)))
  · rw [← hltf pair hpair'] at hclose hlag
    exact Or.inl (timelyAt_of_age (Int.dvd_of_emod_eq_zero hclose) ((not_lt.mp hstale).trans hlag))

/-! ## First offers -/

/-- A visit of the pair has put the rejection to the builder for this zone: it looked at it young
    and with the lock free. -/
def OfferedIn (b : Backtest) (D : History) (ops : List BacktestOp) (pair : Interval × Interval)
    (z : HtfRange) (r : RejectionCandle) : Prop :=
  ∃ pre c stPre stLook, pre ++ [.visit c pair] <+: ops ∧ b.runOps D pre = .ok stPre ∧
    LooksAt b D c pair stPre z r stLook ∧
    (stPre.openDir (b.dirKey pair z.signalDirection)).isSome = false ∧
    ¬ staleMs pair.2 < pairCurrentTs pair.2 (b.analysisClose c) - r.timestamp

/-- The step closes a candle of the pair's LTF, and the age that the stale test measures is within
    the lag. -/
def FreshAtClose (b : Backtest) (c : Candle) (pair : Interval × Interval) (r : RejectionCandle) :
    Prop :=
  intervalMs pair.2 ∣ b.analysisClose c ∧
    pairCurrentTs pair.2 (b.analysisClose c) - r.timestamp ≤ b.cfg.maxEmitLagMs

instance (b : Backtest) (c : Candle) (pair : Interval × Interval) (r : RejectionCandle) :
    Decidable (FreshAtClose b c pair r) :=
  inferInstanceAs (Decidable (_ ∧ _))

/-- After the operations `pre`, that lead to `st`: of the rejections the visit may find, each that
    passes the skip tests on `st` is fresh or has been offered before. -/
def OffersInTime (b : Backtest) (D : History) (pre : List BacktestOp) (c : Candle)
    (pair : Interval × Interval) (st : BacktestState) : Prop :=
  ∀ e ∈ b.candidates D c pair st,
    Passes b (D.ltfView pair (b.analysisClose c) none) e.1 e.2 st →
      FreshAtClose b c pair e.2 ∨ OfferedIn b D pre pair e.1 e.2

theorem scanned_onlyCaches {ca : HtfCaches} {zones : List HtfRange} {st₀ : BacktestState}
    (h : b.scanZones v { st with caches := ca } zones = (st₀, none)) : OnlyCaches st st₀ := by
  have hscan := scanZones_onlyCaches b v { st with caches := ca } zones
  rw [h] at hscan
  exact ⟨hscan.1, hscan.2, hscan.3, hscan.4, hscan.5⟩

theorem LooksAt.onlyCaches (h : LooksAt b D c pair st z r st') : OnlyCaches st st' := by
  obtain ⟨ca, bias, zones, pre, post, st₀, score, -, -, -, hpre, -, -, hrej⟩ := h
  have hturn : OnlyCaches (b.ltfLoIdx (D.ltfView pair (b.analysisClose c) bias) z st₀).1
      (b.rejResult (D.ltfView pair (b.analysisClose c) bias) z
        (b.ltfLoIdx (D.ltfView pair (b.analysisClose c) bias) z st₀).2
        (b.ltfLoIdx (D.ltfView pair (b.analysisClose c) bias) z st₀).1).1 :=
    rejResult_onlyCaches _
  rw [hrej] at hturn
  exact (scanned_onlyCaches hpre).trans (ltfLoIdx_onlyCaches.trans hturn)

/-- The zone was below its limit before the visit. -/
theorem LooksAt.below (h : LooksAt b D c pair st z r st') :
    ¬ (b.zoneKey pair z ∈ st.deadZones ∨
      b.cfg.maxSignalCountPerZone ≤ st.zoneSignalCounts (b.zoneKey pair z)) := by
  obtain ⟨ca, bias, zones, pre, post, st₀, score, -, -, -, hpre, hlimit, -, -⟩ := h
  have hscan := scanned_onlyCaches hpre
  rwa [hscan.deadZones_eq, hscan.counts_eq] at hlimit

/-- A rejection looked at and not blocked has passed the tests before the visit. -/
theorem LooksAt.passes (h : LooksAt b D c pair st z r st') (hfree : ¬ Blocked b c pair z r st') :
    Passes b (D.ltfView pair (b.analysisClose c) none) z r st := by
  unfold Blocked at hfree
  rw [h.onlyCaches.seenRej_eq, h.onlyCaches.openDir_eq] at hfree
  exact ⟨h.below, fun hseen => hfree (Or.inl hseen), fun hlock => hfree (Or.inr (Or.inl hlock)),
    fun hage => hfree (Or.inr (Or.inr (Or.inl hage)))⟩

theorem applyOp_seenRej {op : BacktestOp} (h : b.applyOp D st op = .ok st') :
    st.seenRej ⊆ st'.seenRej := by
  cases op with
  | expireLocks c =>
      cases h
      exact Finset.Subset.refl _
  | visit c pair =>
      rcases visit_cases h with hscan | ⟨st₁, z, s, res, hscan, -, rfl⟩
      · rw [(scan_onlyCaches hscan).seenRej_eq]
      · rw [← (scan_onlyCaches hscan).seenRej_eq]
        exact Finset.subset_insert _ _

theorem seenRej_mono {more : List BacktestOp} (h : b.runOps D ops = .ok st)
    (h' : b.runOps D (ops ++ more) = .ok st') : st.seenRej ⊆ st'.seenRej := by
  induction more using List.reverseRecOn generalizing st' with
  | nil =>
      rw [List.append_nil, h] at h'
      cases h'
      exact Finset.Subset.refl _
  | append_singleton more op ih =>
      rw [← List.append_assoc] at h'
      obtain ⟨st₁, hpre, hop⟩ := runOps_append_singleton h'
      exact (ih hpre).trans (applyOp_seenRej hop)

/-- What has been offered is emitted and seen, or refused for good. -/
theorem OfferedIn.seen_or_refused (hoffered : OfferedIn b D ops pair z r)
    (h : b.runOps D ops = .ok st) :
    b.rejKey pair r ∈ st.seenRej ∨
      (evaluateSetup b.symbol pair.1 pair.2 z r
        ⟨b.symbol, pair.1, pair.2, r.timestamp, z.signalDirection⟩
        (b.profileOf pair.1 pair.2)).signal = none := by
  obtain ⟨pre, c, stPre, stLook, ⟨more, rfl⟩, hrun, hlooks, hlock, hyoung⟩ := hoffered
  have hsame := hlooks.onlyCaches
  obtain ⟨st₁, hrun₁, hseen₁⟩ : ∃ st₁, b.runOps D (pre ++ [.visit c pair]) = .ok st₁ ∧
      st₁.seenRej ⊆ st.seenRej := by
    obtain ⟨st₁, hrun₁, -⟩ := runOps_prefix h (List.prefix_append _ _)
    exact ⟨st₁, hrun₁, seenRej_mono hrun₁ h⟩
  obtain ⟨st₀, hrun₀, hop⟩ := runOps_append_singleton hrun₁
  rw [hrun] at hrun₀
  cases hrun₀
  by_cases hblocked : Blocked b c pair z r stLook
  · rcases hblocked with hseen | hheld | hold | hrefused
    · rw [hsame.seenRej_eq] at hseen
      exact Or.inl (hseen₁ (applyOp_seenRej hop hseen))
    · rw [hsame.openDir_eq, hlock] at hheld
      cases hheld
    · exact absurd hold hyoung
    · exact Or.inr hrefused
  · obtain ⟨s, hscan, rfl, -⟩ := scan_of_looksAt hlooks hblocked
    rcases visit_cases hop with hnone | ⟨st₂, z₂, s₂, res, hscan₂, -, rfl⟩
    · rw [hscan] at hnone
      cases hnone
    · rw [hscan] at hscan₂
      cases hscan₂
      exact Or.inl (hseen₁ (Finset.mem_insert_self _ _))

theorem twiceRun_emits :
    (twiceBacktest.runOps (twiceData [quietCandle 31200000])
      (twiceBacktest.schedule (twiceData [quietCandle 31200000]))).map
      (fun st => st.results.map
        (fun e => (e.analysisClose, e.signal.rejectionCandle.timestamp))) =
      .ok [(30300000, 30000000), (31200000, 30900000)] := by
  decide +kernel

/-- What a visit may find and offer is fresh, evaluated. -/
def Backtest.offersAt (b : Backtest) (D : History) (op : BacktestOp) (st : BacktestState) :
    Bool :=
  match op with
  | .expireLocks _ => true
  | .visit c pair =>
      (b.candidates D c pair st).all fun e =>
        decide (Passes b (D.ltfView pair (b.analysisClose c) none) e.1 e.2 st →
          FreshAtClose b c pair e.2)

/-- The first emission of the sample run is a 15-minute signal, at a close of the 5-minute
    candle only. -/
theorem sampleRun_first :
    (sampleBacktest.runOps (sampleData 8) (sampleBacktest.schedule (sampleData 8))).map
      (fun st => st.results.head?.map
        (fun e => (e.analysisClose, e.signal.ltfInterval, e.signal.rejectionCandle.timestamp))) =
      .ok (some (30300000, fifteenMin, 28800000)) := by
  decide +kernel

theorem sampleRun_not_timely :
    ∃ st, sampleBacktest.runOps (sampleData 8) (sampleBacktest.schedule (sampleData 8)) = .ok st ∧
      ∃ e ∈ st.results, ¬ e.Timely sampleBacktest := by
  obtain ⟨st, hrun, hfirst⟩ := runOps_of_map sampleRun_first
  obtain ⟨e, he, heq⟩ := Option.map_eq_some_iff.mp hfirst
  refine ⟨st, hrun, e, List.mem_of_mem_head? he, fun htimely => ?_⟩
  have hclose := htimely.ltf_close
  simp only [Prod.mk.injEq] at heq
  rw [heq.1, heq.2.1] at hclose
  revert hclose
  decide +kernel

end SignalEngine
