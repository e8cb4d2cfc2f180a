/-
  Look-ahead: what two backtests on different data emit, as long as the data agree.

  A signal is simulated to its end at once, on candles that have not closed yet. The time it
  closes at ends its direction lock, which gates the signals after it. The lock ends when the
  closing candle opens, or after the expiry time if the data end before the trade does.

  Proved: `noLookAhead`. Two runs on data that agree up to a step emit the same signals up to
  it, if each lock they have released by then belongs to a trade that closed on a candle closed
  by that step. The relation `Related` between the two runs is kept by every operation; the
  induction is on the operations.
-/
import SignalEngine.Backtest.Backtester

namespace SignalEngine

open Lib

/-! ## Data up to a time -/

/-- The candles of a timeframe that have closed by `x`. -/
def closedUpTo (i : Interval) (x : ℤ) (cs : List Candle) : List Candle :=
  cs.filter (fun c => decide (c.timestamp + intervalMs i ≤ x))

structure History.Sorted (D : History) : Prop where
  htf : ∀ i, SortedBy Candle.timestamp (D.htfCandles i)
  ltf : ∀ i, SortedBy Candle.timestamp (D.ltfCandles i)

/-- The data agree on every candle that has closed by `x`. -/
structure AgreeUpTo (x : ℤ) (D D' : History) : Prop where
  htf_eq : ∀ i, closedUpTo i x (D.htfCandles i) = closedUpTo i x (D'.htfCandles i)
  ltf_eq : ∀ i, closedUpTo i x (D.ltfCandles i) = closedUpTo i x (D'.ltfCandles i)

/-- The number of candles of a timeframe that have closed by `x`. -/
def History.closedCount (D : History) (x : ℤ) (ltf : Interval) : ℕ :=
  (closedUpTo ltf x (D.ltfCandles ltf)).length

variable {b : Backtest} {D D' : History} {x analysisClose : ℤ} {pair : Interval × Interval}
  {i : Interval} {cs : List Candle} {st st' st₁ st₁' : BacktestState} {v v' : LtfView}
  {K : Interval → ℕ} {z : HtfRange}

theorem closedUpTo_eq_filter (i : Interval) (x : ℤ) (cs : List Candle) :
    closedUpTo i x cs = cs.filter (fun c => decide (c.timestamp ≤ x - intervalMs i)) :=
  List.filter_congr fun c _ => by rw [Bool.eq_iff_iff]; simp only [decide_eq_true_eq]; omega

theorem closedUpTo_eq_take (h : SortedBy Candle.timestamp cs) :
    closedUpTo i x cs = cs.take (bisectRight Candle.timestamp cs (x - intervalMs i)) := by
  rw [closedUpTo_eq_filter, take_bisectRight h]

theorem length_closedUpTo (h : SortedBy Candle.timestamp cs) :
    (closedUpTo i x cs).length = bisectRight Candle.timestamp cs (x - intervalMs i) := by
  rw [closedUpTo_eq_take h, length_take_bisectRight]

/-- The candles after the closed ones have not closed. -/
theorem not_closed_of_mem_drop (h : SortedBy Candle.timestamp cs) {c : Candle}
    (hc : c ∈ cs.drop (closedUpTo i x cs).length) : x < c.timestamp + intervalMs i := by
  rw [length_closedUpTo h, drop_bisectRight h] at hc
  have := of_decide_eq_true (List.mem_filter.mp hc).2
  omega

theorem closedUpTo_append_drop (h : SortedBy Candle.timestamp cs) :
    closedUpTo i x cs ++ cs.drop (closedUpTo i x cs).length = cs := by
  rw [length_closedUpTo h, closedUpTo_eq_take h, List.take_append_drop]

/-- What has been visible by `y` is the same in data that agree beyond `y`. -/
theorem take_bisectRight_closedUpTo {cs' : List Candle} (h : SortedBy Candle.timestamp cs)
    (h' : SortedBy Candle.timestamp cs') (heq : closedUpTo i x cs = closedUpTo i x cs') {y : ℤ}
    (hy : y + intervalMs i ≤ x) :
    cs.take (bisectRight Candle.timestamp cs y) =
      cs'.take (bisectRight Candle.timestamp cs' y) := by
  rw [closedUpTo_eq_filter, closedUpTo_eq_filter] at heq
  exact take_bisectRight_of_filter h h' (by omega) heq

theorem pairCurrentTs_closed (ltf : Interval) (analysisClose : ℤ) :
    pairCurrentTs ltf analysisClose + intervalMs ltf ≤ analysisClose := by
  have := Int.ediv_mul_le analysisClose (intervalMs_pos ltf).ne'
  unfold pairCurrentTs
  omega

theorem AgreeUpTo.htfVisible_eq (h : AgreeUpTo x D D') (hD : D.Sorted) (hD' : D'.Sorted)
    (hx : analysisClose ≤ x) (htf : Interval) :
    D.htfVisible htf analysisClose = D'.htfVisible htf analysisClose :=
  take_bisectRight_closedUpTo (hD.htf htf) (hD'.htf htf) (h.htf_eq htf) (by omega)

theorem AgreeUpTo.ltfVisible_eq (h : AgreeUpTo x D D') (hD : D.Sorted) (hD' : D'.Sorted)
    (hx : analysisClose ≤ x) (ltf : Interval) :
    (D.ltfCandles ltf).take (ltfHiIdx ltf (D.ltfCandles ltf) analysisClose) =
      (D'.ltfCandles ltf).take (ltfHiIdx ltf (D'.ltfCandles ltf) analysisClose) :=
  take_bisectRight_closedUpTo (hD.ltf ltf) (hD'.ltf ltf) (h.ltf_eq ltf)
    ((pairCurrentTs_closed ltf analysisClose).trans hx)

theorem AgreeUpTo.hiIdx_eq (h : AgreeUpTo x D D') (hD : D.Sorted) (hD' : D'.Sorted)
    (hx : analysisClose ≤ x) (ltf : Interval) :
    ltfHiIdx ltf (D.ltfCandles ltf) analysisClose =
      ltfHiIdx ltf (D'.ltfCandles ltf) analysisClose := by
  have hlen := congrArg List.length (h.ltfVisible_eq hD hD' hx ltf)
  unfold ltfHiIdx at hlen ⊢
  rwa [length_take_bisectRight, length_take_bisectRight] at hlen

theorem hiIdx_le_closedCount (hD : D.Sorted) (hx : analysisClose ≤ x) (ltf : Interval) :
    ltfHiIdx ltf (D.ltfCandles ltf) analysisClose ≤ D.closedCount x ltf := by
  have hclosed := pairCurrentTs_closed ltf analysisClose
  rw [History.closedCount, length_closedUpTo (hD.ltf ltf)]
  exact bisectRight_mono (hD.ltf ltf) (by omega)

/-! ## Two states that look alike -/

/-- The views of one visit on two data sets: the same visible candles, and insertion points
    that differ beyond the `K` closed candles at most. -/
structure SameView (K : Interval → ℕ) (v v' : LtfView) : Prop where
  pair_eq : v'.pair = v.pair
  bias_eq : v'.bias = v.bias
  pairCurrentTs_eq : v'.pairCurrentTs = v.pairCurrentTs
  hiIdx_eq : v'.hiIdx = v.hiIdx
  visible_eq : v'.visible = v.visible
  visible_le : v.visible.length ≤ K v.pair.2
  loIdx_eq : ∀ ts, min (v'.loIdx ts) (K v.pair.2) = min (v.loIdx ts) (K v.pair.2)

/-- The states agree on what a visit reads, except for cached insertion points beyond `K`. -/
structure SameTables (K : Interval → ℕ) (st st' : BacktestState) : Prop where
  deadZones_eq : st'.deadZones = st.deadZones
  counts_eq : st'.zoneSignalCounts = st.zoneSignalCounts
  seenRej_eq : st'.seenRej = st.seenRej
  held_eq : ∀ k, (st'.openDir k).isSome = (st.openDir k).isSome
  caches_eq : st'.caches = st.caches
  zoneCache_eq : st'.zoneCache = st.zoneCache
  zoneLo_eq : ∀ k, (st'.zoneLo k).map (min · (K k.ltfInterval)) =
    (st.zoneLo k).map (min · (K k.ltfInterval))

theorem AgreeUpTo.sameView (h : AgreeUpTo x D D') (hD : D.Sorted) (hD' : D'.Sorted)
    (hx : analysisClose ≤ x) (pair : Interval × Interval) (bias : Option StructureResult) :
    SameView (D.closedCount x) (D.ltfView pair analysisClose bias)
      (D'.ltfView pair analysisClose bias) where
  pair_eq := rfl
  bias_eq := rfl
  pairCurrentTs_eq := rfl
  hiIdx_eq := (h.hiIdx_eq hD hD' hx pair.2).symm
  visible_eq := (h.ltfVisible_eq hD hD' hx pair.2).symm
  visible_le := (List.length_take_le _ _).trans (hiIdx_le_closedCount hD hx pair.2)
  loIdx_eq := fun ts => by
    have hcut := fun (E : History) (hE : E.Sorted) =>
      bisectLeft_filter (hE.ltf pair.2) ts (x - intervalMs pair.2)
    have hlo := (hcut D hD).symm.trans ((congrArg (bisectLeft Candle.timestamp · ts)
      (by rw [← closedUpTo_eq_filter, ← closedUpTo_eq_filter, h.ltf_eq])).trans (hcut D' hD'))
    rw [← length_closedUpTo (hD.ltf pair.2), ← length_closedUpTo (hD'.ltf pair.2),
      ← h.ltf_eq] at hlo
    exact hlo.symm

theorem drop_eq_of_min {xs : List Candle} {n lo lo' : ℕ} (hlen : xs.length ≤ n)
    (h : min lo' n = min lo n) : xs.drop lo' = xs.drop lo := by
  rcases le_total lo n with hlo | hlo
  · rcases le_total lo' n with hlo' | hlo'
    · rw [min_eq_left hlo, min_eq_left hlo'] at h
      rw [h]
    · rw [List.drop_eq_nil_of_le (by omega), List.drop_eq_nil_of_le (by omega)]
  · rw [List.drop_eq_nil_of_le (by omega), List.drop_eq_nil_of_le (by omega)]

/-! ## The zone loop on both -/

theorem SameTables.ltfLoIdx (h : SameTables K st st') (hv : SameView K v v') (z : HtfRange) :
    SameTables K (b.ltfLoIdx v z st).1 (b.ltfLoIdx v' z st').1 ∧
      min (b.ltfLoIdx v' z st').2 (K v.pair.2) = min (b.ltfLoIdx v z st).2 (K v.pair.2) := by
  have hlo := h.zoneLo_eq (b.zoneKey v.pair z)
  unfold Backtest.ltfLoIdx
  rw [hv.pair_eq]
  cases hst : st.zoneLo (b.zoneKey v.pair z) with
  | some lo =>
      rw [hst] at hlo
      obtain ⟨lo', hst', hmin⟩ := Option.map_eq_some_iff.mp hlo
      rw [hst']
      exact ⟨h, hmin⟩
  | none =>
      rw [hst] at hlo
      rw [Option.map_eq_none_iff.mp hlo]
      refine ⟨⟨h.1, h.2, h.3, h.4, h.5, h.6, fun k => ?_⟩, hv.loIdx_eq _⟩
      by_cases hk : k = b.zoneKey v.pair z
      · subst hk
        simp only [Function.update_self, Option.map_some]
        exact congrArg some (hv.loIdx_eq _)
      · simp only [Function.update_of_ne hk]
        exact h.zoneLo_eq k

theorem SameTables.rejResult (h : SameTables K st st') (hv : SameView K v v') (z : HtfRange)
    {lo lo' : ℕ} (hlo : min lo' (K v.pair.2) = min lo (K v.pair.2)) :
    SameTables K (b.rejResult v z lo st).1 (b.rejResult v' z lo' st').1 ∧
      (b.rejResult v' z lo' st').2 = (b.rejResult v z lo st).2 := by
  unfold Backtest.rejResult
  rw [hv.pair_eq, hv.hiIdx_eq, hv.visible_eq, h.zoneCache_eq, drop_eq_of_min hv.visible_le hlo]
  split
  · exact ⟨h, rfl⟩
  · exact ⟨⟨h.1, h.2, h.3, h.4, h.5, rfl, h.7⟩, rfl⟩

theorem SameTables.signalFor (h : SameTables K st st') (hv : SameView K v v') (z : HtfRange)
    (r : RejectionCandle) : b.signalFor v' z r st' = b.signalFor v z r st := by
  unfold Backtest.signalFor
  rw [hv.pair_eq, hv.pairCurrentTs_eq, h.seenRej_eq, h.held_eq, h.counts_eq]

theorem SameTables.zoneTurn (h : SameTables K st st') (hv : SameView K v v') (z : HtfRange) :
    SameTables K (b.zoneTurn v st z).1 (b.zoneTurn v' st' z).1 ∧
      (b.zoneTurn v' st' z).2 = (b.zoneTurn v st z).2 := by
  obtain ⟨hlo, hmin⟩ := h.ltfLoIdx (b := b) hv z
  obtain ⟨hrej, heq⟩ := hlo.rejResult (b := b) hv z hmin
  unfold Backtest.zoneTurn
  dsimp only
  rw [hv.pair_eq, hv.bias_eq, h.deadZones_eq, h.counts_eq]
  split
  · exact ⟨h, rfl⟩
  split
  · exact ⟨hlo, rfl⟩
  · refine ⟨hrej, ?_⟩
    dsimp only
    rw [heq]
    exact congrArg _ (funext fun e => hrej.signalFor hv z e.1)

theorem SameTables.scanZones (hv : SameView K v v') (zs : List HtfRange)
    (st st' : BacktestState) (h : SameTables K st st') :
    SameTables K (b.scanZones v st zs).1 (b.scanZones v' st' zs).1 ∧
      (b.scanZones v' st' zs).2 = (b.scanZones v st zs).2 := by
  induction zs generalizing st st' with
  | nil => exact ⟨h, rfl⟩
  | cons z zs ih =>
      obtain ⟨hturn, heq⟩ := h.zoneTurn (b := b) hv z
      rw [Backtest.scanZones, Backtest.scanZones]
      generalize b.zoneTurn v st z = r at hturn heq ⊢
      generalize b.zoneTurn v' st' z = r' at hturn heq ⊢
      obtain ⟨st₁, o⟩ := r
      obtain ⟨st₁', o'⟩ := r'
      dsimp only at heq
      subst heq
      cases o' with
      | some s => exact ⟨hturn, rfl⟩
      | none => exact ih st₁ st₁' hturn

/-- A visit finds the same signal in both. -/
theorem SameTables.scan (h : SameTables K st st') (hK : K = D.closedCount x)
    (hagree : AgreeUpTo x D D') (hD : D.Sorted) (hD' : D'.Sorted) (hx : analysisClose ≤ x)
    {o o' : Option (HtfRange × TradeSignal)}
    (hscan : b.scan D analysisClose pair st = .ok (st₁, o))
    (hscan' : b.scan D' analysisClose pair st' = .ok (st₁', o')) :
    SameTables K st₁ st₁' ∧ o' = o := by
  unfold Backtest.scan at hscan hscan'
  rw [h.caches_eq, ← hagree.htfVisible_eq hD hD' hx, ← hagree.hiIdx_eq hD hD' hx] at hscan'
  split at hscan
  · cases hscan
  · next ca hstage =>
      rw [hstage] at hscan'
      cases hscan
      cases hscan'
      exact ⟨⟨h.1, h.2, h.3, h.4, rfl, h.6, h.7⟩, rfl⟩
  next ca bias zones hstage =>
  rw [hstage] at hscan'
  dsimp only at hscan'
  split at hscan
  · next hhi =>
      rw [if_pos hhi] at hscan'
      cases hscan
      cases hscan'
      exact ⟨⟨h.1, h.2, h.3, h.4, rfl, h.6, h.7⟩, rfl⟩
  next hhi =>
  rw [if_neg hhi] at hscan'
  subst hK
  have hzones := SameTables.scanZones (b := b) (hagree.sameView hD hD' hx pair bias) zones
    { st with caches := ca } { st' with caches := ca }
    ⟨h.1, h.2, h.3, h.4, rfl, h.6, h.7⟩
  rw [Except.ok.inj hscan, Except.ok.inj hscan'] at hzones
  exact hzones

/-! ## Emissions -/

/-- What a run shows of an emission. -/
structure EmissionView where
  id : SignalId
  entryPrice : ℚ
  stopLoss : ℚ
  tp1 : ℚ
  tp2 : ℚ
  zoneAttempt : ℕ
  deriving DecidableEq, Repr

def TradeSignal.view (s : TradeSignal) : EmissionView :=
  ⟨s.id, s.entryPrice, s.stopLoss, s.tp1, s.tp2, s.zoneAttempt⟩

/-- The step of an emission, and the signal its result carries. -/
def Emission.view (e : Emission) : ℤ × EmissionView := (e.analysisClose, e.result.signal.view)

theorem SameTrade.view_eq {s s' : TradeSignal} (h : SameTrade s s') : s'.view = s.view := by
  unfold TradeSignal.view
  rw [h.id_eq, h.entryPrice_eq, h.stopLoss_eq, h.tp1_eq, h.tp2_eq, h.zoneAttempt_eq]

/-- The trade has closed, on a candle that has closed by `x`. -/
def Emission.ClosedUpTo (x : ℤ) (e : Emission) : Prop :=
  ∃ ts, e.result.closeTs = some ts ∧ ts + intervalMs e.signal.ltfInterval ≤ x

/-- The same signal at the same step; its result is the same too if it is known by `x`. -/
structure SameEmission (x : ℤ) (e e' : Emission) : Prop where
  analysisClose_eq : e'.analysisClose = e.analysisClose
  signal_eq : e'.signal = e.signal
  view_eq : e'.result.signal.view = e.result.signal.view
  result_cases : e'.result = e.result ∨ ¬ e.ClosedUpTo x ∧ ¬ e'.ClosedUpTo x

/-- The candles after the first `n`: the closed ones, and some that have not closed. -/
theorem drop_eq_closedUpTo_append (h : SortedBy Candle.timestamp cs) (n : ℕ) :
    ∃ rest, cs.drop n = (closedUpTo i x cs).drop n ++ rest ∧
      ∀ c ∈ rest, x < c.timestamp + intervalMs i := by
  refine ⟨(cs.drop (closedUpTo i x cs).length).drop (n - (closedUpTo i x cs).length), ?_,
    fun c hc => not_closed_of_mem_drop h (List.mem_of_mem_drop hc)⟩
  rw [← List.drop_append, closedUpTo_append_drop h]

/-- Simulations of one signal that part after the closed candles give the same emission. -/
theorem sameEmission_of_simulate {p : AssetProfile} {pct : ℚ} {s : TradeSignal}
    {F G G' : List Candle} {r r' : BacktestResult} (hs : Running s)
    (hG : ∀ c ∈ G, x < c.timestamp + intervalMs s.ltfInterval)
    (hG' : ∀ c ∈ G', x < c.timestamp + intervalMs s.ltfInterval)
    (hr : simulate p pct s (F ++ G) = .ok r) (hr' : simulate p pct s (F ++ G') = .ok r') :
    SameEmission x ⟨analysisClose, s, r⟩ ⟨analysisClose, s, r'⟩ := by
  have hview : r'.signal.view = r.signal.view :=
    (sameTrade_simulate hr').view_eq.trans (sameTrade_simulate hr).view_eq.symm
  refine ⟨rfl, rfl, hview, ?_⟩
  rcases simulate_append hs hr with ⟨c, -, hts, hF⟩ | ⟨⟨q, hq, hqts⟩, hlater⟩
  · rcases simulate_append hs hr' with ⟨c', -, -, hF'⟩ | ⟨⟨q, hq, hqts⟩, -⟩
    · rw [hF] at hF'
      exact Or.inl (Except.ok.inj hF').symm
    · rw [hF] at hq
      cases hq
      rw [hts] at hqts
      cases hqts
  · rcases simulate_append hs hr' with ⟨c', -, hts', hF'⟩ | ⟨-, hlater'⟩
    · rw [hq] at hF'
      cases hF'
      rw [hts'] at hqts
      cases hqts
    · refine Or.inr ⟨?_, ?_⟩
      · rintro ⟨ts, hts, hle⟩
        obtain ⟨c, hc, rfl⟩ := hlater ts hts
        exact absurd (hG c hc) (not_lt.mpr hle)
      · rintro ⟨ts, hts, hle⟩
        obtain ⟨c, hc, rfl⟩ := hlater' ts hts
        exact absurd (hG' c hc) (not_lt.mpr hle)

/-! ## Two runs that look alike -/

/-- The lock is free in both states, or held by the same emission. -/
def SameLock (b : Backtest) (x : ℤ) (st st' : BacktestState) (k : DirKey) : Prop :=
  (st.openDir k = none ∧ st'.openDir k = none) ∨
    ∃ e ∈ st.results, ∃ e' ∈ st'.results, SameEmission x e e' ∧
      st.openDir k = some (b.lockUntil e.signal e.result) ∧
      st'.openDir k = some (b.lockUntil e'.signal e'.result)

structure Related (b : Backtest) (x : ℤ) (K : Interval → ℕ) (st st' : BacktestState) : Prop where
  tables : SameTables K st st'
  results : List.Forall₂ (SameEmission x) st.results st'.results
  locks : ∀ k, SameLock b x st st' k

/-- The locks that end by the opening of `c` belong to trades that have closed by its close,
    on candles that have closed too. -/
def ReleasesClosed (b : Backtest) (c : Candle) (st : BacktestState) : Prop :=
  ∀ e ∈ st.results, b.lockUntil e.signal e.result ≤ c.timestamp →
    e.ClosedUpTo (b.analysisClose c)

theorem related_init (b : Backtest) (x : ℤ) (K : Interval → ℕ) : Related b x K {} {} where
  tables := ⟨rfl, rfl, rfl, fun _ => rfl, rfl, rfl, fun _ => rfl⟩
  results := .nil
  locks := fun _ => Or.inl ⟨rfl, rfl⟩

theorem SameLock.isSome_eq {k : DirKey} (h : SameLock b x st st' k) :
    (st'.openDir k).isSome = (st.openDir k).isSome := by
  rcases h with ⟨h, h'⟩ | ⟨e, -, e', -, -, h, h'⟩
  · rw [h, h']
  · rw [h, h']
    rfl

theorem Emission.ClosedUpTo.mono {e : Emission} {y : ℤ} (h : e.ClosedUpTo y) (hy : y ≤ x) :
    e.ClosedUpTo x := by
  obtain ⟨ts, hts, hle⟩ := h
  exact ⟨ts, hts, hle.trans hy⟩

/-- A lock that ends does so in both runs. -/
theorem SameEmission.lock_ends_iff {c : Candle} {e e' : Emission} (h : SameEmission x e e')
    (hx : b.analysisClose c ≤ x) (hc : ReleasesClosed b c st) (hc' : ReleasesClosed b c st')
    (he : e ∈ st.results) (he' : e' ∈ st'.results) :
    b.lockUntil e'.signal e'.result ≤ c.timestamp ↔
      b.lockUntil e.signal e.result ≤ c.timestamp := by
  rcases h.result_cases with heq | ⟨hopen, hopen'⟩
  · rw [heq, h.signal_eq]
  · exact ⟨fun hle => absurd ((hc' e' he' hle).mono hx) hopen',
      fun hle => absurd ((hc e he hle).mono hx) hopen⟩

theorem Related.expireLocks {c : Candle} (h : Related b x K st st') (hx : b.analysisClose c ≤ x)
    (hc : ReleasesClosed b c st) (hc' : ReleasesClosed b c st') :
    Related b x K (Backtest.expireLocks c st) (Backtest.expireLocks c st') := by
  have hlocks : ∀ k, SameLock b x (Backtest.expireLocks c st) (Backtest.expireLocks c st') k := by
    intro k
    unfold SameLock Backtest.expireLocks
    dsimp only
    rcases h.locks k with ⟨hk, hk'⟩ | ⟨e, he, e', he', hsame, hk, hk'⟩
    · rw [hk, hk']
      exact Or.inl ⟨rfl, rfl⟩
    · have hiff := hsame.lock_ends_iff hx hc hc' he he'
      rw [hk, hk', Option.filter_some, Option.filter_some]
      by_cases hle : b.lockUntil e.signal e.result ≤ c.timestamp
      · rw [decide_eq_true hle, decide_eq_true (hiff.mpr hle)]
        exact Or.inl ⟨rfl, rfl⟩
      · rw [decide_eq_false hle, decide_eq_false (mt hiff.mp hle)]
        exact Or.inr ⟨e, he, e', he', hsame, rfl, rfl⟩
  have ht := h.tables
  exact ⟨⟨ht.1, ht.2, ht.3, fun k => (hlocks k).isSome_eq, ht.5, ht.6, ht.7⟩, h.results, hlocks⟩

theorem SameLock.mono {k : DirKey} (h : SameLock b x st st' k)
    (hopen : st₁.openDir k = st.openDir k) (hopen' : st₁'.openDir k = st'.openDir k)
    (hres : ∀ e ∈ st.results, e ∈ st₁.results) (hres' : ∀ e ∈ st'.results, e ∈ st₁'.results) :
    SameLock b x st₁ st₁' k := by
  unfold SameLock
  rw [hopen, hopen']
  rcases h with h | ⟨e, he, e', he', hsame, hk, hk'⟩
  · exact Or.inl h
  · exact Or.inr ⟨e, hres e he, e', hres' e' he', hsame, hk, hk'⟩

/-- Scanning touches caches only. -/
theorem Related.of_onlyCaches (h : Related b x K st st') (ht : SameTables K st₁ st₁')
    (hst : OnlyCaches st st₁) (hst' : OnlyCaches st' st₁') : Related b x K st₁ st₁' where
  tables := ht
  results := by rw [hst.results_eq, hst'.results_eq]; exact h.results
  locks := fun k => (h.locks k).mono (by rw [hst.openDir_eq]) (by rw [hst'.openDir_eq])
    (by rw [hst.results_eq]; exact fun _ he => he)
    (by rw [hst'.results_eq]; exact fun _ he => he)

theorem Related.record (h : Related b x K st st') {s : TradeSignal} {r r' : BacktestResult}
    (he : SameEmission x ⟨analysisClose, s, r⟩ ⟨analysisClose, s, r'⟩) :
    Related b x K (b.record analysisClose pair z s r st)
      (b.record analysisClose pair z s r' st') := by
  have hlocks : ∀ k, SameLock b x (b.record analysisClose pair z s r st)
      (b.record analysisClose pair z s r' st') k := by
    intro k
    by_cases hk : k = b.dirKey pair z.signalDirection
    · subst hk
      refine Or.inr ⟨_, List.mem_append_right _ (List.mem_singleton.mpr rfl), _,
        List.mem_append_right _ (List.mem_singleton.mpr rfl), he, ?_, ?_⟩
      · exact Function.update_self ..
      · exact Function.update_self ..
    · exact (h.locks k).mono (Function.update_of_ne hk ..) (Function.update_of_ne hk ..)
        (fun _ he => List.mem_append_left _ he) (fun _ he => List.mem_append_left _ he)
  have ht := h.tables
  refine ⟨⟨?_, ?_, ?_, fun k => (hlocks k).isSome_eq, ht.caches_eq, ?_, fun k => ?_⟩,
    List.rel_append h.results (.cons he .nil), hlocks⟩
  · simp only [Backtest.record, ht.deadZones_eq]
  · simp only [Backtest.record, ht.counts_eq]
  · simp only [Backtest.record, ht.seenRej_eq]
  · simp only [Backtest.record, ht.zoneCache_eq]
  · simp only [Backtest.record]
    split
    · by_cases hk : k = b.zoneKey pair z
      · subst hk
        rw [Function.update_self, Function.update_self]
      · rw [Function.update_of_ne hk, Function.update_of_ne hk]
        exact ht.zoneLo_eq k
    · exact ht.zoneLo_eq k

theorem Related.visit (h : Related b x (D.closedCount x) st st') (hagree : AgreeUpTo x D D')
    (hD : D.Sorted) (hD' : D'.Sorted) (hx : analysisClose ≤ x)
    (hvisit : b.visit D analysisClose pair st = .ok st₁)
    (hvisit' : b.visit D' analysisClose pair st' = .ok st₁') :
    Related b x (D.closedCount x) st₁ st₁' := by
  have hscans : ∀ {q q' o o'}, b.scan D analysisClose pair st = .ok (q, o) →
      b.scan D' analysisClose pair st' = .ok (q', o') →
      SameTables (D.closedCount x) q q' ∧ o' = o :=
    fun hscan hscan' => h.tables.scan rfl hagree hD hD' hx hscan hscan'
  rcases visit_cases hvisit with hscan | ⟨q, z, s, r, hscan, hsim, rfl⟩
  · rcases visit_cases hvisit' with hscan' | ⟨_, _, _, _, hscan', -, -⟩
    · exact h.of_onlyCaches (hscans hscan hscan').1 (scan_onlyCaches hscan)
        (scan_onlyCaches hscan')
    · cases (hscans hscan hscan').2
  · rcases visit_cases hvisit' with hscan' | ⟨q', z', s', r', hscan', hsim', rfl⟩
    · cases (hscans hscan hscan').2
    obtain ⟨ht, heq⟩ := hscans hscan hscan'
    cases heq
    refine (h.of_onlyCaches ht (scan_onlyCaches hscan) (scan_onlyCaches hscan')).record ?_
    obtain ⟨hltf, hrun⟩ := scan_signal hscan
    unfold backtestFeed at hsim hsim'
    rw [← hagree.hiIdx_eq hD hD' hx] at hsim'
    obtain ⟨G, hG, hlater⟩ := drop_eq_closedUpTo_append (i := pair.2) (x := x) (hD.ltf pair.2)
      (ltfHiIdx pair.2 (D.ltfCandles pair.2) analysisClose - 1 + 1)
    obtain ⟨G', hG', hlater'⟩ := drop_eq_closedUpTo_append (i := pair.2) (x := x)
      (hD'.ltf pair.2) (ltfHiIdx pair.2 (D.ltfCandles pair.2) analysisClose - 1 + 1)
    rw [hG] at hsim
    rw [hG', ← hagree.ltf_eq] at hsim'
    rw [← hltf] at hlater hlater'
    exact sameEmission_of_simulate hrun hlater hlater' hsim hsim'

/-! ## Whole runs -/

/-- In the run of `ops`, every lock that a step releases is one of a closed trade. -/
def LocksSettled (b : Backtest) (D : History) (ops : List BacktestOp) : Prop :=
  ∀ pre c stPre, pre ++ [.expireLocks c] <+: ops → b.runOps D pre = .ok stPre →
    ReleasesClosed b c stPre

/-- The master candle of an operation. -/
def BacktestOp.candle : BacktestOp → Candle
  | .expireLocks c | .visit c _ => c

theorem runOps_related (hagree : AgreeUpTo x D D') (hD : D.Sorted) (hD' : D'.Sorted)
    {ops : List BacktestOp} (hx : ∀ op ∈ ops, b.analysisClose op.candle ≤ x)
    (hrun : b.runOps D ops = .ok st) (hrun' : b.runOps D' ops = .ok st')
    (hlocks : LocksSettled b D ops) (hlocks' : LocksSettled b D' ops) :
    Related b x (D.closedCount x) st st' := by
  induction ops using List.reverseRecOn generalizing st st' with
  | nil =>
      cases hrun
      cases hrun'
      exact related_init b x _
  | append_singleton ops op ih =>
      obtain ⟨st₀, hpre, hop⟩ := runOps_append_singleton hrun
      obtain ⟨st₀', hpre', hop'⟩ := runOps_append_singleton hrun'
      have hold := ih (fun o ho => hx o (List.mem_append_left _ ho)) hpre hpre'
        (fun pre c q hq => hlocks pre c q (hq.trans (List.prefix_append _ _)))
        (fun pre c q hq => hlocks' pre c q (hq.trans (List.prefix_append _ _)))
      have hxop := hx op (List.mem_append_right _ (List.mem_singleton.mpr rfl))
      cases op with
      | expireLocks c =>
          cases hop
          cases hop'
          exact hold.expireLocks hxop (hlocks ops c st₀ List.prefix_rfl hpre)
            (hlocks' ops c st₀' List.prefix_rfl hpre')
      | visit c pair => exact hold.visit hagree hD hD' hxop hop hop'

/-- Data that agree up to the close of a master candle have the same steps up to it. -/
theorem scheduleTo_eq (hagree : AgreeUpTo x D D') (hD : D.Sorted) (hD' : D'.Sorted) {t : ℕ}
    {c : Candle} (hc : (D.master b)[t]? = some c) (hx : b.analysisClose c = x) :
    b.scheduleTo D' t = b.scheduleTo D t ∧
      ∀ op ∈ b.scheduleTo D t, b.analysisClose op.candle ≤ x := by
  have hlen : t + 1 ≤ (closedUpTo b.masterLtf x (D.master b)).length := by
    rw [History.master, length_closedUpTo (hD.ltf _), ← hx, Backtest.analysisClose,
      add_sub_cancel_right]
    exact lt_bisectRight (hD.ltf _) hc
  have htake : ∀ E : History, E.Sorted →
      closedUpTo b.masterLtf x (E.master b) = closedUpTo b.masterLtf x (D.master b) →
      (E.master b).take (t + 1) = (closedUpTo b.masterLtf x (D.master b)).take (t + 1) := by
    intro E hE heq
    rw [← heq] at hlen ⊢
    have hsplit := closedUpTo_append_drop (i := b.masterLtf) (x := x) (hE.ltf b.masterLtf)
    conv_lhs => rw [History.master, ← hsplit]
    exact List.take_append_of_le_length hlen
  refine ⟨?_, fun op hop => ?_⟩
  · unfold Backtest.scheduleTo
    rw [htake D' hD' (hagree.ltf_eq _).symm, htake D hD rfl]
  · unfold Backtest.scheduleTo at hop
    rw [htake D hD rfl] at hop
    obtain ⟨d, hd, hop⟩ := List.mem_flatMap.mp hop
    have hcandle : op.candle = d := by
      rcases List.mem_cons.mp hop with rfl | hop
      · rfl
      · obtain ⟨_, -, rfl⟩ := List.mem_map.mp hop
        rfl
    rw [hcandle]
    exact of_decide_eq_true
      (List.mem_filter.mp (List.mem_of_mem_take (List.mem_of_mem_drop hd))).2

/-- **No look-ahead**: two runs on data that agree on every candle closed by a step emit the same
    signals up to it, if the locks they release belong to trades closed on closed candles. -/
theorem noLookAhead (b : Backtest) (hD : D.Sorted) (hD' : D'.Sorted) {t : ℕ} {c : Candle}
    (hc : (D.master b)[t]? = some c) (hagree : AgreeUpTo (b.analysisClose c) D D')
    (hrun : b.runOps D (b.scheduleTo D t) = .ok st)
    (hrun' : b.runOps D' (b.scheduleTo D' t) = .ok st')
    (hlocks : LocksSettled b D (b.scheduleTo D t))
    (hlocks' : LocksSettled b D' (b.scheduleTo D' t)) :
    st'.results.map Emission.view = st.results.map Emission.view := by
  obtain ⟨hsched, hx⟩ := scheduleTo_eq hagree hD hD' hc rfl
  rw [hsched] at hrun' hlocks'
  have hrel := (runOps_related hagree hD hD' hx hrun hrun' hlocks hlocks').results
  generalize st.results = es at hrel
  generalize st'.results = es' at hrel
  induction hrel with
  | nil => rfl
  | cons he _ ih =>
      rw [List.map_cons, List.map_cons, ih, Emission.view, Emission.view, he.analysisClose_eq,
        he.view_eq]

/-! ## A lock that ends with a candle still open -/

/-- The step that closes the last 5-minute candle. -/
def lastClose : ℤ := 30900000

theorem sampleData_sorted (low : ℚ) : (sampleData low).Sorted where
  htf := fun i => by
    change SortedBy Candle.timestamp sampleHourly
    unfold SortedBy
    decide +kernel
  ltf := fun i => by
    have hfive : SortedBy Candle.timestamp sampleFive := by unfold SortedBy; decide +kernel
    have hfifteen : ((sampleFifteen low).map Candle.timestamp).Pairwise (· ≤ ·) := by
      have hmap : (sampleFifteen low).map Candle.timestamp =
          (sampleFifteen 0).map Candle.timestamp := rfl
      rw [hmap]
      decide +kernel
    simp only [sampleData]
    split
    · exact hfive
    split
    · exact List.pairwise_map.mp hfifteen
    · exact List.Pairwise.nil

theorem sampleData_agree (low low' : ℚ) :
    AgreeUpTo lastClose (sampleData low) (sampleData low') where
  htf_eq := fun _ => rfl
  ltf_eq := fun i => by
    simp only [sampleData]
    split
    · rfl
    split
    · next h =>
        subst h
        rfl
    · rfl

theorem sampleRuns_length :
    (sampleBacktest.runOps (sampleData 8) (sampleBacktest.scheduleTo (sampleData 8) 102)).map
      (fun st => st.results.length) = .ok 2 ∧
    (sampleBacktest.runOps (sampleData (82 / 10))
      (sampleBacktest.scheduleTo (sampleData (82 / 10)) 102)).map
      (fun st => st.results.length) = .ok 1 := by
  constructor <;> decide +kernel

/-- The 15-minute candle open at 8:30 stops the first trade, or does not, after 8:35. What it
    will do decides whether the second signal comes out at 8:35. -/
theorem open_candle_frees_lock :
    ¬ ∀ (b : Backtest) (D D' : History) (t : ℕ) (c : Candle) (st st' : BacktestState),
      D.Sorted → D'.Sorted → (D.master b)[t]? = some c → AgreeUpTo (b.analysisClose c) D D' →
      b.runOps D (b.scheduleTo D t) = .ok st → b.runOps D' (b.scheduleTo D' t) = .ok st' →
      st'.results.map Emission.view = st.results.map Emission.view := by
  intro h
  obtain ⟨hlen, hlen'⟩ := sampleRuns_length
  obtain ⟨st, hrun, hst⟩ := runOps_of_map hlen
  obtain ⟨st', hrun', hst'⟩ := runOps_of_map hlen'
  have hsame := congrArg List.length (h sampleBacktest (sampleData 8) (sampleData (82 / 10)) 102
    (quietCandle 30600000 (82 / 10)) st st' (sampleData_sorted 8) (sampleData_sorted _) rfl
    (sampleData_agree 8 (82 / 10)) hrun hrun')
  rw [List.length_map, List.length_map, hst, hst'] at hsame
  cases hsame

/-! ## Two entries, the lock of the first released before the second -/

/-- The condition of an operation, evaluated. -/
def Backtest.releasesAt (b : Backtest) (op : BacktestOp) (st : BacktestState) : Bool :=
  match op with
  | .visit _ _ => true
  | .expireLocks c =>
      st.results.all fun e =>
        !decide (b.lockUntil e.signal e.result ≤ c.timestamp) ||
          e.result.closeTs.any fun ts =>
            decide (ts + intervalMs e.signal.ltfInterval ≤ b.analysisClose c)

theorem locksSettled_of_everyOp {ops : List BacktestOp}
    (h : b.everyOp D b.releasesAt ops = true) : LocksSettled b D ops := by
  intro pre c stPre hpre hrun e he hends
  have hclosed := List.all_eq_true.mp (test_of_everyOp h hpre hrun) e he
  rw [decide_eq_true hends, Bool.not_true, Bool.false_or, Option.any_eq_true] at hclosed
  obtain ⟨ts, hts, hle⟩ := hclosed
  exact ⟨ts, hts, of_decide_eq_true hle⟩

theorem twiceData_sorted {after : List Candle} (h : SortedBy Candle.timestamp (twiceFive after)) :
    (twiceData after).Sorted where
  htf := fun i => by
    change SortedBy Candle.timestamp sampleHourly
    unfold SortedBy
    decide +kernel
  ltf := fun _ => h

/-- The candles after the second entry are open at it. -/
theorem twiceData_agree {after after' : List Candle} (h : ∀ c ∈ after, 31200000 ≤ c.timestamp)
    (h' : ∀ c ∈ after', 31200000 ≤ c.timestamp) :
    AgreeUpTo 31200000 (twiceData after) (twiceData after') := by
  have hopen : ∀ (i : Interval) (cs : List Candle), (∀ c ∈ cs, 31200000 ≤ c.timestamp) →
      closedUpTo i 31200000 cs = [] := by
    intro i cs hcs
    refine List.filter_eq_nil_iff.mpr fun c hc => ?_
    have hlen := intervalMs_pos i
    have hts := hcs c hc
    simpa using by omega
  refine ⟨fun _ => rfl, fun i => ?_⟩
  change closedUpTo i 31200000 (twiceFive after) = closedUpTo i 31200000 (twiceFive after')
  have hafter := (hopen i after h).trans (hopen i after' h').symm
  unfold closedUpTo twiceFive at *
  rw [List.filter_append, List.filter_append, List.filter_append, List.filter_append, hafter]

theorem twiceRuns_results :
    (twiceBacktest.runOps (twiceData [fallCandle 31200000])
      (twiceBacktest.scheduleTo (twiceData [fallCandle 31200000]) 103)).map
      (fun st => st.results.map (fun e => (e.analysisClose, e.result.closeTs))) =
      .ok [(30300000, some 30600000), (31200000, some 31200000)] ∧
    (twiceBacktest.runOps (twiceData [quietCandle 31200000])
      (twiceBacktest.scheduleTo (twiceData [quietCandle 31200000]) 103)).map
      (fun st => st.results.map (fun e => (e.analysisClose, e.result.closeTs))) =
      .ok [(30300000, some 30600000), (31200000, none)] := by
  constructor <;> decide +kernel

/-- The second signal comes out alike, whether the candle after it will stop the trade or not. -/
theorem sampleRuns_alike :
    ∃ st st', twiceBacktest.runOps (twiceData [fallCandle 31200000])
        (twiceBacktest.scheduleTo (twiceData [fallCandle 31200000]) 103) = .ok st ∧
      twiceBacktest.runOps (twiceData [quietCandle 31200000])
        (twiceBacktest.scheduleTo (twiceData [quietCandle 31200000]) 103) = .ok st' ∧
      st.results.map (fun e => (e.analysisClose, e.result.closeTs)) =
        [(30300000, some 30600000), (31200000, some 31200000)] ∧
      st'.results.map (fun e => (e.analysisClose, e.result.closeTs)) =
        [(30300000, some 30600000), (31200000, none)] ∧
      st'.results.map Emission.view = st.results.map Emission.view := by
  obtain ⟨st, hrun, hst⟩ := runOps_of_map twiceRuns_results.1
  obtain ⟨st', hrun', hst'⟩ := runOps_of_map twiceRuns_results.2
  refine ⟨st, st', hrun, hrun', hst, hst', noLookAhead twiceBacktest
    (twiceData_sorted (by unfold SortedBy; decide +kernel))
    (twiceData_sorted (by unfold SortedBy; decide +kernel)) (c := quietCandle 30900000 (81 / 10))
    rfl (twiceData_agree (by decide) (by decide)) hrun hrun'
    (locksSettled_of_everyOp (by decide +kernel)) (locksSettled_of_everyOp (by decide +kernel))⟩

end SignalEngine
