/-
  Parity: the candidates of a live analysis and those of a backtest visit.

  Model. `LiveData` is what the two fetches of `_analyze_pair` return on a history: the last
  `htf_outputsize` HTF candles that have opened by `analysis_close`, and the inclusive LTF range.
  The backtest side is a visit with empty caches.

  Proved: `sameCandidates`: with a fetch that covers the lookback and the displacement average,
  both sides find the same window, structure, zones, LTF slices and entries. What the live side
  sees is the backtest's visible list less `k` old candles (`liveVisible_eq`), and what it finds
  depends on none of them.
-/
import SignalEngine.Domain.Zones
import SignalEngine.Backtest.HtfCache
import SignalEngine.Services.RestartSafety

namespace SignalEngine

open Lib

/-! ## The two sides -/

/-- `htf_visible` of `_analyze_pair`. -/
def liveVisible (htf : Interval) (analysisClose : ℤ) (io : PairInputs) : List Candle :=
  io.htfFull.filter (fun c => decide (c.timestamp ≤ analysisClose - intervalMs htf))

/-- `htf` of `_analyze_pair`. -/
def liveWindow (p : AssetProfile) (htf : Interval) (analysisClose : ℤ) (io : PairInputs) :
    List Candle :=
  lastBars p.htfLookback (liveVisible htf analysisClose io)

/-- `ltf_visible` of `_analyze_pair`. -/
def liveLtf (p : AssetProfile) (pair : Interval × Interval) (analysisClose : ℤ)
    (io : PairInputs) : List Candle :=
  match liveWindow p pair.1 analysisClose io with
  | [] => []
  | first :: _ =>
      (io.fetchLtf first.timestamp analysisClose).take
        (bisectRight Candle.timestamp (io.fetchLtf first.timestamp analysisClose)
          (pairCurrentTs pair.2 analysisClose))

/-- What the fetches return. -/
structure LiveData (D : History) (pair : Interval × Interval) (analysisClose outputsize : ℤ)
    (io : PairInputs) : Prop where
  htf_eq : io.htfFull = lastBars outputsize
    ((D.htfCandles pair.1).filter (fun c => decide (c.timestamp ≤ analysisClose)))
  ltf_eq : ∀ start stop, io.fetchLtf start stop =
    (D.ltfCandles pair.2).filter (fun c => decide (start ≤ c.timestamp ∧ c.timestamp ≤ stop))

/-- The tests of both sides for enough candles. -/
structure GatesPass (b : Backtest) (D : History) (pair : Interval × Interval) (analysisClose : ℤ)
    (p : AssetProfile) (io : PairInputs) : Prop where
  full : ¬ io.htfFull.length < 10
  visible : ¬ (liveVisible pair.1 analysisClose io).length < 10
  ltf : ¬ (liveLtf p pair analysisClose io).length < 10
  window : ¬ ((b.htfWindow pair (D.htfVisible pair.1 analysisClose)).length : ℤ) <
    b.resolveLookback pair / 3
  hi : ltfHiIdx pair.2 (D.ltfCandles pair.2) analysisClose ≠ 0

/-- The profile of the live side has the backtest's lookback and trend switch. -/
structure SameProfile (b : Backtest) (pair : Interval × Interval) (p : AssetProfile) : Prop where
  lookback_eq : p.htfLookback = b.resolveLookback pair
  trend_eq : p.useTrendFilter = b.profile.useTrendFilter

/-- The live analysis and the visit without caches agree on the window, the structure and the
    zones, and zone by zone on the LTF slice and the entry. -/
structure SameCandidates (b : Backtest) (D : History) (pair : Interval × Interval)
    (analysisClose : ℤ) (p : AssetProfile) (io : PairInputs) : Prop where
  window_eq : liveWindow p pair.1 analysisClose io =
    b.htfWindow pair (D.htfVisible pair.1 analysisClose)
  structure_eq : (if p.useTrendFilter then
      some (detectStructure (liveWindow p pair.1 analysisClose io) pivotBars) else none) =
    b.ownStructure pair (D.htfVisible pair.1 analysisClose)
  stage_eq : (b.htfStage pair (D.htfVisible pair.1 analysisClose) {}).map Prod.snd =
    .ok ((pairView b.cfg p b.symbol pair.1 pair.2 analysisClose io).map
      (fun v => (v.bias, v.zones)))
  zone_eq : ∀ v ∈ pairView b.cfg p b.symbol pair.1 pair.2 analysisClose io, ∀ z ∈ v.zones,
    v.ltfZone z = (D.ltfView pair analysisClose v.bias).visible.drop
        (b.ltfLoIdx (D.ltfView pair analysisClose v.bias) z {}).2 ∧
      findEntry (v.ltfZone z) z.signalDirection z =
        (b.rejResult (D.ltfView pair analysisClose v.bias) z
          (b.ltfLoIdx (D.ltfView pair analysisClose v.bias) z {}).2 {}).2

/-! ## The live side is a suffix -/

variable {b : Backtest} {D : History} {pair : Interval × Interval} {htf ltf : Interval}
  {analysisClose outputsize : ℤ} {p : AssetProfile} {io : PairInputs} {cs V : List Candle}
  {k : ℕ} {z : HtfRange}

theorem GapFree.chronological (h : GapFree htf cs) : Chronological cs := by
  have hm := intervalMs_pos htf
  exact h.pairwise.imp (fun hab => by omega)

theorem GapFree.sorted (h : GapFree htf cs) : SortedBy Candle.timestamp cs :=
  h.chronological.imp le_of_lt

/-- At most one candle of a history without gaps is open at a time. -/
theorem GapFree.length_open_le (h : GapFree htf cs) (x : ℤ) :
    (cs.filter (fun c => decide (x - intervalMs htf < c.timestamp ∧ c.timestamp ≤ x))).length ≤
      1 := by
  have hpair := h.pairwise.filter
    (fun c => decide (x - intervalMs htf < c.timestamp ∧ c.timestamp ≤ x))
  have hmem : ∀ c ∈ cs.filter
      (fun c => decide (x - intervalMs htf < c.timestamp ∧ c.timestamp ≤ x)),
      x - intervalMs htf < c.timestamp ∧ c.timestamp ≤ x :=
    fun c hc => of_decide_eq_true (List.mem_filter.mp hc).2
  generalize cs.filter (fun c => decide (x - intervalMs htf < c.timestamp ∧ c.timestamp ≤ x)) =
    opened at hpair hmem ⊢
  match opened with
  | [] => exact Nat.zero_le 1
  | [c] => exact le_rfl
  | c :: d :: rest =>
      have hcd := (List.pairwise_cons.mp hpair).1 d List.mem_cons_self
      have hc := hmem c List.mem_cons_self
      have hd := hmem d (List.mem_cons_of_mem _ List.mem_cons_self)
      omega

/-- The candles that have opened are the visible ones and at most one that is still forming. -/
theorem opened_split (hgap : GapFree htf (D.htfCandles htf)) (analysisClose : ℤ) :
    ∃ forming, (D.htfCandles htf).filter (fun c => decide (c.timestamp ≤ analysisClose)) =
        D.htfVisible htf analysisClose ++ forming ∧ forming.length ≤ 1 ∧
      (∀ c ∈ D.htfVisible htf analysisClose, c.timestamp ≤ analysisClose - intervalMs htf) ∧
      ∀ c ∈ forming, analysisClose - intervalMs htf < c.timestamp := by
  set x := analysisClose - intervalMs htf with hx
  set opened := (D.htfCandles htf).filter (fun c => decide (c.timestamp ≤ analysisClose))
    with hopened
  have hm := intervalMs_pos htf
  have hsorted : SortedBy Candle.timestamp opened := hgap.sorted.filter _
  have hvisible : D.htfVisible htf analysisClose =
      opened.filter (fun c => decide (c.timestamp ≤ x)) := by
    rw [History.htfVisible, take_bisectRight hgap.sorted, hopened, List.filter_filter]
    refine List.filter_congr fun c _ => ?_
    rw [← Bool.decide_and, decide_eq_decide]
    omega
  refine ⟨opened.filter (fun c => decide (x < c.timestamp)), ?_, ?_, ?_, ?_⟩
  · rw [hvisible, hsorted.filter_append_filter]
  · have hforming : opened.filter (fun c => decide (x < c.timestamp)) =
        (D.htfCandles htf).filter (fun c => decide (x < c.timestamp ∧
          c.timestamp ≤ analysisClose)) := by
      rw [hopened, List.filter_filter]
      exact List.filter_congr fun c _ => by rw [← Bool.decide_and]
    rw [hforming]
    exact hgap.length_open_le analysisClose
  · intro c hc
    rw [hvisible] at hc
    exact of_decide_eq_true (List.mem_filter.mp hc).2
  · exact fun c hc => of_decide_eq_true (List.mem_filter.mp hc).2

/-- The live side sees the backtest's visible list less its first candles, and those only where
    the fetch is shorter than that list. -/
theorem liveVisible_eq (hgap : GapFree pair.1 (D.htfCandles pair.1))
    (hlive : LiveData D pair analysisClose outputsize io) (hsize : 0 < outputsize) :
    ∃ k : ℕ, liveVisible pair.1 analysisClose io =
        (D.htfVisible pair.1 analysisClose).drop k ∧
      (k = 0 ∨ (k : ℤ) + (outputsize - 1) ≤ (D.htfVisible pair.1 analysisClose).length) := by
  obtain ⟨forming, hsplit, hlen, hall, hnone⟩ := opened_split hgap analysisClose
  set opened := (D.htfCandles pair.1).filter (fun c => decide (c.timestamp ≤ analysisClose))
  set V := D.htfVisible pair.1 analysisClose
  have hfull : io.htfFull = opened.drop (opened.length - outputsize.toNat) := by
    rw [hlive.htf_eq, lastBars, if_pos hsize]
  have hcount : opened.length = V.length + forming.length := by
    rw [hsplit, List.length_append]
  refine ⟨opened.length - outputsize.toNat, ?_, by omega⟩
  rw [liveVisible, hfull]
  generalize opened.length - outputsize.toNat = k
  rw [hsplit, List.drop_append, List.filter_append]
  rw [List.filter_eq_self.mpr fun c hc => decide_eq_true (hall c (List.mem_of_mem_drop hc))]
  rw [List.filter_eq_nil_iff.mpr fun c hc => by
    simpa using hnone c (List.mem_of_mem_drop hc), List.append_nil]

theorem lastBars_drop {L : ℤ} (hL : 1 ≤ L) (hk : k = 0 ∨ (k : ℤ) + L ≤ V.length) :
    lastBars L (V.drop k) = V.drop ((V.length : ℤ) - L).toNat := by
  rw [lastBars, if_pos (by omega), List.drop_drop, List.length_drop]
  congr 1
  omega

/-- The displacement of a zone of the window does not depend on what is left out. -/
theorem displacement_drop {L atrPeriod : ℤ} (hs : Chronological V) (hL : 1 ≤ L)
    (hk : k = 0 ∨ (k : ℤ) + (L + max atrPeriod 0) ≤ V.length) {c : Candle}
    (hc : c ∈ V.drop ((V.length : ℤ) - L).toNat) (atrMult : ℚ) :
    detectDisplacement (V.drop k) c.timestamp atrPeriod atrMult =
      detectDisplacement V c.timestamp atrPeriod atrMult := by
  rcases hk with rfl | hk
  · rw [List.drop_zero]
  obtain ⟨s, post, hsplit⟩ := List.append_of_mem hc
  have hV : V = (V.take ((V.length : ℤ) - L).toNat ++ s) ++ c :: post := by
    rw [List.append_assoc, ← hsplit, List.take_append_drop]
  set pre := V.take ((V.length : ℤ) - L).toNat ++ s with hpre
  have hle : V.length - L ≤ (pre.length : ℤ) := by
    rw [hpre, List.length_append, List.length_take]
    omega
  have hdrop : V.drop k = pre.drop k ++ c :: post := by
    rw [hV, List.drop_append_of_le_length (by omega)]
  rw [hdrop]
  rw [hV] at hs
  have hkept : detectDisplacement (pre.drop k ++ c :: post) c.timestamp atrPeriod atrMult =
      detectDisplacement (pre ++ c :: post) c.timestamp atrPeriod atrMult :=
    detectDisplacement_drop hs (by omega) atrMult
  rw [hkept, ← hV]

/-! ## Slices -/

/-- Every zone of a visit starts within the window. -/
theorem zoneStart_le (hs : SortedBy Candle.timestamp V) {first : Candle} {rest : List Candle}
    (hwindow : V = first :: rest) {maxZones : ℤ}
    (hz : z ∈ findHtfRanges V pivotBars (intervalMs htf) maxZones) :
    first.timestamp ≤ z.zoneStart := by
  obtain ⟨c, hc, heq⟩ := zoneStart_candle hz
  rw [heq]
  rw [hwindow] at hs hc
  rcases List.mem_cons.mp hc with rfl | hc
  · exact le_rfl
  · exact (List.pairwise_cons.mp hs).1 c hc

/-- Within the fetched range a slice is the slice of the history. -/
theorem slice_fetched (hs : SortedBy Candle.timestamp cs) {start stop a x : ℤ} (ha : start ≤ a)
    (hx : x ≤ stop) :
    let fetched := cs.filter (fun c => decide (start ≤ c.timestamp ∧ c.timestamp ≤ stop))
    (fetched.take (bisectRight Candle.timestamp fetched x)).drop
        (bisectLeft Candle.timestamp fetched a) =
      (cs.take (bisectRight Candle.timestamp cs x)).drop (bisectLeft Candle.timestamp cs a) := by
  intro fetched
  have hfetched : SortedBy Candle.timestamp fetched := hs.filter _
  rw [slice_bisect hfetched, slice_bisect hs, List.filter_filter]
  refine List.filter_congr fun c _ => ?_
  rw [← Bool.decide_and, decide_eq_decide]
  omega

theorem pairCurrentTs_le (ltf : Interval) (analysisClose : ℤ) :
    pairCurrentTs ltf analysisClose ≤ analysisClose := by
  have hclosed := pairCurrentTs_closed ltf analysisClose
  have hm := intervalMs_pos ltf
  omega

/-! ## The candidates -/

/-- The view of `_analyze_pair` once its gates have passed. -/
def liveView (cfg : Settings) (p : AssetProfile) (symbol : String) (pair : Interval × Interval)
    (analysisClose : ℤ) (io : PairInputs) (first : Candle) : PairView where
  symbol := symbol
  htfInterval := pair.1
  ltfInterval := pair.2
  profile := p
  pairFiredAt := pairCurrentTs pair.2 analysisClose
  ltfAll := io.fetchLtf first.timestamp analysisClose
  hi := bisectRight Candle.timestamp (io.fetchLtf first.timestamp analysisClose)
    (pairCurrentTs pair.2 analysisClose)
  bias := if p.useTrendFilter then
    some (detectStructure (liveWindow p pair.1 analysisClose io) pivotBars) else none
  zones :=
    let zones := findHtfRanges (liveWindow p pair.1 analysisClose io) pivotBars
      (intervalMs pair.1) cfg.maxHtfZonesPerDir
    if cfg.useDisplacementFilter then
      zones.filter (fun z => detectDisplacement (liveVisible pair.1 analysisClose io) z.brokenAt
        cfg.displacementAtrPeriod (cfg.displacementMultFor pair.1 pair.2))
    else zones

theorem pairView_of_gates (hclose : analysisClose % intervalMs pair.2 = 0)
    (hgates : GatesPass b D pair analysisClose p io) {first : Candle} {rest : List Candle}
    (hwindow : liveWindow p pair.1 analysisClose io = first :: rest) :
    pairView b.cfg p b.symbol pair.1 pair.2 analysisClose io =
      if (liveView b.cfg p b.symbol pair analysisClose io first).bias.any
        (fun s => decide (s.bias = .neutral)) then none
      else some (liveView b.cfg p b.symbol pair analysisClose io first) := by
  have hltf := hgates.ltf
  have hvisible := hgates.visible
  rw [liveLtf, hwindow] at hltf
  rw [liveVisible] at hvisible
  have hbars : lastBars p.htfLookback (io.htfFull.filter
      (fun c => decide (c.timestamp ≤ analysisClose - intervalMs pair.1))) = first :: rest :=
    hwindow
  rw [pairView, if_neg (not_not.mpr hclose), if_neg hgates.full]
  dsimp only
  rw [if_neg hvisible, hbars]
  dsimp only
  rw [if_neg hltf]
  unfold liveView
  rw [hwindow]
  rfl

/-- What the two sides share once the fetch covers the lookback and the displacement average. -/
structure Covered (b : Backtest) (D : History) (pair : Interval × Interval) (analysisClose : ℤ)
    (p : AssetProfile) (io : PairInputs) : Prop where
  window_eq : liveWindow p pair.1 analysisClose io =
    b.htfWindow pair (D.htfVisible pair.1 analysisClose)
  displacement_eq : ∀ c ∈ b.htfWindow pair (D.htfVisible pair.1 analysisClose), ∀ atrMult,
    detectDisplacement (liveVisible pair.1 analysisClose io) c.timestamp
        b.cfg.displacementAtrPeriod atrMult =
      detectDisplacement (D.htfVisible pair.1 analysisClose) c.timestamp
        b.cfg.displacementAtrPeriod atrMult
  window_ne : b.htfWindow pair (D.htfVisible pair.1 analysisClose) ≠ []

theorem covered (hhtf : GapFree pair.1 (D.htfCandles pair.1))
    (hprofile : SameProfile b pair p) (hL : 1 ≤ b.resolveLookback pair)
    (hlive : LiveData D pair analysisClose outputsize io)
    (hsize : b.resolveLookback pair + max b.cfg.displacementAtrPeriod 0 ≤ outputsize - 1)
    (hgates : GatesPass b D pair analysisClose p io) : Covered b D pair analysisClose p io := by
  obtain ⟨k, hvisible, hk⟩ := liveVisible_eq hhtf hlive (by omega)
  have hten := hgates.visible
  rw [hvisible, List.length_drop] at hten
  have hchron : Chronological (D.htfVisible pair.1 analysisClose) :=
    List.Pairwise.sublist (List.take_sublist _ _) hhtf.chronological
  refine ⟨?_, fun c hc atrMult => ?_, fun hnil => ?_⟩
  · rw [liveWindow, hvisible, hprofile.lookback_eq]
    exact lastBars_drop hL (hk.imp_right fun hk => by omega)
  · rw [hvisible]
    exact displacement_drop hchron hL (hk.imp_right fun hk => by omega) hc atrMult
  · have hlen := congrArg List.length hnil
    rw [Backtest.htfWindow, List.length_drop, List.length_nil] at hlen
    omega

theorem liveView_zones (hcovered : Covered b D pair analysisClose p io) (first : Candle) :
    (liveView b.cfg p b.symbol pair analysisClose io first).zones =
      b.ownZones pair (D.htfVisible pair.1 analysisClose) := by
  unfold liveView Backtest.ownZones
  dsimp only
  rw [hcovered.window_eq]
  split
  · refine List.filter_congr fun z hz => ?_
    obtain ⟨c, hc, heq⟩ := (zone_candles hz).1
    rw [heq, hcovered.displacement_eq c hc]
  · rfl

theorem mem_liveView_zones {first : Candle}
    (hz : z ∈ (liveView b.cfg p b.symbol pair analysisClose io first).zones) :
    z ∈ findHtfRanges (liveWindow p pair.1 analysisClose io) pivotBars (intervalMs pair.1)
      b.cfg.maxHtfZonesPerDir := by
  unfold liveView at hz
  dsimp only at hz
  split at hz
  · exact (List.mem_filter.mp hz).1
  · exact hz

/-- The LTF slice of a zone is the one of the history. -/
theorem liveView_slice (hhtf : GapFree pair.1 (D.htfCandles pair.1))
    (hltf : GapFree pair.2 (D.ltfCandles pair.2))
    (hlive : LiveData D pair analysisClose outputsize io)
    (hcovered : Covered b D pair analysisClose p io) {first : Candle} {rest : List Candle}
    (hfirst : liveWindow p pair.1 analysisClose io = first :: rest)
    (hz : z ∈ (liveView b.cfg p b.symbol pair analysisClose io first).zones)
    (bias : Option StructureResult) :
    (liveView b.cfg p b.symbol pair analysisClose io first).ltfZone z =
      (D.ltfView pair analysisClose bias).visible.drop
        (bisectLeft Candle.timestamp (D.ltfCandles pair.2) z.zoneStart) := by
  have hsorted : SortedBy Candle.timestamp (liveWindow p pair.1 analysisClose io) := by
    rw [hcovered.window_eq]
    exact List.Pairwise.sublist ((List.drop_sublist _ _).trans (List.take_sublist _ _))
      hhtf.sorted
  have hcut := slice_fetched hltf.sorted (zoneStart_le hsorted hfirst (mem_liveView_zones hz))
    (pairCurrentTs_le pair.2 analysisClose)
  rw [PairView.ltfZone]
  dsimp only [liveView]
  rw [hlive.ltf_eq]
  exact hcut

/-- **Live and backtest find the same candidates** on histories without gaps, when the fetch
    covers the lookback and the average of the displacement filter. -/
theorem sameCandidates (hhtf : GapFree pair.1 (D.htfCandles pair.1))
    (hltf : GapFree pair.2 (D.ltfCandles pair.2))
    (hclose : analysisClose % intervalMs pair.2 = 0) (hprofile : SameProfile b pair p)
    (hL : 1 ≤ b.resolveLookback pair) (hlive : LiveData D pair analysisClose outputsize io)
    (hsize : b.resolveLookback pair + max b.cfg.displacementAtrPeriod 0 ≤ outputsize - 1)
    (hgates : GatesPass b D pair analysisClose p io) :
    SameCandidates b D pair analysisClose p io := by
  have hcovered := covered hhtf hprofile hL hlive hsize hgates
  have heval : b.Evaluated pair (D.htfVisible pair.1 analysisClose) :=
    ⟨not_lt.mp hgates.window, hcovered.window_ne⟩
  obtain ⟨first, rest, hfirst⟩ : ∃ first rest,
      liveWindow p pair.1 analysisClose io = first :: rest :=
    List.exists_cons_of_ne_nil (hcovered.window_eq ▸ hcovered.window_ne)
  have hview := pairView_of_gates hclose hgates hfirst
  have hzones := liveView_zones hcovered first
  have hstructure : (liveView b.cfg p b.symbol pair analysisClose io first).bias =
      b.ownStructure pair (D.htfVisible pair.1 analysisClose) := by
    unfold liveView Backtest.ownStructure
    dsimp only
    rw [hcovered.window_eq, hprofile.trend_eq]
  refine ⟨hcovered.window_eq, hstructure, ?_, fun v hv z hz => ?_⟩
  · rw [htfStage_empty heval, hview, hstructure]
    split
    · rfl
    · rw [Option.map_some, hstructure, hzones]
  · have hv' : v = liveView b.cfg p b.symbol pair analysisClose io first := by
      rw [hview] at hv
      split at hv
      · cases hv
      · exact (Option.some.inj hv).symm
    subst hv'
    have hslice := liveView_slice hhtf hltf hlive hcovered hfirst hz
      (liveView b.cfg p b.symbol pair analysisClose io first).bias
    refine ⟨hslice, ?_⟩
    rw [hslice]
    rfl

/-! ## A fetch that is shorter than the history -/

/-- The sample process's candles, the last hour still open. -/
def hourData : History where
  htfCandles := fun _ => hourlyBefore 1767225600000 ++ [⟨1767225600000, 14, 15, 13, 14, 0⟩]
  ltfCandles := fun _ => fiveMinBefore 1767225600000

def hourBacktest (lookback atrPeriod : ℤ) : Backtest where
  cfg := { sampleSettings with displacementAtrPeriod := atrPeriod }
  symbol := "XAUUSD"
  pairs := [(oneHour, fiveMin)]
  pairs_ne := samplePair_ne
  profileOf := fun _ _ => sampleProfile
  htfLookback := some lookback

/-- What a fetch of 11 HTF candles and an inclusive range return at the close of the first
    five-minute candle. -/
def hourInputs : PairInputs :=
  { sampleInputs 1767225600000 with
    htfFull := lastBars 11
      ((hourData.htfCandles oneHour).filter (fun c => decide (c.timestamp ≤ 1767225900000)))
    fetchLtf := fun start stop =>
      (hourData.ltfCandles fiveMin).filter
        (fun c => decide (start ≤ c.timestamp ∧ c.timestamp ≤ stop)) }

theorem hourInputs_live : LiveData hourData (oneHour, fiveMin) 1767225900000 11 hourInputs :=
  ⟨rfl, fun _ _ => rfl⟩

theorem hourData_gapFree : GapFree oneHour (hourData.htfCandles oneHour) ∧
    GapFree fiveMin (hourData.ltfCandles fiveMin) := by
  constructor
  · unfold GapFree
    decide +kernel
  · unfold GapFree
    decide +kernel

/-- Six hours back with an average of three: ten of the twelve closed hours are enough. -/
theorem hour_candidates : SameCandidates (hourBacktest 6 3) hourData (oneHour, fiveMin)
    1767225900000 { sampleProfile with htfLookback := 6 } hourInputs :=
  sameCandidates hourData_gapFree.1 hourData_gapFree.2 (by decide) ⟨rfl, rfl⟩ (by decide)
    hourInputs_live (by decide)
    ⟨by decide +kernel, by decide +kernel, by decide +kernel, by decide +kernel,
      by decide +kernel⟩

/-- With an average of minus two candles the fetch may be shorter than the lookback. -/
theorem negativePeriod_shortens :
    ¬ ∀ (b : Backtest) (D : History) (pair : Interval × Interval) (analysisClose outputsize : ℤ)
      (p : AssetProfile) (io : PairInputs), GapFree pair.1 (D.htfCandles pair.1) →
      GapFree pair.2 (D.ltfCandles pair.2) → analysisClose % intervalMs pair.2 = 0 →
      SameProfile b pair p → 1 ≤ b.resolveLookback pair →
      LiveData D pair analysisClose outputsize io →
      b.resolveLookback pair + b.cfg.displacementAtrPeriod ≤ outputsize - 1 →
      GatesPass b D pair analysisClose p io → SameCandidates b D pair analysisClose p io := by
  intro h
  have hsame := h (hourBacktest 12 (-2)) hourData (oneHour, fiveMin) 1767225900000 11
    { sampleProfile with htfLookback := 12 } hourInputs hourData_gapFree.1 hourData_gapFree.2
    (by decide) ⟨rfl, rfl⟩ (by decide) hourInputs_live (by decide)
    ⟨by decide +kernel, by decide +kernel, by decide +kernel, by decide +kernel,
      by decide +kernel⟩
  have hlen := congrArg List.length hsame.window_eq
  revert hlen
  decide +kernel

end SignalEngine
