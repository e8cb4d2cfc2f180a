/-
  Look-ahead of the live engine: which candles an analysis can depend on.

  Model. Two runs of `_analyze_pair` differ in the fetched candles only. The candles of a fetch
  have the same open times in both runs, and those up to a bound are the same candles
  (`SameUpTo`).

  Proved: `analyzePair_noLookAhead`: with HTF candles that are the same up to the last closed one
  and LTF candles that are the same up to `pair_fired_at`, both runs end in the same state with
  the same result. The two views differ in LTF candles that no zone reads (`SameBut`).
-/
import SignalEngine.Services.RestartSafety

namespace SignalEngine

open Lib

/-- The same open times, and the same candles up to the bound. -/
def SameUpTo (bound : ℤ) : List Candle → List Candle → Prop :=
  List.Forall₂ (fun c c' => c.timestamp = c'.timestamp ∧ (c.timestamp ≤ bound → c = c'))

variable {bound : ℤ} {cs cs' : List Candle}

theorem SameUpTo.filter_eq (h : SameUpTo bound cs cs') :
    cs.filter (fun c => decide (c.timestamp ≤ bound)) =
      cs'.filter (fun c => decide (c.timestamp ≤ bound)) := by
  induction h with
  | nil => rfl
  | @cons c c' cs cs' hc _ ih =>
      rw [List.filter_cons, List.filter_cons, ← hc.1]
      split
      · next hle => rw [ih, hc.2 (of_decide_eq_true hle)]
      · exact ih

theorem SameUpTo.length_eq (h : SameUpTo bound cs cs') : cs.length = cs'.length :=
  List.Forall₂.length_eq h

theorem SameUpTo.bisectLeft_eq (h : SameUpTo bound cs cs') (x : ℤ) :
    bisectLeft Candle.timestamp cs x = bisectLeft Candle.timestamp cs' x := by
  unfold bisectLeft
  induction h with
  | nil => rfl
  | @cons c c' cs cs' hc _ ih =>
      rw [List.takeWhile_cons, List.takeWhile_cons, ← hc.1]
      split
      · rw [List.length_cons, List.length_cons, ih]
      · rfl

/-- What is visible at the bound is the same. -/
theorem SameUpTo.take_bisectRight (h : SameUpTo bound cs cs') :
    cs.take (bisectRight Candle.timestamp cs bound) =
      cs'.take (bisectRight Candle.timestamp cs' bound) := by
  unfold bisectRight
  rw [take_takeWhile_length, take_takeWhile_length]
  induction h with
  | nil => rfl
  | @cons c c' cs cs' hc _ ih =>
      rw [List.takeWhile_cons, List.takeWhile_cons, ← hc.1]
      split
      · next hle => rw [ih, hc.2 (of_decide_eq_true hle)]
      · rfl

/-! ## Two views of one analysis -/

/-- The views differ in LTF candles that no zone reads. -/
structure SameBut (v v' : PairView) : Prop where
  view_eq : v' = { v with ltfAll := v'.ltfAll, hi := v'.hi }
  zone_eq : ∀ z, v'.ltfZone z = v.ltfZone z

variable {cfg : Settings} {raises : ℕ → Bool} {v v' : PairView} {io io' : PairInputs}
  {st : Service} {symbol : String} {htfInterval ltfInterval : Interval} {firedAt : ℤ}
  {profileOf : String → Interval → Interval → AssetProfile} {p : AssetProfile}

/-- The same clocks and ticks, and candles that agree as far as they have closed. -/
structure SameClosed (htfInterval ltfInterval : Interval) (firedAt : ℤ) (io io' : PairInputs) :
    Prop where
  htf : SameUpTo (firedAt - intervalMs htfInterval) io.htfFull io'.htfFull
  ltf : ∀ start stop, SameUpTo (pairCurrentTs ltfInterval firedAt) (io.fetchLtf start stop)
    (io'.fetchLtf start stop)
  rest_eq : io' = { io with htfFull := io'.htfFull, fetchLtf := io'.fetchLtf }

theorem SameBut.analyzeZone (h : SameBut v v')
    (hio : io' = { io with htfFull := io'.htfFull, fetchLtf := io'.fetchLtf }) (st : Service)
    (z : HtfRange) :
    st.analyzeZone cfg raises v' io' z = st.analyzeZone cfg raises v io z := by
  unfold Service.analyzeZone
  rw [h.zone_eq z, h.view_eq, hio]
  rfl

theorem SameBut.analyzeZones (h : SameBut v v')
    (hio : io' = { io with htfFull := io'.htfFull, fetchLtf := io'.fetchLtf }) (st : Service)
    (zs : List HtfRange) :
    st.analyzeZones cfg raises v' io' zs = st.analyzeZones cfg raises v io zs := by
  induction zs generalizing st with
  | nil => rfl
  | cons z zs ih =>
      rw [Service.analyzeZones, Service.analyzeZones, h.analyzeZone hio]
      split
      · exact ih _
      · rfl
      · rfl

/-- The views are both missing, or alike. -/
inductive AlikeViews : Option PairView → Option PairView → Prop
  | none : AlikeViews none none
  | some {v v' : PairView} : SameBut v v' → AlikeViews (some v) (some v')

theorem pairView_alike (cfg : Settings) (p : AssetProfile) (symbol : String)
    (h : SameClosed htfInterval ltfInterval firedAt io io') :
    AlikeViews (pairView cfg p symbol htfInterval ltfInterval firedAt io)
      (pairView cfg p symbol htfInterval ltfInterval firedAt io') := by
  unfold pairView
  rw [← h.htf.length_eq, ← h.htf.filter_eq]
  split
  · exact .none
  split
  · exact .none
  dsimp only
  split
  · exact .none
  split
  · exact .none
  next first rest _ =>
  have hltf := h.ltf first.timestamp firedAt
  have hvisible := hltf.take_bisectRight
  rw [← hvisible]
  generalize (if p.useTrendFilter then some (detectStructure (first :: rest) pivotBars)
    else none) = bias
  split
  · exact .none
  split
  · exact .none
  refine .some ⟨rfl, fun z => ?_⟩
  rw [PairView.ltfZone, PairView.ltfZone]
  dsimp only
  rw [hvisible, hltf.bisectLeft_eq]

/-- **No look-ahead**: two analyses whose data agree on every closed candle end in the same state
    with the same signals, whatever their other candles hold. -/
theorem analyzePair_noLookAhead (h : SameClosed htfInterval ltfInterval firedAt io io') :
    st.analyzePair cfg profileOf raises symbol htfInterval ltfInterval firedAt io' =
      st.analyzePair cfg profileOf raises symbol htfInterval ltfInterval firedAt io := by
  unfold Service.analyzePair
  have hviews := pairView_alike cfg (profileOf symbol htfInterval ltfInterval) symbol h
  revert hviews
  generalize pairView cfg (profileOf symbol htfInterval ltfInterval) symbol htfInterval
    ltfInterval firedAt io = o
  generalize pairView cfg (profileOf symbol htfInterval ltfInterval) symbol htfInterval
    ltfInterval firedAt io' = o'
  intro hviews
  cases hviews with
  | none => rfl
  | @some v v' hv =>
      have hzones : v'.zones = v.zones := by rw [hv.view_eq]
      have hfired : v'.pairFiredAt = v.pairFiredAt := by rw [hv.view_eq]
      dsimp only
      rw [hzones, hfired]
      exact hv.analyzeZones h.rest_eq _ _

/-- The sample analysis with an hourly and a five-minute candle still open. -/
def openCandles (close : ℚ) : PairInputs :=
  { sampleInputs 1767225600000 with
    htfFull := hourlyBefore 1767225600000 ++ [⟨1767225600000, 14, 20, 1, close, 0⟩]
    fetchLtf := fun _ _ =>
      fiveMinBefore 1767225600000 ++ [⟨1767225900000, 9, 20, 1, close, 0⟩] }

theorem sameUpTo_concat (cs : List Candle) {c c' : Candle} (hts : c.timestamp = c'.timestamp)
    (hopen : bound < c.timestamp) : SameUpTo bound (cs ++ [c]) (cs ++ [c']) := by
  have hsame : SameUpTo bound cs cs := List.forall₂_same.mpr fun d _ => ⟨rfl, fun _ => rfl⟩
  exact List.rel_append hsame (.cons ⟨hts, fun hle => absurd hle (not_le.mpr hopen)⟩ .nil)

/-- The analysis emits the same signal, wherever the open candles stand. -/
theorem openCandles_ignored :
    (restartService sampleSettings (fun _ => true) Tables.empty [] 1767225600000
      1767225600000).1.analyzePair sampleSettings sampleProfiles (fun _ => false) "XAUUSD" oneHour
      fiveMin 1767225900000 (openCandles 19) =
    (restartService sampleSettings (fun _ => true) Tables.empty [] 1767225600000
      1767225600000).1.analyzePair sampleSettings sampleProfiles (fun _ => false) "XAUUSD" oneHour
      fiveMin 1767225900000 (openCandles 2) :=
  analyzePair_noLookAhead ⟨sameUpTo_concat _ rfl (by decide),
    fun _ _ => sameUpTo_concat _ rfl (by decide), rfl⟩

end SignalEngine
