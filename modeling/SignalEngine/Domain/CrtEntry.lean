/-
  CrtEntry: which candle the CRT trigger takes, and that its stop is always good.

  `SweepsBack` is the acceptance test of `CrtDetector.check` in one formula. The reverse scan
  takes the qualifying candle of the greatest index (`findMostRecent_spec`, by induction on the
  list from its end). A sweep of at least `1e-8` with a close back inside leaves at least that
  much between the wick tip and the close, so the first two gates of `build_signal` pass.
-/
import SignalEngine.Domain.Entry
import SignalEngine.Domain.Geometry

namespace SignalEngine

variable {c prev : Candle} {cs pre : List Candle} {direction : SignalDirection}
  {z : Option HtfRange} {r : RejectionCandle × RejectionScore} {p : AssetProfile} {level : ℚ}

/-! ## One candle -/

/-- The candle touches the zone, if there is one, sweeps the previous candle's extreme by at
    least `1e-8` and closes strictly back inside it. -/
structure SweepsBack (c prev : Candle) (direction : SignalDirection) (z : Option HtfRange) :
    Prop where
  touches : ∀ zone, z = some zone → c.low ≤ zone.rangeHigh ∧ zone.rangeLow ≤ c.high
  sweeps : match direction with
    | .short => prev.high + 1 / 100000000 ≤ c.high ∧ c.close < prev.high
    | .long => c.low ≤ prev.low - 1 / 100000000 ∧ prev.low < c.close

/-- The rejection is the candle's, with a wick ratio between 0 and 1. -/
structure RejectionOf (c : Candle) (direction : SignalDirection) (r : RejectionCandle) :
    Prop where
  openPrice_eq : r.openPrice = c.openPrice
  high_eq : r.high = c.high
  low_eq : r.low = c.low
  close_eq : r.close = c.close
  timestamp_eq : r.timestamp = c.timestamp
  pattern_eq : r.pattern = match direction with
    | .short => .crtSell
    | .long => .crtBuy
  wickRatio_nonneg : 0 ≤ r.wickRatio
  wickRatio_le : r.wickRatio ≤ 1

theorem overRange_mem (x total : ℚ) (hx : 0 ≤ x) (hle : x ≤ total) :
    0 ≤ overRange x total ∧ overRange x total ≤ 1 := by
  unfold overRange
  split
  · next h =>
      have htotal : 0 < total := lt_trans (by norm_num [minExtent]) h
      exact ⟨div_nonneg hx htotal.le, (div_le_one htotal).mpr hle⟩
  · exact ⟨le_rfl, zero_le_one⟩

/-- Three tests in a row let a result through if all of them fail. -/
theorem isSome_of_tests {α : Type} {A B C : Prop} [Decidable A] [Decidable B] [Decidable C]
    (x : α) : (if A then none else if B then none else if C then none else some x).isSome = true ↔
      ¬ A ∧ ¬ B ∧ ¬ C := by
  split_ifs <;> simp [*]

theorem crtSell_isSome : (crtSell c level).isSome = true ↔
    level + 1 / 100000000 ≤ c.high ∧ c.close < level := by
  unfold crtSell minExtent
  dsimp only
  rw [isSome_of_tests]
  constructor
  · rintro ⟨-, hclose, hsweep⟩
    exact ⟨by linarith, not_le.mp hclose⟩
  · rintro ⟨hsweep, hclose⟩
    exact ⟨by linarith, not_le.mpr hclose, by linarith⟩

theorem crtBuy_isSome : (crtBuy c level).isSome = true ↔
    c.low ≤ level - 1 / 100000000 ∧ level < c.close := by
  unfold crtBuy minExtent
  dsimp only
  rw [isSome_of_tests]
  constructor
  · rintro ⟨-, hclose, hsweep⟩
    exact ⟨by linarith, not_le.mp hclose⟩
  · rintro ⟨hsweep, hclose⟩
    exact ⟨by linarith, not_le.mpr hclose, by linarith⟩

theorem crtCheck_isSome :
    (crtCheck c prev direction z).isSome = true ↔ SweepsBack c prev direction z := by
  have htouch : z.any (fun zone => !insideHtf c zone) = false ↔
      ∀ zone, z = some zone → c.low ≤ zone.rangeHigh ∧ zone.rangeLow ≤ c.high := by
    cases z <;> simp [insideHtf]
  unfold crtCheck
  by_cases hz : z.any (fun zone => !insideHtf c zone) = true
  · rw [if_pos hz]
    refine iff_of_false Bool.false_ne_true fun h => ?_
    rw [htouch.mpr h.touches] at hz
    cases hz
  · rw [if_neg hz]
    have hzone := htouch.mp (Bool.eq_false_iff.mpr hz)
    cases direction with
    | short => exact crtSell_isSome.trans ⟨fun h => ⟨hzone, h⟩, fun h => h.sweeps⟩
    | long => exact crtBuy_isSome.trans ⟨fun h => ⟨hzone, h⟩, fun h => h.sweeps⟩

theorem crtCheck_rejectionOf (hc : c.OhlcConsistent)
    (h : crtCheck c prev direction z = some r) : RejectionOf c direction r.1 := by
  have hlow := hc.low_le_open
  have hlow' := hc.low_le_close
  have hhigh := hc.open_le_high
  have hhigh' := hc.close_le_high
  unfold crtCheck crtSell crtBuy at h
  split at h
  · cases h
  · cases direction with
    | short =>
        dsimp only at h
        repeat' split at h
        all_goals cases h
        have hwick := overRange_mem (c.high - max c.openPrice c.close) c.totalRange
          (sub_nonneg.mpr (max_le hhigh hhigh'))
          (sub_le_sub_left (hlow.trans (le_max_left _ _)) _)
        exact ⟨rfl, rfl, rfl, rfl, rfl, rfl, hwick.1, hwick.2⟩
    | long =>
        dsimp only at h
        repeat' split at h
        all_goals cases h
        have hwick := overRange_mem (min c.openPrice c.close - c.low) c.totalRange
          (sub_nonneg.mpr (le_min hlow hlow'))
          (sub_le_sub_right ((min_le_left _ _).trans hhigh) _)
        exact ⟨rfl, rfl, rfl, rfl, rfl, rfl, hwick.1, hwick.2⟩

/-! ## The scan -/

/-- The candle at `i` sweeps back over the one before it. -/
def QualifiesAt (cs : List Candle) (direction : SignalDirection) (z : Option HtfRange) (i : ℕ) :
    Prop :=
  1 ≤ i ∧ ∃ c prev, cs[i]? = some c ∧ cs[i - 1]? = some prev ∧ SweepsBack c prev direction z

/-- The rejection is that of the qualifying candle of the greatest index. -/
def MostRecent (cs : List Candle) (direction : SignalDirection) (z : Option HtfRange)
    (r : RejectionCandle) : Prop :=
  ∃ i c, cs[i]? = some c ∧ RejectionOf c direction r ∧ QualifiesAt cs direction z i ∧
    ∀ j, QualifiesAt cs direction z j → j ≤ i

/-- The scan looks at the last candle first, and at the rest if that does not qualify. -/
theorem findMostRecent_concat (pre : List Candle) (c : Candle) (direction : SignalDirection)
    (z : Option HtfRange) :
    findMostRecent (pre ++ [c]) direction z =
      (pre.getLast?.bind fun prev => crtCheck c prev direction z).orElse fun _ =>
        findMostRecent pre direction z := by
  unfold findMostRecent
  rw [List.reverse_append, ← List.head?_reverse]
  generalize pre.reverse = older
  cases older with
  | nil => rfl
  | cons prev older =>
      change scanBack direction z (c :: prev :: older) = _
      rw [scanBack]
      cases h : crtCheck c prev direction z <;> simp [h]

theorem qualifiesAt_concat {i : ℕ} : QualifiesAt (pre ++ [c]) direction z i ↔
    QualifiesAt pre direction z i ∨
      i = pre.length ∧ ∃ prev, pre.getLast? = some prev ∧ SweepsBack c prev direction z := by
  unfold QualifiesAt
  constructor
  · rintro ⟨hi, d, prev, hd, hprev, hsweep⟩
    have hlt : i < pre.length + 1 := by
      simpa using (List.getElem?_eq_some_iff.mp hd).1
    have hprev' : pre[i - 1]? = some prev := by
      rwa [List.getElem?_append_left (by omega)] at hprev
    rcases Nat.lt_succ_iff_lt_or_eq.mp hlt with hlt | rfl
    · rw [List.getElem?_append_left hlt] at hd
      exact Or.inl ⟨hi, d, prev, hd, hprev', hsweep⟩
    · rw [List.getElem?_concat_length] at hd
      cases hd
      exact Or.inr ⟨rfl, prev, by rw [List.getLast?_eq_getElem?, hprev'], hsweep⟩
  · rintro (⟨hi, d, prev, hd, hprev, hsweep⟩ | ⟨rfl, prev, hprev, hsweep⟩)
    · refine ⟨hi, d, prev, ?_, ?_, hsweep⟩
      · rw [List.getElem?_append_left (List.getElem?_eq_some_iff.mp hd).1, hd]
      · rw [List.getElem?_append_left (List.getElem?_eq_some_iff.mp hprev).1, hprev]
    · rw [List.getLast?_eq_getElem?] at hprev
      have hlt := (List.getElem?_eq_some_iff.mp hprev).1
      refine ⟨by omega, c, prev, List.getElem?_concat_length, ?_, hsweep⟩
      rw [List.getElem?_append_left hlt, hprev]

/-- The scan finds the qualifying candle of the greatest index, and nothing exactly if there is
    none. -/
theorem findMostRecent_spec (hohlc : ∀ c ∈ cs, c.OhlcConsistent) :
    (findMostRecent cs direction z = none ↔ ∀ i, ¬ QualifiesAt cs direction z i) ∧
      ∀ r, findMostRecent cs direction z = some r → MostRecent cs direction z r.1 := by
  induction cs using List.reverseRecOn with
  | nil =>
      refine ⟨iff_of_true rfl ?_, fun r hr => by cases hr⟩
      rintro i ⟨-, c, prev, hc, -⟩
      cases hc
  | append_singleton pre c ih =>
      obtain ⟨hnone, hsome⟩ := ih fun d hd => hohlc d (List.mem_append_left _ hd)
      have hc : c.OhlcConsistent := hohlc c (by simp)
      rw [findMostRecent_concat]
      cases hcheck : pre.getLast?.bind fun prev => crtCheck c prev direction z with
      | some r =>
          obtain ⟨prev, hprev, hr⟩ := Option.bind_eq_some_iff.mp hcheck
          have hsweep : SweepsBack c prev direction z :=
            crtCheck_isSome.mp (Option.isSome_iff_exists.mpr ⟨r, hr⟩)
          have hlast : QualifiesAt (pre ++ [c]) direction z pre.length :=
            qualifiesAt_concat.mpr (Or.inr ⟨rfl, prev, hprev, hsweep⟩)
          refine ⟨iff_of_false (by simp) fun h => h _ hlast, fun r' hr' => ?_⟩
          cases hr'
          refine ⟨pre.length, c, List.getElem?_concat_length, crtCheck_rejectionOf hc hr, hlast,
            fun j hj => ?_⟩
          obtain ⟨-, d, -, hd, -⟩ := hj
          have hlt : j < pre.length + 1 := by simpa using (List.getElem?_eq_some_iff.mp hd).1
          omega
      | none =>
          have hskip : ∀ i, QualifiesAt (pre ++ [c]) direction z i ↔
              QualifiesAt pre direction z i := by
            intro i
            refine qualifiesAt_concat.trans (or_iff_left ?_)
            rintro ⟨-, prev, hprev, hsweep⟩
            have hnot := Option.bind_eq_none_iff.mp hcheck prev hprev
            rw [← crtCheck_isSome, hnot] at hsweep
            cases hsweep
          simp only [hskip]
          refine ⟨hnone, fun r hr => ?_⟩
          obtain ⟨i, d, hd, hrej, hi, hmax⟩ := hsome r hr
          exact ⟨i, d, by rw [List.getElem?_append_left (List.getElem?_eq_some_iff.mp hd).1, hd],
            hrej, (hskip i).mpr hi, fun j hj => hmax j ((hskip j).mp hj)⟩

/-! ## The first gates -/

/-- Between the wick tip of a CRT rejection and its close lie at least `1e-8`. -/
theorem MostRecent.wick_gap (h : MostRecent cs direction z r.1) :
    match direction with
    | .short => r.1.close + 1 / 100000000 ≤ r.1.wickTip
    | .long => r.1.wickTip + 1 / 100000000 ≤ r.1.close := by
  obtain ⟨i, c, hc, hrej, ⟨-, c', prev, hc', -, hsweep⟩, -⟩ := h
  rw [hc] at hc'
  cases hc'
  have hsweeps := hsweep.sweeps
  have hpattern := hrej.pattern_eq
  cases direction with
  | short =>
      dsimp only at hsweeps hpattern ⊢
      rw [RejectionCandle.wickTip, hpattern, hrej.close_eq]
      dsimp only
      rw [hrej.high_eq]
      linarith
  | long =>
      dsimp only at hsweeps hpattern ⊢
      rw [RejectionCandle.wickTip, hpattern, hrej.close_eq]
      dsimp only
      rw [hrej.low_eq]
      linarith

theorem MostRecent.low_mem (h : MostRecent cs direction z r.1) :
    ∃ c ∈ cs, r.1.low = c.low ∧ r.1.high = c.high := by
  obtain ⟨i, c, hc, hrej, -⟩ := h
  exact ⟨c, List.mem_of_getElem? hc, hrej.low_eq, hrej.high_eq⟩

/-- The stop of a CRT rejection lies beyond its close by the minimum risk at least. -/
theorem MostRecent.first_gates (h : MostRecent cs direction z r.1)
    (hprices : ∀ c ∈ cs, 0 < c.low) (hohlc : ∀ c ∈ cs, c.OhlcConsistent)
    (hprice : p.signalPriceSource = .candleClose) (hbuffer : 0 ≤ p.stopBufferPct)
    (liveBid liveAsk : Option ℚ) :
    slOnWrongSide direction (stopFor p direction r.1)
      (entryFor p direction r.1 liveBid liveAsk) = false ∧
    minRisk ≤ |entryFor p direction r.1 liveBid liveAsk - stopFor p direction r.1| := by
  have hentry : entryFor p direction r.1 liveBid liveAsk = r.1.close := by
    simp [entryFor, hprice]
  have hgap := h.wick_gap
  have htip : 0 ≤ r.1.wickTip := by
    obtain ⟨c, hc, hlow, hhigh⟩ := h.low_mem
    have hpos := hprices c hc
    have hle := (hohlc c hc).low_le_close.trans (hohlc c hc).close_le_high
    unfold RejectionCandle.wickTip
    split <;> linarith
  have hmargin : 0 ≤ r.1.wickTip * p.stopBufferPct := mul_nonneg htip hbuffer
  rw [hentry]
  unfold slOnWrongSide stopFor minRisk
  cases direction with
  | short =>
      dsimp only at hgap ⊢
      rw [decide_eq_false_iff_not, abs_of_nonpos (by linarith)]
      constructor <;> linarith
  | long =>
      dsimp only at hgap ⊢
      rw [decide_eq_false_iff_not, abs_of_nonneg (by linarith)]
      constructor <;> linarith

/-- **The CRT entry.** The scan takes the qualifying candle of the greatest index, and the
    stop-direction and minimum-risk gates pass whatever it takes. -/
theorem crtEntry_spec (cs : List Candle) (direction : SignalDirection) (z : Option HtfRange)
    (hohlc : ∀ c ∈ cs, c.OhlcConsistent) :
    (findMostRecent cs direction z = none ↔ ∀ i, ¬ QualifiesAt cs direction z i) ∧
    ∀ r, findMostRecent cs direction z = some r → MostRecent cs direction z r.1 ∧
      ∀ (zone : HtfRange) (p : AssetProfile) (liveBid liveAsk : Option ℚ),
        zone.signalDirection = direction → (∀ c ∈ cs, 0 < c.low) →
        p.signalPriceSource = .candleClose → 0 ≤ p.stopBufferPct →
        slOnWrongSide zone.signalDirection (stopFor p zone.signalDirection r.1)
          (entryFor p zone.signalDirection r.1 liveBid liveAsk) = false ∧
        ¬ |entryFor p zone.signalDirection r.1 liveBid liveAsk -
          stopFor p zone.signalDirection r.1| < minRisk := by
  obtain ⟨hnone, hsome⟩ := @findMostRecent_spec cs direction z hohlc
  refine ⟨hnone, fun r hr => ⟨hsome r hr, ?_⟩⟩
  intro zone p liveBid liveAsk hdir hprices hprice hbuffer
  subst hdir
  have hgates := (hsome r hr).first_gates hprices hohlc hprice hbuffer liveBid liveAsk
  exact ⟨hgates.1, not_lt.mpr hgates.2⟩

/-- The last candle sweeps the low of the one before it inside the sample zone. -/
def sweepCandles : List Candle :=
  [⟨6600000, 106, 108, 104, 105, 0⟩, ⟨6900000, 105, 106, 102, 104, 0⟩,
    ⟨7200000, 105, 107, 100, 106, 0⟩]

theorem crtEntry_spec_sample :
    ∃ r, findMostRecent sweepCandles .long (some sampleRange) = some r ∧
      MostRecent sweepCandles .long (some sampleRange) r.1 ∧
      slOnWrongSide sampleRange.signalDirection (stopFor sampleProfile .long r.1)
        (entryFor sampleProfile .long r.1 none none) = false := by
  obtain ⟨hnone, hsome⟩ := crtEntry_spec sweepCandles .long (some sampleRange) (by decide +kernel)
  cases hfind : findMostRecent sweepCandles .long (some sampleRange) with
  | none =>
      have hfound : (findMostRecent sweepCandles .long (some sampleRange)).isSome = true := by
        decide +kernel
      rw [hfind] at hfound
      cases hfound
  | some r =>
      obtain ⟨hrecent, hgates⟩ := hsome r hfind
      exact ⟨r, rfl, hrecent, (hgates sampleRange sampleProfile none none rfl (by decide +kernel)
        rfl (by norm_num [sampleProfile])).1⟩

end SignalEngine
