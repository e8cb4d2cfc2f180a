/-
  Zones: what a zone and its displacement test take from the candles.

  Proved: a zone is dated by two candles of the list it was found in, its swing candle and the
  candle that broke it (`zone_candles`), and the displacement test looks at the candle of the
  break and the `atr_period` candles before it, so that leaving out candles before those does not
  change it (`detectDisplacement_drop`).
-/
import SignalEngine.Domain.NoRepaint

namespace SignalEngine

/-! ## Where a zone comes from -/

variable {highTs lowTs : List ℤ} {r : BosRefs} {c : Candle} {cs : List Candle} {e : BosEvent}
  {es : List BosEvent} {z : HtfRange} {pivotBars : ℕ} {htfIntervalMs maxZonesPerDir : ℤ}

/-- The swing candle of an event is one of its references. -/
theorem event_swing (h : r.event c = some e) :
    r.high = some e.swingCandle ∨ r.low = some e.swingCandle := by
  unfold BosRefs.event at h
  split at h
  · next hh hl =>
      split at h
      · cases h
        exact Or.inr hl
      split at h
      · cases h
        exact Or.inl hh
      · cases h
  · cases h

/-- The references a step leaves behind, or that its event was read off, are the candle itself or
    older ones. -/
theorem update_refs {d : Candle} (h : (r.update highTs lowTs c).high = some d ∨
    (r.update highTs lowTs c).low = some d) : d = c ∨ r.high = some d ∨ r.low = some d := by
  simp only [BosRefs.update] at h
  rcases h with h | h
  · split at h
    · exact Or.inl (Option.some.inj h).symm
    · exact Or.inr (Or.inl h)
  · split at h
    · exact Or.inl (Option.some.inj h).symm
    · exact Or.inr (Or.inr h)

theorem bosWalk_swing (h : e ∈ bosWalk highTs lowTs r cs) :
    e.swingCandle ∈ cs ∨ r.high = some e.swingCandle ∨ r.low = some e.swingCandle := by
  induction cs generalizing r with
  | nil => cases h
  | cons c cs ih =>
      have hhead : ∀ {d}, (d = c ∨ r.high = some d ∨ r.low = some d) →
          d ∈ c :: cs ∨ r.high = some d ∨ r.low = some d := by
        intro d hd
        exact hd.imp (fun hc => List.mem_cons.mpr (Or.inl hc)) id
      rcases List.mem_append.mp h with h | h
      · rw [bosStep_snd, Option.mem_toList] at h
        exact hhead (update_refs (event_swing h))
      · rcases ih h with hmem | hrefs
        · exact Or.inl (List.mem_cons_of_mem _ hmem)
        · cases hev : (r.update highTs lowTs c).event c with
          | some e' =>
              rw [bosStep_of_some hev] at hrefs
              rcases hrefs with hrefs | hrefs <;> cases hrefs
          | none =>
              rw [bosStep_of_none hev] at hrefs
              exact hhead (update_refs hrefs)

theorem mem_freshZones {seen : List (BosDirection × ℤ)}
    (h : z ∈ freshZones cs htfIntervalMs seen es) : ∃ e ∈ es, z = zoneOf cs htfIntervalMs e := by
  induction es generalizing seen with
  | nil => cases h
  | cons e es ih =>
      have hlater : ∀ {seen}, z ∈ freshZones cs htfIntervalMs seen es →
          ∃ e' ∈ e :: es, z = zoneOf cs htfIntervalMs e' := by
        intro seen hz
        obtain ⟨e', he', heq⟩ := ih hz
        exact ⟨e', List.mem_cons_of_mem _ he', heq⟩
      rw [freshZones] at h
      split at h
      · exact hlater h
      split at h
      · exact hlater h
      · rcases List.mem_cons.mp h with heq | h
        · exact ⟨e, List.mem_cons_self, heq⟩
        · exact hlater h

theorem sliceTo_subset {α : Type} {n : ℤ} {xs : List α} : ∀ x ∈ sliceTo n xs, x ∈ xs := by
  intro x hx
  unfold sliceTo at hx
  split at hx
  · exact List.mem_of_mem_take hx
  · exact List.mem_of_mem_take hx

theorem mem_newestZones {direction : BosDirection} {zones : List HtfRange}
    (h : z ∈ newestZones maxZonesPerDir direction zones) : z ∈ zones := by
  have hmem := List.mem_insertionSort _ |>.mp (sliceTo_subset z h)
  exact (List.mem_filter.mp hmem).1

theorem newestZones_direction {maxZonesPerDir : ℤ} {direction : BosDirection}
    {zones : List HtfRange} {z : HtfRange} (h : z ∈ newestZones maxZonesPerDir direction zones) :
    z.bosDirection = direction := by
  have hmem := List.mem_insertionSort _ |>.mp (sliceTo_subset z h)
  exact of_decide_eq_true (List.mem_filter.mp hmem).2

theorem mem_findHtfRanges (h : z ∈ findHtfRanges cs pivotBars htfIntervalMs maxZonesPerDir) :
    ∃ e ∈ detectBosEvents cs pivotBars, z = zoneOf cs htfIntervalMs e := by
  unfold findHtfRanges at h
  split at h
  · cases h
  · rcases List.mem_append.mp h with h | h
    · exact mem_freshZones (mem_newestZones h)
    · exact mem_freshZones (mem_newestZones h)

/-- The break of a zone and its swing are candles of the list. -/
theorem zone_candles (h : z ∈ findHtfRanges cs pivotBars htfIntervalMs maxZonesPerDir) :
    (∃ c ∈ cs, z.brokenAt = c.timestamp) ∧ ∃ c ∈ cs, z.timestamp = c.timestamp := by
  obtain ⟨e, he, rfl⟩ := mem_findHtfRanges h
  refine ⟨bosWalk_timestamp he, ?_⟩
  rcases bosWalk_swing he with hmem | hhigh | hlow
  · exact ⟨e.swingCandle, hmem, rfl⟩
  · cases hhigh
  · cases hlow

/-- So is the candle the entries of a zone are looked for from. -/
theorem zoneStart_candle (h : z ∈ findHtfRanges cs pivotBars htfIntervalMs maxZonesPerDir) :
    ∃ c ∈ cs, z.zoneStart = c.timestamp := by
  unfold HtfRange.zoneStart
  split
  · exact (zone_candles h).1
  · exact (zone_candles h).2

/-! ## Displacement -/

/-- The test of a break candle against the candles before it. -/
def displaced (prior : List Candle) (bos : Candle) (atrMult : ℚ) : Bool :=
  if prior = [] then true
  else
    let avgBody := (prior.map Candle.body).sum / prior.length
    if avgBody < minBody then true else decide (atrMult * avgBody ≤ bos.body)

theorem detectDisplacement_at {pre post : List Candle} (hpre : ∀ d ∈ pre, d.timestamp ≠ c.timestamp)
    (atrPeriod : ℤ) (atrMult : ℚ) :
    detectDisplacement (pre ++ c :: post) c.timestamp atrPeriod atrMult =
      displaced (pre.drop (max 0 ((pre.length : ℤ) - atrPeriod)).toNat) c atrMult := by
  have hidx : (pre ++ c :: post).findIdx? (fun d => decide (d.timestamp = c.timestamp)) =
      some pre.length := by
    rw [List.findIdx?_append, List.findIdx?_eq_none_iff.mpr fun d hd => by simpa using hpre d hd,
      List.findIdx?_cons, if_pos (decide_eq_true rfl)]
    simp
  unfold detectDisplacement
  rw [hidx]
  cases hlen : pre.length with
  | zero =>
      rw [List.length_eq_zero_iff.mp hlen, List.drop_nil]
      rfl
  | succ i =>
      have hbos : (pre ++ c :: post)[i + 1]? = some c := by
        rw [← hlen, List.getElem?_append_right le_rfl, Nat.sub_self, List.getElem?_cons_zero]
      have htake : (pre ++ c :: post).take (i + 1) = pre := by
        rw [← hlen, List.take_left]
      dsimp only
      rw [hbos, htake]
      rfl

/-- Candles further back than the period do not matter; a negative period averages nothing. -/
theorem detectDisplacement_drop {pre post : List Candle} {k : ℕ} {atrPeriod : ℤ}
    (hs : Chronological (pre ++ c :: post)) (hk : (k : ℤ) + max atrPeriod 0 ≤ pre.length)
    (atrMult : ℚ) :
    detectDisplacement (pre.drop k ++ c :: post) c.timestamp atrPeriod atrMult =
      detectDisplacement (pre ++ c :: post) c.timestamp atrPeriod atrMult := by
  have hpre : ∀ d ∈ pre, d.timestamp ≠ c.timestamp :=
    fun d hd => ((List.pairwise_append.mp hs).2.2 d hd c List.mem_cons_self).ne
  rw [detectDisplacement_at hpre,
    detectDisplacement_at fun d hd => hpre d (List.mem_of_mem_drop hd),
    List.drop_drop, List.length_drop]
  congr 2
  omega

end SignalEngine
