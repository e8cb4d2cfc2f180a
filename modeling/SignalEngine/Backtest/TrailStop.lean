/-
  Trail stop: what the giveback stop of `_simulate_with_giveback_trailing` can be.

  Prices are measured by `gain`, the distance from entry in the trade's favour, so that longs
  and shorts are one case. `trailStates` lists the states in which the candles are read; the
  stop a candle is tested against is `effectiveSl` of its state.

  A candle either leaves the stop alone or moves it to the kept share of the best gain
  (`advanceGivebackSl_spec`). From this the invariant `TrailInv` of the states follows by
  induction on the candles, and from the invariant the laws of the stop (`giveback_laws`). They
  ask for percentages within their bounds; `negativeShare_books_loss` is an accepted profile that
  is not within them.
-/
import SignalEngine.Backtest.Trailing
import SignalEngine.Domain.Gain
import SignalEngine.Domain.ProfileBounds

namespace SignalEngine

/-! ## Measures -/

/-- The extreme of a candle on the winning side. -/
def favourableExtreme (s : TradeSignal) (c : Candle) : ℚ :=
  match s.direction with
  | .long => c.high
  | .short => c.low

/-- The candles from the one that reaches TP1 on. -/
def sinceTp1 (s : TradeSignal) (cs : List Candle) : List Candle :=
  cs.dropWhile fun c => !reachesTarget s.direction c s.tp1

/-- The best favourable move since TP1. -/
def bestGain (s : TradeSignal) (cs : List Candle) : ℚ :=
  ((sinceTp1 s cs).map fun c => gain s (favourableExtreme s c)).foldr max 0

/-- The states in which the candles are read, up to the one that closes the trade. -/
def trailStates (p : AssetProfile) (pct : ℚ) (st : TrailState) : List Candle → List TrailState
  | [] => []
  | c :: cs =>
      st :: match trailStep p pct st c with
        | .inl _ => []
        | .inr st' => trailStates p pct st' cs

/-- The stops the candles are tested against. -/
def stopsTested (p : AssetProfile) (pct : ℚ) (s : TradeSignal) (F : List Candle) : List ℚ :=
  (trailStates p pct (TrailState.start s) F).map (TrailState.effectiveSl p)

variable {p : AssetProfile} {pct : ℚ} {s s' : TradeSignal} {st st' : TrailState} {c : Candle}
  {pre F : List Candle} {x y : ℚ}

theorem rrAtPrice_eq (s : TradeSignal) (x : ℚ) : rrAtPrice s x = rAt s x := by
  unfold rrAtPrice rAt gain
  cases s.direction <;> rfl

theorem gain_congr (h : SameTrade s s') : gain s' = gain s := by
  funext x
  unfold gain
  rw [h.direction_eq, h.entryPrice_eq]

theorem favourableExtreme_congr (h : SameTrade s s') :
    favourableExtreme s' = favourableExtreme s := by
  funext c
  unfold favourableExtreme
  rw [h.direction_eq]

/-! ## One advance -/

/-- The best price moves to the better of itself and the candle's extreme; the stop stays, or
    moves to the kept share of that gain, which lies beyond the stop and short of the close. -/
structure Advance (pct : ℚ) (c : Candle) (st st' : TrailState) : Prop where
  probe_eq : st'.probe = st.probe
  seen_eq : st'.tp1Seen = st.tp1Seen
  best : ∃ b, st'.trailMfePrice = some b ∧
    gain st.probe b = max (gain st.probe (pyOr st.trailMfePrice (favourableExtreme st.probe c)))
      (gain st.probe (favourableExtreme st.probe c)) ∧
    (st'.currentSl = st.currentSl ∧ st'.trailedSl = st.trailedSl ∨
      gain st.probe st'.currentSl = gain st.probe b * (1 - pct / 100) ∧
        st'.trailedSl = some st'.currentSl ∧
        gain st.probe st.currentSl < gain st.probe st'.currentSl ∧
        gain st.probe st'.currentSl < gain st.probe c.close)

/-- The shape of an advance in either direction: `b` is the best price, `sl` the proposed stop. -/
theorem Advance.of_tests {b sl : ℚ} {P Q : Prop} [Decidable P] [Decidable Q]
    (hbest : gain st.probe b =
      max (gain st.probe (pyOr st.trailMfePrice (favourableExtreme st.probe c)))
        (gain st.probe (favourableExtreme st.probe c)))
    (hkept : gain st.probe sl = gain st.probe b * (1 - pct / 100))
    (hmove : Q → gain st.probe st.currentSl < gain st.probe sl ∧
      gain st.probe sl < gain st.probe c.close) :
    Advance pct c st
      (if P then { st with trailMfePrice := some b }
      else if Q then { st with currentSl := sl, trailMfePrice := some b, trailedSl := some sl }
      else { st with trailMfePrice := some b }) := by
  split
  · exact ⟨rfl, rfl, b, rfl, hbest, Or.inl ⟨rfl, rfl⟩⟩
  split
  · next hq => exact ⟨rfl, rfl, b, rfl, hbest, Or.inr ⟨hkept, rfl, hmove hq⟩⟩
  · exact ⟨rfl, rfl, b, rfl, hbest, Or.inl ⟨rfl, rfl⟩⟩

theorem advanceGivebackSl_spec (pct : ℚ) (st : TrailState) (c : Candle) :
    Advance pct c st (advanceGivebackSl pct st c) := by
  unfold advanceGivebackSl
  cases hd : st.probe.direction with
  | long =>
      refine Advance.of_tests ?_ ?_ fun hmove => ?_
      · simp only [gain_of_long hd, favourableExtreme, hd]
        exact (max_sub_sub_right _ _ _).symm
      · simp only [gain_of_long hd]
        ring
      · simp only [gain_of_long hd]
        exact ⟨by linarith [hmove.1], by linarith [hmove.2]⟩
  | short =>
      refine Advance.of_tests ?_ ?_ fun hmove => ?_
      · simp only [gain_of_short hd, favourableExtreme, hd]
        exact (max_sub_sub_left _ _ _).symm
      · simp only [gain_of_short hd]
        ring
      · simp only [gain_of_short hd]
        exact ⟨by linarith [hmove.1], by linarith [hmove.2]⟩

/-! ## The best move -/

theorem foldr_max_append (xs : List ℚ) (x : ℚ) :
    (xs ++ [x]).foldr max 0 = max x (xs.foldr max 0) := by
  induction xs with
  | nil => rfl
  | cons y ys ih => rw [List.cons_append, List.foldr_cons, ih, List.foldr_cons, max_left_comm]

theorem bestGain_nonneg (s : TradeSignal) (cs : List Candle) : 0 ≤ bestGain s cs := by
  unfold bestGain
  induction (sinceTp1 s cs).map fun c => gain s (favourableExtreme s c) with
  | nil => exact le_rfl
  | cons x xs ih => exact ih.trans (le_max_right _ _)

/-- Once TP1 has been reached every candle counts. -/
theorem bestGain_concat (h : ∃ d ∈ pre ++ [c], reachesTarget s.direction d s.tp1 = true) :
    bestGain s (pre ++ [c]) = max (gain s (favourableExtreme s c)) (bestGain s pre) := by
  have hsince : sinceTp1 s (pre ++ [c]) = sinceTp1 s pre ++ [c] := by
    unfold sinceTp1
    rw [List.dropWhile_append]
    split
    · next hempty =>
        rw [List.isEmpty_iff] at hempty
        have hnone := List.dropWhile_eq_nil_iff.mp hempty
        obtain ⟨d, hd, hreach⟩ := h
        rcases List.mem_append.mp hd with hd | hd
        · have := hnone d hd
          rw [hreach] at this
          cases this
        · obtain rfl := List.mem_singleton.mp hd
          rw [hempty, List.dropWhile_cons_of_neg (by rw [hreach]; decide)]
          rfl
    · rfl
  unfold bestGain
  rw [hsince, List.map_append, List.map_singleton, foldr_max_append]

/-! ## The invariant of the states -/

/-- The protecting stop when the candle arrives: the breakeven level on the TP1 candle. -/
def TrailState.baseSl (st : TrailState) : ℚ :=
  if st.tp1Seen then st.currentSl else st.probe.entryPrice

/-- A candle passed before TP1 leaves the state to itself, one passed from TP1 on advances the
    stop from where it stands. -/
theorem next_spec (hbe : p.moveSlToBeOnTp1 = true) (pct : ℚ) (st : TrailState) (c : Candle) :
    (st.tp1Seen = false ∧ reachesTarget st.probe.direction c st.probe.tp1 = false ∧
      st.next p pct c = st.touch c) ∨
    ((st.tp1Seen = true ∨ reachesTarget st.probe.direction c st.probe.tp1 = true) ∧
      ∃ base, base.tp1Seen = true ∧ SameTrade st.probe base.probe ∧
        base.trailMfePrice = st.trailMfePrice ∧ base.currentSl = st.baseSl ∧
        base.trailedSl = st.trailedSl ∧ Advance pct c base (st.next p pct c)) := by
  unfold TrailState.next TrailState.trail TrailState.baseSl
  cases hseen : st.tp1Seen with
  | true =>
      have hsee : (st.touch c).seeTp1 p c = st.touch c := by
        simp only [TrailState.seeTp1, touch_tp1Seen, hseen, Bool.not_true, Bool.and_false,
          Bool.false_eq_true, if_false]
      have hprot : (st.touch c).protects p = true := protects_eq_true_iff.mpr ⟨hseen, hbe⟩
      rw [hsee, hprot, if_pos rfl]
      exact Or.inr ⟨Or.inl rfl, st.touch c, hseen, SameTrade.refl _, rfl, rfl, rfl,
        advanceGivebackSl_spec pct _ c⟩
  | false =>
      cases hreach : reachesTarget st.probe.direction c st.probe.tp1 with
      | true =>
          have hsee : (st.touch c).seeTp1 p c =
              { st.touch c with
                tp1Seen := true
                probe := { st.probe with tp1HitAt := some c.timestamp }
                currentSl := st.probe.entryPrice } := by
            simp only [TrailState.seeTp1, touch_tp1Seen, touch_probe, hseen, hreach, Bool.not_false,
              Bool.and_self, if_true, hbe]
            rfl
          have hprot : ((st.touch c).seeTp1 p c).protects p = true := by
            rw [hsee]
            exact protects_eq_true_iff.mpr ⟨rfl, hbe⟩
          rw [hprot, if_pos rfl, hsee]
          refine Or.inr ⟨Or.inr rfl, { st.touch c with
            tp1Seen := true
            probe := { st.probe with tp1HitAt := some c.timestamp }
            currentSl := st.probe.entryPrice }, rfl, ?_, rfl, rfl, rfl,
            advanceGivebackSl_spec pct _ c⟩
          constructor <;> rfl
      | false =>
          have hsee : (st.touch c).seeTp1 p c = st.touch c := by
            simp only [TrailState.seeTp1, touch_probe, hreach, Bool.false_and, Bool.false_eq_true,
              if_false]
          have hprot : (st.touch c).protects p = false := protects_of_not_seen hseen
          rw [hsee, hprot]
          exact Or.inl ⟨rfl, rfl, rfl⟩

/-- What a state knows after the candles `pre`. -/
structure TrailInv (pct : ℚ) (s : TradeSignal) (pre : List Candle) (st : TrailState) : Prop where
  same : SameTrade s st.probe
  seen_iff : st.tp1Seen = true ↔ ∃ d ∈ pre, reachesTarget s.direction d s.tp1 = true
  fresh : st.tp1Seen = false → st.trailMfePrice = none
  best_le : ∀ b, st.trailMfePrice = some b → gain s b ≤ bestGain s pre
  not_worse : st.tp1Seen = true → 0 ≤ gain s st.currentSl
  bound : st.tp1Seen = true → gain s st.currentSl ≤ (1 - pct / 100) * bestGain s pre

theorem trailInv_start (pct : ℚ) (s : TradeSignal) : TrailInv pct s [] (TrailState.start s) where
  same := SameTrade.refl s
  seen_iff := by simp [TrailState.start]
  fresh := fun _ => rfl
  best_le := fun b hb => by cases hb
  not_worse := fun h => by cases h
  bound := fun h => by cases h

theorem TrailInv.baseSl_nonneg (h : TrailInv pct s pre st) : 0 ≤ gain s st.baseSl := by
  unfold TrailState.baseSl
  split
  · next hseen => exact h.not_worse hseen
  · rw [h.same.entryPrice_eq, gain_entry]

theorem TrailInv.baseSl_le (h : TrailInv pct s pre st) (hpct : pct < 100) :
    gain s st.baseSl ≤ (1 - pct / 100) * bestGain s pre := by
  unfold TrailState.baseSl
  split
  · next hseen => exact h.bound hseen
  · rw [h.same.entryPrice_eq, gain_entry]
    exact mul_nonneg (by linarith) (bestGain_nonneg s pre)

/-- The best price a candle finds, or its own extreme, is no better than the best gain. -/
theorem TrailInv.pyOr_le (h : TrailInv pct s pre st) (x : ℚ) :
    gain s (pyOr st.trailMfePrice x) ≤ max (gain s x) (bestGain s pre) := by
  unfold pyOr
  split
  · next hne =>
      cases hm : st.trailMfePrice with
      | none => rw [hm] at hne; exact absurd rfl hne
      | some b => exact (h.best_le b hm).trans (le_max_right _ _)
  · exact le_max_left _ _

/-- A candle that is passed keeps the invariant. -/
theorem TrailInv.next (h : TrailInv pct s pre st) (hbe : p.moveSlToBeOnTp1 = true)
    (hpct : pct < 100) (c : Candle) : TrailInv pct s (pre ++ [c]) (st.next p pct c) := by
  have hreach : reachesTarget st.probe.direction c st.probe.tp1 =
      reachesTarget s.direction c s.tp1 := by rw [h.same.direction_eq, h.same.tp1_eq]
  have hkeep : 0 ≤ 1 - pct / 100 := by linarith
  rcases next_spec hbe pct st c with
    ⟨hseen, hnot, heq⟩ | ⟨hor, base, hbase, hsame, hmfe, hsl, -, hadv⟩
  · have hunseen : (st.touch c).tp1Seen ≠ true := by
      rw [touch_tp1Seen, hseen]
      decide
    rw [heq]
    refine ⟨h.same, iff_of_false hunseen ?_, fun _ => h.fresh hseen, fun b hb => ?_,
      fun hs => absurd hs hunseen, fun hs => absurd hs hunseen⟩
    · rintro ⟨d, hd, hreached⟩
      rcases List.mem_append.mp hd with hd | hd
      · exact hunseen (h.seen_iff.mpr ⟨d, hd, hreached⟩)
      · rw [List.mem_singleton.mp hd, ← hreach, hnot] at hreached
        cases hreached
    · rw [show (st.touch c).trailMfePrice = none from h.fresh hseen] at hb
      cases hb
  · have hmem : ∃ d ∈ pre ++ [c], reachesTarget s.direction d s.tp1 = true := by
      rcases hor with hseen | hc
      · obtain ⟨d, hd, hr⟩ := h.seen_iff.mp hseen
        exact ⟨d, List.mem_append_left _ hd, hr⟩
      · exact ⟨c, List.mem_append_right _ (List.mem_singleton_self c), hreach ▸ hc⟩
    have hgain : gain base.probe = gain s := gain_congr (h.same.trans hsame)
    have hextreme : favourableExtreme base.probe = favourableExtreme s :=
      favourableExtreme_congr (h.same.trans hsame)
    have hseen' : (st.next p pct c).tp1Seen = true := hadv.seen_eq.trans hbase
    have hgrow : bestGain s pre ≤ bestGain s (pre ++ [c]) := by
      rw [bestGain_concat hmem]
      exact le_max_right _ _
    obtain ⟨b, hb, hbest, hmove⟩ := hadv.best
    rw [hgain, hextreme, hmfe] at hbest
    have hbest_le : gain s b ≤ bestGain s (pre ++ [c]) := by
      rw [bestGain_concat hmem, hbest]
      exact max_le (h.pyOr_le _) (le_max_left _ _)
    rw [hgain, hsl] at hmove
    refine ⟨?_, iff_of_true hseen' hmem, fun hs => ?_, fun b' hb' => ?_, fun _ => ?_, fun _ => ?_⟩
    · rw [hadv.probe_eq]
      exact h.same.trans hsame
    · rw [hseen'] at hs
      cases hs
    · rw [hb] at hb'
      exact Option.some.inj hb' ▸ hbest_le
    · rcases hmove with ⟨heq, -⟩ | ⟨-, -, hlt, -⟩
      · rw [heq]
        exact h.baseSl_nonneg
      · exact h.baseSl_nonneg.trans hlt.le
    · rcases hmove with ⟨heq, -⟩ | ⟨heq, -⟩
      · rw [heq]
        exact (h.baseSl_le hpct).trans (mul_le_mul_of_nonneg_left hgrow hkeep)
      · rw [heq, mul_comm]
        exact mul_le_mul_of_nonneg_left hbest_le hkeep

/-! ## Runs -/

/-- Every state of a run knows the candles before it. -/
theorem TrailInv.states (hbe : p.moveSlToBeOnTp1 = true) (hpct : pct < 100)
    (h : TrailInv pct s pre st) (F : List Candle) {k : ℕ}
    (hk : (trailStates p pct st F)[k]? = some st') : TrailInv pct s (pre ++ F.take k) st' := by
  induction F generalizing pre st k with
  | nil => cases hk
  | cons c cs ih =>
      cases k with
      | zero =>
          obtain rfl := Option.some.inj hk
          rwa [List.take_zero, List.append_nil]
      | succ k =>
          have hstep := trailStep_step p pct st c
          rw [trailStates, List.getElem?_cons_succ] at hk
          generalize trailStep p pct st c = r at hstep hk
          cases hstep with
          | expireProtected | expire | win | stopProtected | stop => cases hk
          | next =>
              have := ih (h.next hbe hpct c) hk
              rwa [List.append_assoc, List.singleton_append] at this

/-- The state of a candle is settled by the candles before it. -/
theorem trailStates_congr (st : TrailState) {F F' : List Candle} {k : ℕ}
    (h : F.take k = F'.take k) (hF : k < F.length) (hF' : k < F'.length) :
    (trailStates p pct st F)[k]? = (trailStates p pct st F')[k]? := by
  induction k generalizing F F' st with
  | zero =>
      cases F with
      | nil => cases hF
      | cons c cs =>
          cases F' with
          | nil => cases hF'
          | cons c' cs' => rfl
  | succ k ih =>
      cases F with
      | nil => cases hF
      | cons c cs =>
          cases F' with
          | nil => cases hF'
          | cons c' cs' =>
              rw [List.take_succ_cons, List.take_succ_cons] at h
              obtain ⟨rfl, hrest⟩ := List.cons.inj h
              rw [trailStates, trailStates, List.getElem?_cons_succ, List.getElem?_cons_succ]
              cases trailStep p pct st c with
              | inl r => rfl
              | inr st' =>
                  exact ih st' hrest (Nat.lt_of_succ_lt_succ hF) (Nat.lt_of_succ_lt_succ hF')

/-- The next candle is read in the state the one before has left. -/
theorem trailStates_succ {k : ℕ} {st₀ : TrailState} (hk : (trailStates p pct st₀ F)[k]? = some st)
    (hc : F[k]? = some c) (hstep : trailStep p pct st c = .inr st') (hlt : k + 1 < F.length) :
    (trailStates p pct st₀ F)[k + 1]? = some st' := by
  induction F generalizing st₀ k with
  | nil => cases hc
  | cons d ds ih =>
      cases k with
      | zero =>
          obtain rfl := Option.some.inj hk
          obtain rfl := Option.some.inj hc
          cases ds with
          | nil => exact absurd hlt (by simp)
          | cons d' ds' => rw [trailStates, hstep]; rfl
      | succ k =>
          rw [trailStates, List.getElem?_cons_succ] at hk ⊢
          cases hd : trailStep p pct st₀ d with
          | inl r => rw [hd] at hk; cases hk
          | inr st₁ =>
              rw [hd] at hk
              exact ih hk hc (Nat.lt_of_succ_lt_succ hlt)

/-- A simulation runs out of candles or closes at one of them, in the state it is read in. -/
theorem trailLoop_closes (p : AssetProfile) (pct : ℚ) (st : TrailState) (F : List Candle) :
    (trailLoop p pct st F).outcome = .expired ∧ (trailLoop p pct st F).closeTs = none ∨
      ∃ (k : ℕ) (st' : TrailState) (c : Candle), (trailStates p pct st F)[k]? = some st' ∧
        F[k]? = some c ∧ trailStep p pct st' c = .inl (trailLoop p pct st F) := by
  induction F generalizing st with
  | nil => exact Or.inl ⟨rfl, rfl⟩
  | cons c cs ih =>
      rw [trailLoop, trailStates]
      cases hstep : trailStep p pct st c with
      | inl r => exact Or.inr ⟨0, st, c, rfl, rfl, hstep⟩
      | inr st' =>
          rcases ih st' with h | ⟨k, st₁, d, hk, hd, heq⟩
          · exact Or.inl h
          · exact Or.inr ⟨k + 1, st₁, d, hk, hd, heq⟩

/-! ## The laws of the stop -/

/-- What holds of the stop when the candle `c` at position `k` has been passed. -/
structure StopLaws (p : AssetProfile) (pct : ℚ) (s : TradeSignal) (F : List Candle) (k : ℕ)
    (c : Candle) (st st' : TrailState) : Prop where
  tested : k + 1 < F.length → (stopsTested p pct s F)[k + 1]? = some (st'.effectiveSl p)
  seen_iff : st'.tp1Seen = true ↔
    ∃ d ∈ F.take (k + 1), reachesTarget s.direction d s.tp1 = true
  in_favour : gain s (st.effectiveSl p) ≤ gain s (st'.effectiveSl p)
  not_worse : st'.tp1Seen = true → 0 ≤ gain s (st'.effectiveSl p)
  moves : st'.tp1Seen = true →
    st'.effectiveSl p = (if st.tp1Seen then st.effectiveSl p else s.entryPrice) ∨
      0 < gain s (st'.effectiveSl p) ∧ gain s (st'.effectiveSl p) < gain s c.close
  bound : st'.tp1Seen = true →
    gain s (st'.effectiveSl p) ≤ (1 - pct / 100) * bestGain s (F.take (k + 1))

theorem effectiveSl_seen (hbe : p.moveSlToBeOnTp1 = true) (hseen : st.tp1Seen = true) :
    st.effectiveSl p = st.currentSl :=
  effectiveSl_of_protects (protects_eq_true_iff.mpr ⟨hseen, hbe⟩)

theorem TrailInv.effectiveSl_unseen (h : TrailInv pct s pre st) (hseen : st.tp1Seen = false) :
    st.effectiveSl p = s.stopLoss := by
  rw [effectiveSl_of_not_protects (protects_of_not_seen hseen), h.same.stopLoss_eq]

theorem TrailInv.baseSl_eq (h : TrailInv pct s pre st) (hbe : p.moveSlToBeOnTp1 = true) :
    st.baseSl = if st.tp1Seen then st.effectiveSl p else s.entryPrice := by
  unfold TrailState.baseSl
  split
  · next hseen => exact (effectiveSl_seen hbe hseen).symm
  · exact h.same.entryPrice_eq

/-- How the protecting stop follows from the one before. -/
theorem TrailInv.stop_next (h : TrailInv pct s pre st) (hbe : p.moveSlToBeOnTp1 = true)
    (c : Candle) (hseen : (st.next p pct c).tp1Seen = true) :
    (st.next p pct c).currentSl = st.baseSl ∨
      gain s st.baseSl < gain s (st.next p pct c).currentSl ∧
        gain s (st.next p pct c).currentSl < gain s c.close := by
  rcases next_spec hbe pct st c with
    ⟨hunseen, -, heq⟩ | ⟨-, base, -, hsame, -, hsl, -, hadv⟩
  · rw [heq, touch_tp1Seen, hunseen] at hseen
    cases hseen
  · have hgain : gain base.probe = gain s := gain_congr (h.same.trans hsame)
    obtain ⟨b, -, -, ⟨heq, -⟩ | ⟨-, -, hlt, hclose⟩⟩ := hadv.best
    · exact Or.inl (heq.trans hsl)
    · rw [hgain, hsl] at hlt
      rw [hgain] at hclose
      exact Or.inr ⟨hlt, hclose⟩

theorem TrailInv.stopLaws {k : ℕ} (h : TrailInv pct s (F.take k) st)
    (hbe : p.moveSlToBeOnTp1 = true) (hpct : pct < 100) (hside : gain s s.stopLoss ≤ 0)
    (hk : (trailStates p pct (TrailState.start s) F)[k]? = some st) (hc : F[k]? = some c)
    (hstep : trailStep p pct st c = .inr st') : StopLaws p pct s F k c st st' := by
  have hnext : st' = st.next p pct c := by
    have hcase := trailStep_step p pct st c
    rw [hstep] at hcase
    cases hcase
    rfl
  subst hnext
  have htake : F.take (k + 1) = F.take k ++ [c] := by
    rw [List.take_add_one, hc]
    rfl
  have hinv := h.next hbe hpct c
  rw [← htake] at hinv
  have hbase := h.baseSl_nonneg
  -- the protecting stop has not fallen behind the level it started the candle at
  have hforward : (st.next p pct c).tp1Seen = true →
      gain s st.baseSl ≤ gain s (st.next p pct c).currentSl := by
    intro hseen
    rcases h.stop_next hbe c hseen with heq | ⟨hlt, -⟩
    · rw [heq]
    · exact hlt.le
  refine ⟨fun hlt => ?_, hinv.seen_iff, ?_, fun hseen => ?_, fun hseen => ?_, fun hseen => ?_⟩
  · rw [stopsTested, List.getElem?_map, trailStates_succ hk hc hstep hlt]
    rfl
  · cases hseen : (st.next p pct c).tp1Seen with
    | false =>
        have hbefore : st.tp1Seen = false := by
          rw [Bool.eq_false_iff]
          intro hst
          obtain ⟨d, hd, hr⟩ := h.seen_iff.mp hst
          have := hinv.seen_iff.mpr ⟨d, htake ▸ List.mem_append_left _ hd, hr⟩
          rw [hseen] at this
          cases this
        rw [h.effectiveSl_unseen hbefore, hinv.effectiveSl_unseen hseen]
    | true =>
        rw [effectiveSl_seen hbe hseen]
        cases hbefore : st.tp1Seen with
        | false =>
            rw [h.effectiveSl_unseen hbefore]
            exact hside.trans (hbase.trans (hforward hseen))
        | true =>
            rw [effectiveSl_seen hbe hbefore]
            have := hforward hseen
            rwa [TrailState.baseSl, if_pos hbefore] at this
  · rw [effectiveSl_seen hbe hseen]
    exact hinv.not_worse hseen
  · rw [effectiveSl_seen hbe hseen, ← h.baseSl_eq hbe]
    exact (h.stop_next hbe c hseen).imp id (fun hmove => ⟨hbase.trans_lt hmove.1, hmove.2⟩)
  · rw [effectiveSl_seen hbe hseen]
    exact hinv.bound hseen

/-- A breakeven result books at least the protected R and the R of its close price. -/
theorem TrailInv.breakeven (h : TrailInv pct s pre st) (hp : p.PctInRange)
    (hrr : 0 < s.riskRewardRatio) {r : BacktestResult}
    (hstep : trailStep p pct st c = .inl r) (ho : r.outcome = .breakeven) :
    ∃ px, r.closePrice = some px ∧
      max (protectedBeRr s p) (rrAtPrice s px) ≤ r.realizedRr ∧
      0 ≤ max (protectedBeRr s p) (rrAtPrice s px) := by
  have hprotected : 0 ≤ protectedBeRr s p := tp1BookedRr_nonneg hp hrr.le
  have hbe : protectedBeRr st.probe p = protectedBeRr s p := by
    rw [protectedBeRr, h.same.riskRewardRatio_eq]
    rfl
  have hrrAt : rrAtPrice st.probe = rrAtPrice s := by
    funext x
    rw [rrAtPrice_eq, rrAtPrice_eq, rAt, rAt, gain_congr h.same, h.same.riskPips_eq]
  have hcase := trailStep_step p pct st c
  rw [hstep] at hcase
  cases hcase with
  | expireProtected =>
      refine ⟨st.probe.entryPrice, rfl, ?_, hprotected.trans (le_max_left _ _)⟩
      have hentry : rrAtPrice s st.probe.entryPrice = 0 := by
        rw [h.same.entryPrice_eq, rrAtPrice_eq, rAt_entry]
      rw [hentry, max_eq_left hprotected]
      exact hbe.ge
  | stopProtected =>
      refine ⟨st.currentSl, rfl, ?_, hprotected.trans (le_max_left _ _)⟩
      rw [← hbe, ← hrrAt]
      exact le_rfl
  | expire | win | stop => cases ho

section BuiltSignals

variable {symbol : String} {htfInterval ltfInterval : Interval} {htfRange : HtfRange}
  {rejection : RejectionCandle} {signalId : SignalId} {p₀ : AssetProfile} {broker : String}
  {liveBid liveAsk : Option ℚ}

/-- **The giveback stop.** For a built signal whose stop moves to breakeven at TP1: every candle
    passed obeys the laws of the stop, a candle is tested against a stop that the candles before
    it have settled, and a breakeven result books at least the R of its close price. -/
theorem giveback_laws
    (hb : buildSignal symbol htfInterval ltfInterval htfRange rejection signalId p₀ broker
      liveBid liveAsk = some s)
    (hp : p.PctInRange) (hbe : p.moveSlToBeOnTp1 = true) (hpos : 0 < pct) (hpct : pct < 100)
    (F : List Candle) :
    (∀ (k : ℕ) st c st', (trailStates p pct (TrailState.start s) F)[k]? = some st →
      F[k]? = some c → trailStep p pct st c = .inr st' → StopLaws p pct s F k c st st') ∧
    (∀ (k : ℕ) F', F'.take k = F.take k → k < F.length → k < F'.length →
      (stopsTested p pct s F')[k]? = (stopsTested p pct s F)[k]?) ∧
    ∀ r, simulate p pct s F = .ok r → r.outcome = .breakeven → ∃ px, r.closePrice = some px ∧
      max (protectedBeRr s p) (rrAtPrice s px) ≤ r.realizedRr ∧
      0 ≤ max (protectedBeRr s p) (rrAtPrice s px) := by
  have hfrom := buildSignal_eq_some hb
  have hside : gain s s.stopLoss ≤ 0 := by
    rw [hfrom.gain_stop]
    exact neg_nonpos.mpr hfrom.riskPips_pos.le
  have hinv : ∀ (k : ℕ) st, (trailStates p pct (TrailState.start s) F)[k]? = some st →
      TrailInv pct s (F.take k) st := by
    intro k st hk
    exact (trailInv_start pct s).states hbe hpct F hk
  refine ⟨fun k st c st' hk hc hstep => ?_, fun k F' htake hF hF' => ?_, fun r hr ho => ?_⟩
  · exact (hinv k st hk).stopLaws hbe hpct hside hk hc hstep
  · rw [stopsTested, stopsTested, List.getElem?_map, List.getElem?_map,
      trailStates_congr _ htake hF' hF]
  · have hloop : F ≠ [] → r = trailLoop p pct (TrailState.start s) F := by
      intro hne
      rw [simulate, if_neg hne, if_pos hpos] at hr
      exact (Except.ok.inj hr).symm
    by_cases hF : F = []
    · rw [simulate, if_pos hF] at hr
      cases hr
      cases ho
    · rw [hloop hF] at ho ⊢
      rcases trailLoop_closes p pct (TrailState.start s) F with
        ⟨hexp, -⟩ | ⟨k, st, c, hk, -, hstep⟩
      · rw [hexp] at ho
        cases ho
      · exact (hinv k st hk).breakeven hp hfrom.riskRewardRatio_pos hstep ho

end BuiltSignals

/-- The sample trade reaches TP1, trails its stop from 99.9 to 113 and is closed there. -/
theorem giveback_sampleSignal :
    stopsTested sampleProfile 50 sampleSignal
        [⟨7500000, 106, 120, 105, 119, 0⟩, ⟨7800000, 119, 119, 104, 105, 0⟩] = [999 / 10, 113] ∧
      ∀ r, simulate sampleProfile 50 sampleSignal
          [⟨7500000, 106, 120, 105, 119, 0⟩, ⟨7800000, 119, 119, 104, 105, 0⟩] = .ok r →
        r.outcome = .breakeven → ∃ px, r.closePrice = some px ∧
          max (protectedBeRr sampleSignal sampleProfile) (rrAtPrice sampleSignal px) ≤
            r.realizedRr ∧
          0 ≤ max (protectedBeRr sampleSignal sampleProfile) (rrAtPrice sampleSignal px) :=
  ⟨by decide +kernel,
    (giveback_laws sampleSignal_built sampleProfile_pctInRange rfl (by norm_num) (by norm_num)
      [⟨7500000, 106, 120, 105, 119, 0⟩, ⟨7800000, 119, 119, 104, 105, 0⟩]).2.2⟩

/-! ## A negative close share -/

/-- `XAUUSD: {"60/5": {tp1_close_pct: -50}}`. -/
def negativeShareYaml : YamlValue :=
  .map [("XAUUSD", .map [("60/5", .map [("tp1_close_pct", .num (.finite (-50)))])])]

/-- The settings with what the parser makes of it. -/
def negativeShare : AppSettings :=
  { sampleSettings with
    tradeManagementTfOverrides :=
      [("XAUUSD", [("60/5", .entry { tp1ClosePct := some (.finite (-50)) })])] }

/-- The gold profile of these settings. -/
def negativeShareProfile : AssetProfile where
  minRr := 3 / 2
  maxRr := 8
  useSessionFilter := true
  sessions := [⟨0, 8, true, []⟩, ⟨8, 16, true, [9]⟩, ⟨16, 0, true, [17, 19]⟩]
  stopBufferPct := stopBufferPct
  maxSlZoneMult := 2
  tp1TriggerPct := 50
  tp1ClosePct := -50
  moveSlToBeOnTp1 := true
  signalExpiryHours := 120
  useTrendFilter := true
  htfLookback := 120
  multiTfIndependentPositions := true

/-- TP1 is reached, and the trade is closed at its entry five days later. -/
def expiredAfterTp1 : List Candle :=
  [⟨7800000, 106, 120, 105, 119, 0⟩, ⟨439800000, 110, 111, 106, 107, 0⟩]

/-- **A trade closed at breakeven may book a loss**, under accepted settings whose override has a
    negative close share. -/
theorem negativeShare_books_loss :
    ¬ ∀ (text : PyText) (raw : YamlValue) (cfg : AppSettings) (q : ResolvedProfile)
      (p : AssetProfile) (symbol : String) (htf ltf : Interval) (z : HtfRange)
      (rejection : RejectionCandle) (signalId : SignalId) (s : TradeSignal) (pct : ℚ)
      (F : List Candle) (r : BacktestResult),
      text.parseTradeManagementTfOverrides raw = .ok cfg.tradeManagementTfOverrides →
      cfg.postInit text.repr = .ok () →
      (AssetRegistry.mk cfg).get text.upper symbol (some htf) (some ltf) = .ok q →
      q.toAssetProfile = some p →
      buildSignal symbol htf ltf z rejection signalId p "" none none = some s →
      p.moveSlToBeOnTp1 = true → 0 < pct → pct < 100 →
      (∀ c ∈ F, c.OhlcConsistent ∧ 0 < c.low) → simulate p pct s F = .ok r →
      r.outcome = .breakeven → ∃ px, r.closePrice = some px ∧
        max (protectedBeRr s p) (rrAtPrice s px) ≤ r.realizedRr ∧
        0 ≤ max (protectedBeRr s p) (rrAtPrice s px) := by
  intro h
  have hparse : sampleText.parseTradeManagementTfOverrides negativeShareYaml =
      .ok negativeShare.tradeManagementTfOverrides := by
    decide +kernel
  have haccepted : negativeShare.postInit sampleText.repr = .ok () := by decide +kernel
  have hprofile : ((AssetRegistry.mk negativeShare).get sampleText.upper "XAUUSD" (some oneHour)
      (some fiveMin)).map ResolvedProfile.toAssetProfile = .ok (some negativeShareProfile) := by
    decide +kernel
  have hrun : ((buildSignal "XAUUSD" oneHour fiveMin sampleRange sampleRejection sampleId
      negativeShareProfile "" none none).map fun s =>
        (simulate negativeShareProfile 50 s expiredAfterTp1).map fun r =>
          (r.outcome, r.realizedRr)) = some (.ok (.breakeven, -(6000 / 6001))) := by
    decide +kernel
  obtain ⟨s, hs, hsim⟩ := Option.map_eq_some_iff.mp hrun
  cases hr : simulate negativeShareProfile 50 s expiredAfterTp1 with
  | error e =>
      rw [hr] at hsim
      cases hsim
  | ok r =>
  rw [hr] at hsim
  obtain ⟨houtcome, hrealized⟩ := Prod.mk.inj (Except.ok.inj hsim)
  cases hq : (AssetRegistry.mk negativeShare).get sampleText.upper "XAUUSD" (some oneHour)
      (some fiveMin) with
  | error e =>
      rw [hq] at hprofile
      cases hprofile
  | ok q =>
      rw [hq] at hprofile
      obtain ⟨px, -, hmax, hnonneg⟩ := h sampleText negativeShareYaml negativeShare q
        negativeShareProfile "XAUUSD" oneHour fiveMin sampleRange sampleRejection sampleId s 50
        expiredAfterTp1 r hparse haccepted hq (Except.ok.inj hprofile) hs rfl (by norm_num)
        (by norm_num) (by decide +kernel) hr houtcome
      rw [hrealized] at hmax
      linarith

end SignalEngine
