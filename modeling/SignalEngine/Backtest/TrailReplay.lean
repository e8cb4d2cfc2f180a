/-
  Trail replay: the trailing simulator against the replay when its stop never moves.

  Both loops refine `book`: the replay with its own expiry test and the weighted R of a full win
  (`simulateReplay_books`), the trailing loop, while `trailed_sl` stays unset, with its own
  expiry test and the full reward ratio (`trailLoop_books`). What parts the two is what parts the
  bookings, and the entry flag, which the replay never sets (`trailing_matches_replay_iff`).
-/
import SignalEngine.Backtest.Booking
import SignalEngine.Backtest.TrailStop

namespace SignalEngine

open Lib

variable {p : AssetProfile} {pct : ℚ} {s : TradeSignal} {st : TrailState} {c : Candle}
  {F : List Candle} {r : BacktestResult}

/-! ## The replay -/

/-- The replay comes to `b` and leaves the entry flag unset. -/
def ReplayBooks (p : AssetProfile) (s : TradeSignal) (F : List Candle) (b : Booking) : Prop :=
  ∃ r, simulateReplay p s F = .ok r ∧ r.booking = b ∧ r.hitEntryAfterTp1 = false

/-- A candle that closes the trade. -/
theorem replayBooks_of_closes {s' : TradeSignal} {emit : Bool} {o : SignalOutcome} (hc : c.Valid)
    (hstep : advance s c p c.timestamp = (s', ⟨true, emit⟩)) (ho : s'.outcome = some o)
    (F : List Candle) :
    ReplayBooks p s (c :: F) ⟨o, s'.realizedRr.getD 0, s'.closedAt, s'.closePrice⟩ := by
  refine ⟨⟨s', o, s'.realizedRr.getD 0, s'.closedAt, s'.closePrice, false, none, none, 0⟩, ?_,
    rfl, rfl⟩
  simp only [simulateReplay, replaySignalLifecycle, stepSignalState_of_valid hc, hstep, if_true, ho]

/-- A candle that passes the trade on. -/
theorem replayBooks_of_passes {s' : TradeSignal} {emit : Bool} {b : Booking} (hc : c.Valid)
    (hstep : advance s c p c.timestamp = (s', ⟨false, emit⟩)) (h : ReplayBooks p s' F b) :
    ReplayBooks p s (c :: F) b := by
  have heq : simulateReplay p s (c :: F) = simulateReplay p s' F := by
    simp only [simulateReplay, replaySignalLifecycle, stepSignalState_of_valid hc, hstep,
      Bool.false_eq_true, if_false]
  unfold ReplayBooks
  rw [heq]
  exact h

theorem simulateReplay_books_afterTp1 (h : Running s) (hs : s.status = .tp1Hit)
    (hvalid : ∀ c ∈ F, c.Valid) :
    ReplayBooks p s F (bookAfterTp1 p s
      (tp2WeightedRr s.riskRewardRatio p.tp1TriggerPct p.tp1ClosePct)
      (judged (isExpired s p) F)) := by
  induction F with
  | nil => exact ⟨_, simulateReplay_nil h, rfl, rfl⟩
  | cons c F ih =>
      obtain ⟨hc, hF⟩ := List.forall_mem_cons.mp hvalid
      have hcase := advance_cases_tp1Hit hs c p c.timestamp
      rw [judged_cons, bookAfterTp1]
      generalize hr : advance s c p c.timestamp = r at hcase
      cases hcase with
      | expireBreakeven _ hexp hbe =>
          rw [if_pos hexp, if_pos hbe]
          exact replayBooks_of_closes hc hr rfl F
      | expireAfterTp1 _ hexp hbe =>
          rw [if_pos hexp, hbe]
          exact replayBooks_of_closes hc hr rfl F
      | tp2AfterTp1 _ hexp h2 =>
          rw [hexp, if_pos h2]
          exact replayBooks_of_closes hc hr rfl F
      | breakeven _ hexp h2 hbe h3 =>
          rw [hexp, h2, stopAfterTp1_of_moves hbe, h3, hbe]
          exact replayBooks_of_closes hc hr rfl F
      | stopAfterTp1 _ hexp h2 hbe h3 =>
          rw [hexp, h2, stopAfterTp1_of_stays hbe, h3, hbe]
          exact replayBooks_of_closes hc hr rfl F
      | hold _ hexp h2 h3 =>
          rw [hexp, h2, stopAfterTp1, h3]
          exact replayBooks_of_passes hc hr (ih hF)
      | expireTriggered h | bothTargets h | stop h | tp1 h | wait h => rw [hs] at h; cases h

theorem simulateReplay_books (h : Running s) (hs : s.status = .triggered)
    (hvalid : ∀ c ∈ F, c.Valid) :
    ReplayBooks p s F (book p s
      (tp2WeightedRr s.riskRewardRatio p.tp1TriggerPct p.tp1ClosePct)
      (judged (isExpired s p) F)) := by
  induction F with
  | nil => exact ⟨_, simulateReplay_nil h, rfl, rfl⟩
  | cons c F ih =>
      obtain ⟨hc, hF⟩ := List.forall_mem_cons.mp hvalid
      have hcase := advance_cases_triggered hs c p c.timestamp
      rw [judged_cons, book]
      generalize hr : advance s c p c.timestamp = r at hcase
      cases hcase with
      | expireTriggered _ hexp =>
          rw [if_pos hexp]
          exact replayBooks_of_closes hc hr rfl F
      | bothTargets _ hexp h1 h2 =>
          rw [hexp, h1, h2]
          exact replayBooks_of_closes hc hr rfl F
      | stop _ hexp h3 =>
          have hnot : ¬ (reachesTarget s.direction c s.tp1 &&
              reachesTarget s.direction c s.tp2) = true := by
            intro hboth
            obtain ⟨h1, h2⟩ := Bool.and_eq_true_iff.mp hboth
            rw [advance_of_bothTargets hs hexp h1 h2] at hr
            cases congrArg (fun r => r.1.status) hr
          rw [hexp, if_neg Bool.false_ne_true, if_neg hnot, if_pos h3]
          exact replayBooks_of_closes hc hr rfl F
      | tp1 _ hexp h1 h2 h3 =>
          rw [hexp, h1, h2, h3]
          have hrun := simulateReplay_books_afterTp1 (p := p) (s := atTp1 s c.timestamp)
            ⟨rfl, h.outcome_eq, h.closedAt_eq⟩ rfl hF
          rw [bookAfterTp1_congr (sameTrade_atTp1 s c.timestamp)] at hrun
          exact replayBooks_of_passes hc hr hrun
      | wait _ hexp h1 h3 =>
          rw [hexp, h1, h3]
          exact replayBooks_of_passes hc hr (ih hF)
      | expireBreakeven h | expireAfterTp1 h | tp2AfterTp1 h => rw [hs] at h; cases h
      | breakeven h | stopAfterTp1 h | hold h => rw [hs] at h; cases h

/-! ## The trailing loop -/

theorem advanceGivebackSl_hitEntryAfterTp1 :
    (advanceGivebackSl pct st c).hitEntryAfterTp1 = st.hitEntryAfterTp1 := by
  unfold advanceGivebackSl
  dsimp only
  split
  · split
    · rfl
    · split <;> rfl
  · split
    · rfl
    · split <;> rfl

/-- What `trail` keeps: all but the best price, and, unless `trailed_sl` is set, the stop. -/
structure Untrailed (st st' : TrailState) : Prop where
  probe_eq : st'.probe = st.probe
  seen_eq : st'.tp1Seen = st.tp1Seen
  hit_eq : st'.hitEntryAfterTp1 = st.hitEntryAfterTp1
  stop_eq : st'.trailedSl = none → st'.currentSl = st.currentSl
  trailedSl_eq : st'.trailedSl = none → st.trailedSl = none

theorem trail_untrailed (p : AssetProfile) (pct : ℚ) (st : TrailState) (c : Candle) :
    Untrailed st (st.trail p pct c) := by
  unfold TrailState.trail
  split
  · obtain ⟨hprobe, hseen, b, -, -, hmove⟩ := advanceGivebackSl_spec pct st c
    refine ⟨hprobe, hseen, advanceGivebackSl_hitEntryAfterTp1, fun h => ?_, fun h => ?_⟩
    · rcases hmove with ⟨hstop, -⟩ | ⟨-, htrailed, -⟩
      · exact hstop
      · rw [h] at htrailed
        cases htrailed
    · rcases hmove with ⟨-, htrailed⟩ | ⟨-, htrailed, -⟩
      · exact htrailed ▸ h
      · rw [h] at htrailed
        cases htrailed
  · exact ⟨rfl, rfl, rfl, fun _ => rfl, id⟩

theorem next_hitEntryAfterTp1 :
    (st.next p pct c).hitEntryAfterTp1 = (st.touch c).hitEntryAfterTp1 := by
  rw [TrailState.next, (trail_untrailed p pct _ c).hit_eq, TrailState.seeTp1]
  split <;> rfl

theorem trailedSl_of_next (h : (st.next p pct c).trailedSl = none) : st.trailedSl = none := by
  have hsee : ((st.touch c).seeTp1 p c).trailedSl = st.trailedSl := by
    rw [TrailState.seeTp1]
    split <;> rfl
  rw [← hsee]
  exact (trail_untrailed p pct _ c).trailedSl_eq h

/-- The stop that never moved was never moved on the way. -/
theorem trailedSl_of_trailLoop (h : (trailLoop p pct st F).trailedSl = none) :
    st.trailedSl = none := by
  induction F generalizing st with
  | nil => exact h
  | cons c F ih =>
      have hstep := trailStep_step p pct st c
      rw [trailLoop] at h
      generalize trailStep p pct st c = r at hstep h
      cases hstep with
      | next => exact trailedSl_of_next (ih h)
      | expireProtected | expire | win | stopProtected | stop => exact h

/-- Once set, the entry flag stays. -/
theorem hitEntryAfterTp1_of_trailLoop (h : st.hitEntryAfterTp1 = true) :
    (trailLoop p pct st F).hitEntryAfterTp1 = true := by
  have htouch : ∀ st c, TrailState.hitEntryAfterTp1 st = true →
      (st.touch c).hitEntryAfterTp1 = true := by
    intro st c h
    rw [TrailState.touch, h]
    rfl
  induction F generalizing st with
  | nil => exact h
  | cons c F ih =>
      have hstep := trailStep_step p pct st c
      rw [trailLoop]
      generalize trailStep p pct st c = r at hstep
      cases hstep with
      | next => exact ih (next_hitEntryAfterTp1.trans (htouch st c h))
      | expireProtected | expire => exact h
      | win | stopProtected | stop => exact htouch st c h

/-- The expiry test of the trailing loop. -/
def trailLate (p : AssetProfile) (s : TradeSignal) (ts : ℤ) : Bool :=
  decide (expiryCutoff p s < ts)

theorem trailLate_of_lt {ts : ℤ} (h : expiryCutoff p s < ts) : trailLate p s ts = true :=
  decide_eq_true h

theorem trailLate_of_le {ts : ℤ} (h : ts ≤ expiryCutoff p s) : trailLate p s ts = false :=
  decide_eq_false (not_lt.mpr h)

/-- TP1 has been taken and the stop stands where TP1 put it. -/
structure RidesAfterTp1 (p : AssetProfile) (s : TradeSignal) (st : TrailState) : Prop where
  probe_eq : st.probe = s
  seen : st.tp1Seen = true
  stop_eq : st.effectiveSl p = stopAfterTp1 p s

theorem Untrailed.effectiveSl_eq {st' : TrailState} (h : Untrailed st st')
    (hnone : st'.trailedSl = none) : st'.effectiveSl p = st.effectiveSl p := by
  rw [TrailState.effectiveSl, TrailState.effectiveSl, TrailState.protects, TrailState.protects,
    h.seen_eq, h.probe_eq, h.stop_eq hnone]

theorem RidesAfterTp1.next (h : RidesAfterTp1 p s st)
    (hnone : (st.next p pct c).trailedSl = none) : RidesAfterTp1 p s (st.next p pct c) := by
  have hsee : (st.touch c).seeTp1 p c = st.touch c := by
    rw [TrailState.seeTp1, touch_tp1Seen, h.seen, Bool.not_true, Bool.and_false,
      if_neg Bool.false_ne_true]
  rw [TrailState.next, hsee] at hnone ⊢
  have htrail := trail_untrailed p pct (st.touch c) c
  exact ⟨htrail.probe_eq.trans h.probe_eq, htrail.seen_eq.trans h.seen,
    (htrail.effectiveSl_eq hnone).trans h.stop_eq⟩

/-- The TP1 candle puts the stop where it then stays. -/
theorem ridesAfterTp1_of_tp1 (hseen : st.tp1Seen = false)
    (h1 : reachesTarget st.probe.direction c st.probe.tp1 = true)
    (hnone : (st.next p pct c).trailedSl = none) :
    RidesAfterTp1 p { st.probe with tp1HitAt := some c.timestamp } (st.next p pct c) := by
  have htrail := trail_untrailed p pct ((st.touch c).seeTp1 p c) c
  rw [TrailState.next] at hnone ⊢
  have hsee : (st.touch c).seeTp1 p c =
      { st.touch c with
        tp1Seen := true
        probe := { st.probe with tp1HitAt := some c.timestamp }
        currentSl :=
          if p.moveSlToBeOnTp1 then protectedBePrice st.probe p else st.probe.stopLoss } := by
    rw [TrailState.seeTp1, touch_probe, touch_tp1Seen, h1, hseen]
    rfl
  refine ⟨?_, ?_, (htrail.effectiveSl_eq hnone).trans ?_⟩
  · rw [htrail.probe_eq, hsee]
  · rw [htrail.seen_eq, hsee]
  · rw [hsee]
    cases hbe : p.moveSlToBeOnTp1 with
    | true =>
        rw [effectiveSl_of_protects (protects_eq_true_iff.mpr ⟨rfl, hbe⟩),
          stopAfterTp1_of_moves hbe]
        rfl
    | false =>
        have hprot : TrailState.protects p
            { st.touch c with
              tp1Seen := true
              probe := { st.probe with tp1HitAt := some c.timestamp }
              currentSl := if false then protectedBePrice st.probe p else st.probe.stopLoss } =
            false := by
          rw [TrailState.protects, hbe, Bool.and_false]
        rw [effectiveSl_of_not_protects hprot, stopAfterTp1_of_stays hbe]

/-- An untouched trade passes a candle as it was. -/
theorem next_of_not_tp1 (hseen : st.tp1Seen = false)
    (h1 : reachesTarget st.probe.direction c st.probe.tp1 = false) : st.next p pct c = st := by
  have hflag : (st.hitEntryAfterTp1 ||
      (st.tp1Seen && reachesStop st.probe.direction c st.probe.entryPrice)) =
        st.hitEntryAfterTp1 := by
    rw [hseen, Bool.false_and, Bool.or_false]
  have htouch : st.touch c = st := by rw [TrailState.touch, hflag]
  rw [TrailState.next, htouch, TrailState.seeTp1, h1, Bool.false_and, if_neg Bool.false_ne_true,
    TrailState.trail, protects_of_not_seen hseen, if_neg Bool.false_ne_true]

/-- The flag tells that entry was met again, and where it is not set the result is `b`. -/
def TrailBooks (r : BacktestResult) (revisits : Prop) (b : Booking) : Prop :=
  (r.hitEntryAfterTp1 = true → revisits) ∧ (r.hitEntryAfterTp1 = false → r.booking = b)

theorem trailBooks_of_booking {revisits : Prop} {b : Booking} (hflag : r.hitEntryAfterTp1 = false)
    (hb : r.booking = b) : TrailBooks r revisits b :=
  ⟨fun h => absurd (hflag.symm.trans h) (by decide), fun _ => hb⟩

theorem trailBooks_of_flag {revisits : Prop} {b : Booking} (hflag : r.hitEntryAfterTp1 = true)
    (hrev : revisits) : TrailBooks r revisits b :=
  ⟨fun _ => hrev, fun h => absurd (hflag.symm.trans h) (by decide)⟩

theorem RidesAfterTp1.touch_flag (h : RidesAfterTp1 p s st) (hflag : st.hitEntryAfterTp1 = false)
    (c : Candle) :
    (st.touch c).hitEntryAfterTp1 = reachesStop s.direction c s.entryPrice := by
  rw [TrailState.touch, h.seen, h.probe_eq, hflag, Bool.true_and, Bool.false_or]

theorem trailLoop_books_afterTp1 (hside : gain s s.stopLoss ≤ 0) (h : RidesAfterTp1 p s st)
    (hflag : st.hitEntryAfterTp1 = false) (hnone : (trailLoop p pct st F).trailedSl = none) :
    TrailBooks (trailLoop p pct st F) (RevisitsAfterTp1 p s (judged (trailLate p s) F))
      (bookAfterTp1 p s s.riskRewardRatio (judged (trailLate p s) F)) := by
  induction F generalizing st with
  | nil => exact trailBooks_of_booking hflag rfl
  | cons c F ih =>
      have hstep := trailStep_step p pct st c
      have htouch := h.touch_flag hflag c
      have hrevisit : TouchesEntry s c →
          RevisitsAfterTp1 p s (judged (trailLate p s) (c :: F)) :=
        fun ht => revisitsAfterTp1_cons.mpr (Or.inl ht)
      have hmoves : st.protects p = p.moveSlToBeOnTp1 := by
        rw [TrailState.protects, h.seen, Bool.true_and]
      rw [trailLoop] at hnone ⊢
      obtain ⟨rfl, hseen, hstopEq⟩ := h
      generalize trailStep p pct st c = r at hstep hnone ⊢
      cases hstep with
      | expireProtected hexp hprot =>
          refine trailBooks_of_booking hflag ?_
          rw [judged_cons, bookAfterTp1, if_pos (trailLate_of_lt hexp), if_pos (hmoves ▸ hprot)]
          rfl
      | expire hexp hprot =>
          refine trailBooks_of_booking hflag ?_
          rw [judged_cons, bookAfterTp1, if_pos (trailLate_of_lt hexp), ← hmoves, hprot]
          rfl
      | win hexp hwin =>
          rw [wins_of_seen hseen] at hwin
          refine ⟨fun ht => hrevisit (htouch.symm.trans ht), fun _ => ?_⟩
          rw [judged_cons, bookAfterTp1, trailLate_of_le hexp, if_neg Bool.false_ne_true,
            if_pos hwin]
          rfl
      | stopProtected _ _ hprot hstop =>
          -- the stop stands at entry
          rw [← effectiveSl_of_protects hprot, hstopEq] at hstop
          have ht := touchesEntry_of_stop hside hstop
          exact trailBooks_of_flag (htouch.trans ht) (hrevisit ht)
      | stop _ _ hprot hstop =>
          rw [← effectiveSl_of_not_protects hprot, hstopEq] at hstop
          have ht := touchesEntry_of_stop hside hstop
          exact trailBooks_of_flag (htouch.trans ht) (hrevisit ht)
      | next hexp hwin hstop =>
          rw [wins_of_seen hseen] at hwin
          rw [hstopEq] at hstop
          have hlate := trailLate_of_le hexp
          have hnext : (st.next p pct c).hitEntryAfterTp1 = (st.touch c).hitEntryAfterTp1 :=
            next_hitEntryAfterTp1
          cases ht : reachesStop st.probe.direction c st.probe.entryPrice with
          | true =>
              refine trailBooks_of_flag (hitEntryAfterTp1_of_trailLoop ?_) (hrevisit ht)
              rw [hnext, htouch, ht]
          | false =>
              have hrides := RidesAfterTp1.next ⟨rfl, hseen, hstopEq⟩ (trailedSl_of_trailLoop hnone)
              obtain ⟨hrev, hbook⟩ := ih hrides (by rw [hnext, htouch, ht]) hnone
              refine ⟨fun hf => ?_, fun hf => ?_⟩
              · rw [judged_cons, revisitsAfterTp1_cons]
                exact Or.inr ⟨⟨hlate, hwin, hstop⟩, hrev hf⟩
              · rw [judged_cons, bookAfterTp1, hlate, hwin, hstop]
                exact hbook hf

theorem trailLoop_books (hside : gain s s.stopLoss ≤ 0) (hprobe : st.probe = s)
    (hseen : st.tp1Seen = false) (hflag : st.hitEntryAfterTp1 = false)
    (hnone : (trailLoop p pct st F).trailedSl = none) :
    TrailBooks (trailLoop p pct st F) (RevisitsEntry p s (judged (trailLate p s) F))
      (book p s s.riskRewardRatio (judged (trailLate p s) F)) := by
  subst hprobe
  induction F with
  | nil => exact trailBooks_of_booking hflag rfl
  | cons c F ih =>
      have hstep := trailStep_step p pct st c
      have htouch : (st.touch c).hitEntryAfterTp1 = false := by
        rw [TrailState.touch, hseen, hflag]
        rfl
      have hprot := protects_of_not_seen (p := p) hseen
      rw [trailLoop] at hnone ⊢
      generalize trailStep p pct st c = r at hstep hnone ⊢
      cases hstep with
      | expireProtected _ h | stopProtected _ _ h => rw [hprot] at h; cases h
      | expire hexp =>
          refine trailBooks_of_booking hflag ?_
          rw [judged_cons, book, if_pos (trailLate_of_lt hexp)]
          rfl
      | win hexp hwin =>
          rw [wins_of_not_seen hseen] at hwin
          refine trailBooks_of_booking htouch ?_
          rw [judged_cons, book, trailLate_of_le hexp, if_neg Bool.false_ne_true, if_pos hwin]
          rfl
      | stop hexp hwin _ hstop =>
          rw [wins_of_not_seen hseen] at hwin
          refine trailBooks_of_booking htouch ?_
          rw [judged_cons, book, trailLate_of_le hexp, if_neg Bool.false_ne_true, hwin,
            if_pos hstop]
          rfl
      | next hexp hwin hstop =>
          rw [wins_of_not_seen hseen] at hwin
          rw [effectiveSl_of_not_protects hprot] at hstop
          have hlate := trailLate_of_le hexp
          rw [judged_cons, book, hlate, hwin, hstop]
          cases h1 : reachesTarget st.probe.direction c st.probe.tp1 with
          | true =>
              have h2 : reachesTarget st.probe.direction c st.probe.tp2 = false := by
                rw [h1, Bool.true_and] at hwin
                exact hwin
              have hrides := ridesAfterTp1_of_tp1 hseen h1 (trailedSl_of_trailLoop hnone)
              obtain ⟨hrev, hbook⟩ := trailLoop_books_afterTp1
                (s := { st.probe with tp1HitAt := some c.timestamp }) hside hrides
                (next_hitEntryAfterTp1.trans htouch) hnone
              refine ⟨fun hf => ?_, fun hf => ?_⟩
              · exact revisitsEntry_cons.mpr (Or.inl ⟨⟨rfl, h1, h2, hstop⟩, hrev hf⟩)
              · rw [hbook hf]
                exact bookAfterTp1_congr (by constructor <;> rfl) _
          | false =>
              rw [next_of_not_tp1 hseen h1] at hnone ⊢
              obtain ⟨hrev, hbook⟩ := ih hnone
              exact ⟨fun hf => revisitsEntry_cons.mpr (Or.inr ⟨⟨rfl, h1, hstop⟩, hrev hf⟩), hbook⟩

/-! ## Trailing against replay -/

/-- Both simulators tell alike whether a candle is past the expiry. -/
def SameExpiryTest (p : AssetProfile) (s : TradeSignal) (ts : ℤ) : Prop :=
  trailLate p s ts = isExpired s p ts

/-- A full win weighted by the part closed at TP1 is the full reward ratio. -/
def WinsAlike (p : AssetProfile) : Prop :=
  p.tp1ClosePct = 0 ∨ p.tp1TriggerPct = 100

/-- The trailing simulator and the default one come to the same close and the same entry flag,
    and either flag tells whether a candle after TP1 touched entry, up to the closing one. -/
def MatchesReplay (p : AssetProfile) (pct : ℚ) (s : TradeSignal) (F : List Candle) : Prop :=
  ∃ r t, simulate p 0 s F = .ok r ∧ simulate p pct s F = .ok t ∧ t.booking = r.booking ∧
    t.hitEntryAfterTp1 = r.hitEntryAfterTp1 ∧
    (t.hitEntryAfterTp1 = true ↔ RevisitsEntry p s (judged (trailLate p s) F)) ∧
    (r.hitEntryAfterTp1 = true ↔ RevisitsEntry p s (judged (isExpired s p) F))

/-- From 1970 on, and with a validity that is not negative, the tests agree; so in exact rationals,
    while in doubles they part where the hours have no exact number of milliseconds (2.3 hours). -/
theorem sameExpiryTest_of_nonneg (hcreated : 0 ≤ s.createdAt) (hhours : 0 ≤ p.signalExpiryHours)
    (ts : ℤ) : SameExpiryTest p s ts := by
  have hms : (0 : ℚ) ≤ p.signalExpiryHours * msPerHour :=
    mul_nonneg hhours (by norm_num [msPerHour])
  have hsum : (0 : ℚ) ≤ s.createdAt + p.signalExpiryHours * msPerHour :=
    add_nonneg (by exact_mod_cast hcreated) hms
  have hcutoff : expiryCutoff p s = s.createdAt + expiryMs p := by
    rw [expiryCutoff, expiryMs, pyInt, pyInt, if_pos hsum, if_pos hms, Int.floor_intCast_add]
  rw [SameExpiryTest, trailLate, isExpired, hcutoff]
  exact decide_eq_decide.mpr lt_sub_iff_add_lt'.symm

theorem winsAlike_iff (hrr : 0 < s.riskRewardRatio) :
    s.riskRewardRatio = tp2WeightedRr s.riskRewardRatio p.tp1TriggerPct p.tp1ClosePct ↔
      WinsAlike p := by
  have hsplit : tp2WeightedRr s.riskRewardRatio p.tp1TriggerPct p.tp1ClosePct - s.riskRewardRatio =
      s.riskRewardRatio * (p.tp1ClosePct * (p.tp1TriggerPct - 100)) / 10000 := by
    unfold tp2WeightedRr pctFraction
    ring
  rw [eq_comm, ← sub_eq_zero, hsplit, div_eq_zero_iff, or_iff_left (by norm_num), mul_eq_zero,
    or_iff_right hrr.ne', mul_eq_zero, sub_eq_zero]
  rfl

theorem simulate_zero (F : List Candle) (h : Running s) :
    simulate p 0 s F = simulateReplay p s F := by
  unfold simulate
  split
  · next hF => rw [hF, simulateReplay_nil h]
  · rw [if_neg (lt_irrefl _)]

section BuiltSignals

variable {symbol : String} {htfInterval ltfInterval : Interval} {htfRange : HtfRange}
  {rejection : RejectionCandle} {signalId : SignalId} {p₀ : AssetProfile} {broker : String}
  {liveBid liveAsk : Option ℚ}

/-- **Trailing against replay.** On valid candles over which its stop never moves the trailing
    simulator matches the default one exactly when nothing parts them: the expiry tests agree on
    the candles that are read, no candle after TP1 touches entry up to the close, and a trade
    that closes at TP2 has nothing closed at TP1. -/
theorem trailing_matches_replay_iff
    (hb : buildSignal symbol htfInterval ltfInterval htfRange rejection signalId p₀ broker
      liveBid liveAsk = some s)
    (p : AssetProfile) (hpct : 0 < pct) (F : List Candle) (hvalid : ∀ c ∈ F, c.Valid)
    (hnone : ∀ t, simulate p pct s F = .ok t → t.trailedSl = none) :
    MatchesReplay p pct s F ↔
      ¬ Parts p s (SameExpiryTest p s) (WinsAlike p) (judged (isExpired s p) F) := by
  have hfrom := buildSignal_eq_some hb
  have hrun := hfrom.fresh.running
  have hside : gain s s.stopLoss ≤ 0 := by
    rw [hfrom.gain_stop]
    linarith [hfrom.riskPips_pos]
  obtain ⟨r, hr, hrbook, hrflag⟩ := simulateReplay_books (p := p) hrun hfrom.fresh.status_eq hvalid
  rw [← simulate_zero F hrun] at hr
  obtain ⟨t, ht, htbooks⟩ : ∃ t, simulate p pct s F = .ok t ∧
      TrailBooks t (RevisitsEntry p s (judged (trailLate p s) F))
        (book p s s.riskRewardRatio (judged (trailLate p s) F)) := by
    cases F with
    | nil => exact ⟨_, if_pos rfl, trailBooks_of_booking rfl rfl⟩
    | cons c F =>
        have hsim : simulate p pct s (c :: F) =
            .ok (trailLoop p pct (TrailState.start s) (c :: F)) := by
          unfold simulate
          rw [if_neg (List.cons_ne_nil c F), if_pos hpct]
          rfl
        exact ⟨_, hsim, trailLoop_books hside rfl rfl rfl (hnone _ hsim)⟩
  have hparts : Parts p s (SameExpiryTest p s) (WinsAlike p) (judged (isExpired s p) F) ↔
      RevisitsEntry p s (judged (trailLate p s) F) ∨
        RevisitsEntry p s (judged (isExpired s p) F) ∨
        book p s s.riskRewardRatio (judged (trailLate p s) F) ≠
          book p s (tp2WeightedRr s.riskRewardRatio p.tp1TriggerPct p.tp1ClosePct)
            (judged (isExpired s p) F) := by
    rw [← propext (winsAlike_iff hfrom.riskRewardRatio_pos)]
    exact parts_iff hside F
  rw [hparts]
  constructor
  · rintro ⟨r', t', hr', ht', hbook, hflag, hrev₁, hrev₂⟩
    obtain rfl := Except.ok.inj (hr.symm.trans hr')
    obtain rfl := Except.ok.inj (ht.symm.trans ht')
    rw [hrflag] at hflag
    rw [htbooks.2 hflag, hrbook] at hbook
    rw [hflag] at hrev₁
    rw [hrflag] at hrev₂
    rintro (h | h | h)
    · cases hrev₁.mpr h
    · cases hrev₂.mpr h
    · exact h hbook
  · intro hnot
    simp only [not_or, not_not] at hnot
    obtain ⟨hrev₁, hrev₂, hbook⟩ := hnot
    have hflag : t.hitEntryAfterTp1 = false := Bool.eq_false_iff.mpr fun h => hrev₁ (htbooks.1 h)
    refine ⟨r, t, hr, ht, ?_, hflag.trans hrflag.symm, iff_of_false ?_ hrev₁, iff_of_false ?_ hrev₂⟩
    · rw [htbooks.2 hflag, hrbook, hbook]
    · rw [hflag]
      decide
    · rw [hrflag]
      decide

end BuiltSignals

/-- The sample trade takes TP1 and expires above its entry. -/
def heldToExpiry : List Candle :=
  [⟨7500000, 106, 119, 107, 110, 0⟩, ⟨180000001, 110, 112, 109, 111, 0⟩]

theorem heldToExpiry_matches : MatchesReplay sampleProfile 50 sampleSignal heldToExpiry := by
  refine (trailing_matches_replay_iff sampleSignal_built sampleProfile (by norm_num) heldToExpiry
    (by decide +kernel) ?_).mpr ?_
  · intro t ht
    obtain rfl := Except.ok.inj ht
    decide +kernel
  · have hsame := sameExpiryTest_of_nonneg (p := sampleProfile) (s := sampleSignal)
      (by decide +kernel) (by decide +kernel)
    intro hparts
    rcases parts_cons.mp hparts with (h | ⟨-, -, h2, -⟩ | ⟨-, h⟩) | ⟨h, -⟩
    · exact h (hsame _)
    · exact absurd h2 (by decide +kernel)
    · rcases partsAfterTp1_cons.mp h with (h | h | ⟨hlate, -⟩) | ⟨-, h⟩
      · exact h (hsame _)
      · exact absurd h (by unfold TouchesEntry; decide +kernel)
      · exact absurd hlate (by decide +kernel)
      · exact not_until_nil h
    · exact absurd h.2.1 (by decide +kernel)

/-- It goes on to TP2. -/
def runToTp2 : List Candle :=
  [⟨7500000, 106, 119, 107, 110, 0⟩, ⟨7800000, 110, 131, 109, 130, 0⟩]

/-- It comes back to its entry. -/
def backToEntry : List Candle :=
  [⟨7500000, 106, 119, 107, 110, 0⟩, ⟨7800000, 110, 111, 105, 107, 0⟩]

/-- The stop moves on neither run; the full win is booked at another R, and the return to entry
    with another flag. -/
theorem trailing_drifts :
    (∀ F ∈ [runToTp2, backToEntry], (∀ c ∈ F, c.Valid) ∧
      (simulate sampleProfile 50 sampleSignal F).map BacktestResult.trailedSl = .ok none ∧
      ¬ MatchesReplay sampleProfile 50 sampleSignal F) ∧
    (simulate sampleProfile 50 sampleSignal runToTp2).map BacktestResult.realizedRr =
      .ok (24 / (61 / 10)) ∧
    (simulate sampleProfile 0 sampleSignal runToTp2).map BacktestResult.realizedRr =
      .ok (3 / 4 * (24 / (61 / 10))) ∧
    (simulate sampleProfile 50 sampleSignal backToEntry).map BacktestResult.hitEntryAfterTp1 =
      .ok true ∧
    (simulate sampleProfile 0 sampleSignal backToEntry).map BacktestResult.hitEntryAfterTp1 =
      .ok false := by
  refine ⟨List.forall_mem_cons.mpr ⟨⟨by decide +kernel, by decide +kernel, ?_⟩,
    List.forall_mem_singleton.mpr ⟨by decide +kernel, by decide +kernel, ?_⟩⟩, by decide +kernel,
    by decide +kernel, by decide +kernel, by decide +kernel⟩
  · rintro ⟨r, t, hr, ht, hbook, -⟩
    have hne : (simulate sampleProfile 50 sampleSignal runToTp2).map BacktestResult.booking ≠
        (simulate sampleProfile 0 sampleSignal runToTp2).map BacktestResult.booking := by
      decide +kernel
    rw [hr, ht] at hne
    exact hne (congrArg Except.ok hbook)
  · rintro ⟨r, t, hr, ht, -, hflag, -⟩
    have hne : (simulate sampleProfile 50 sampleSignal backToEntry).map
          BacktestResult.hitEntryAfterTp1 ≠
        (simulate sampleProfile 0 sampleSignal backToEntry).map
          BacktestResult.hitEntryAfterTp1 := by
      decide +kernel
    rw [hr, ht] at hne
    exact hne (congrArg Except.ok hflag)

end SignalEngine
