/-
  Live ticks: `update_watchlist` on one signal, against one replay of the whole history.

  Model. A tick hands over the closed candles fetched so far. While the signal is in the
  watchlist, the tick runs every one of them that is newer than `triggered_at` through
  `_evaluate_signal`, from the first one on, whatever earlier ticks have done with them.
  Closing the signal pops it from the watchlist.

  Proved:
  * `loop_of_runsAtTp1`: what candles that take a trade to TP1 and leave it running there do.
  * `runTicks_eq_live`: ticks are one replay as long as no candle is read again in a way that
    the TP1 branch would act on (`RereadSafe`).
  * `runTicks_closed_early`: otherwise the trade ends at a candle it had already passed.
  * `runTicks_agrees_iff`: the two together.
-/
import SignalEngine.Domain.Builder
import SignalEngine.Engine.Replay

namespace SignalEngine

open Lib

/-! ## The live loop -/

/-- A signal object with the fact whether `_watchlist` still holds it. -/
structure WatchedSignal where
  signal : TradeSignal
  inWatchlist : Bool
  deriving DecidableEq, Repr

/-- `c.timestamp > (signal.triggered_at or 0)`. -/
def newerCandles (s : TradeSignal) (cs : List Candle) : List Candle :=
  cs.filter (fun c => decide (s.triggeredAt.getD 0 < c.timestamp))

/-- `_evaluate_signal`: a terminal step goes through `_close_signal`. -/
def evaluateSignal (p : AssetProfile) (w : WatchedSignal) (c : Candle) :
    Except CandleError WatchedSignal :=
  match stepSignalState w.signal c p c.timestamp with
  | .error e => .error e
  | .ok (s', step) => .ok ⟨s', w.inWatchlist && !step.terminal⟩

/-- The loop over `signal_candles`. An exception ends it (`gather` keeps it as a result). -/
def evaluateCandles (p : AssetProfile) (w : WatchedSignal) : List Candle → WatchedSignal
  | [] => w
  | c :: cs =>
      match evaluateSignal p w c with
      | .error _ => w
      | .ok w' => if w'.signal.status.isOpen then evaluateCandles p w' cs else w'

/-- `update_watchlist` on one signal; `candles` are the closed ones of the fetch. -/
def updateWatched (p : AssetProfile) (w : WatchedSignal) (candles : List Candle) :
    WatchedSignal :=
  if w.inWatchlist = false then w
  else if candles.length < 2 then w
  else evaluateCandles p w (newerCandles w.signal candles)

/-- One call for each list of candles revealed. -/
def runTicks (p : AssetProfile) (s : TradeSignal) (ticks : List (List Candle)) :
    WatchedSignal :=
  ticks.foldl (updateWatched p) ⟨s, true⟩

/-- The fields that say how a trade ended. -/
structure SameEnd (a b : TradeSignal) : Prop where
  status_eq : a.status = b.status
  outcome_eq : a.outcome = b.outcome
  realizedRr_eq : a.realizedRr = b.realizedRr
  closePrice_eq : a.closePrice = b.closePrice
  closedAt_eq : a.closedAt = b.closedAt
  tp1HitAt_eq : a.tp1HitAt = b.tp1HitAt

/-- The ticks end the trade as one replay of everything newer than `triggered_at` does. -/
def TicksAgree (p : AssetProfile) (s : TradeSignal) (ticks : List (List Candle))
    (cs : List Candle) : Prop :=
  ∃ r, replaySignalLifecycle s (newerCandles s cs) p = .ok r ∧
    SameEnd (runTicks p s ticks).signal r

/-- The history `cs` revealed in growing prefixes, the last of which is all of it. -/
structure Reveals (qs : List (List Candle)) (cs : List Candle) : Prop where
  growing : (qs ++ [cs]).Pairwise (fun a b => a <+: b)
  two_le : ∀ q ∈ qs ++ [cs], 2 ≤ q.length

/-! ## Candles a trade passes -/

/-- A triggered trade passes the candle. -/
def WaitsAt (p : AssetProfile) (s : TradeSignal) (c : Candle) : Prop :=
  isExpired s p c.timestamp = false ∧ reachesTarget s.direction c s.tp1 = false ∧
    reachesStop s.direction c s.stopLoss = false

/-- A triggered trade reaches TP1 on the candle and nothing else. -/
def TakesTp1At (p : AssetProfile) (s : TradeSignal) (c : Candle) : Prop :=
  isExpired s p c.timestamp = false ∧ reachesTarget s.direction c s.tp1 = true ∧
    reachesTarget s.direction c s.tp2 = false ∧ reachesStop s.direction c s.stopLoss = false

/-- The stop in force after TP1. -/
def stopAfterTp1 (p : AssetProfile) (s : TradeSignal) : ℚ :=
  if p.moveSlToBeOnTp1 then s.entryPrice else s.stopLoss

/-- A trade that has reached TP1 passes the candle. -/
def HoldsAt (p : AssetProfile) (s : TradeSignal) (c : Candle) : Prop :=
  isExpired s p c.timestamp = false ∧ reachesTarget s.direction c s.tp2 = false ∧
    reachesStop s.direction c (stopAfterTp1 p s) = false

/-- The candles take the triggered trade `s` to TP1 and leave it running there. -/
def RunsAtTp1 (p : AssetProfile) (s : TradeSignal) (cs : List Candle) : Prop :=
  ∃ pre c post, cs = pre ++ c :: post ∧ (∀ d ∈ pre, WaitsAt p s d) ∧ TakesTp1At p s c ∧
    ∀ d ∈ post, HoldsAt p s d

/-- Reading the candles of a tick again cannot end the trade: where they leave it running at
    TP1, none of them touches the stop now in force or TP2. -/
def RereadSafe (p : AssetProfile) (s : TradeSignal) (q : List Candle) : Prop :=
  RunsAtTp1 p s (newerCandles s q) → ∀ c ∈ newerCandles s q,
    reachesStop s.direction c (stopAfterTp1 p s) = false ∧
      reachesTarget s.direction c s.tp2 = false

variable {p : AssetProfile} {s : TradeSignal}

/-- The signal after its TP1 candle. -/
def atTp1 (s : TradeSignal) (now : ℤ) : TradeSignal :=
  { s with status := .tp1Hit, tp1HitAt := some now }

theorem sameTrade_atTp1 (s : TradeSignal) (now : ℤ) : SameTrade s (atTp1 s now) := by
  constructor <;> rfl

theorem advanceAt_of_waitsAt (hs : s.status = .triggered) {c : Candle} (h : WaitsAt p s c) :
    advanceAt p s c = (s, false) := by
  obtain ⟨hexp, h1, h3⟩ := h
  simp [advanceAt, advance, hexp, h1, h3, effectiveSl_of_triggered hs, hs]

theorem advanceAt_of_takesTp1At (hs : s.status = .triggered) {c : Candle}
    (h : TakesTp1At p s c) : advanceAt p s c = (atTp1 s c.timestamp, false) := by
  obtain ⟨hexp, h1, h2, h3⟩ := h
  simp [advanceAt, advance, hexp, h1, h2, h3, effectiveSl_of_triggered hs, hs, tp1HitBlock,
    atTp1]

theorem advanceAt_of_holdsAt (hs : s.status = .tp1Hit) {c : Candle} (h : HoldsAt p s c) :
    advanceAt p s c = (s, false) := by
  obtain ⟨hexp, h2, h3⟩ := h
  rw [stopAfterTp1] at h3
  simp [advanceAt, advance, hexp, h2, h3, effectiveSl_of_tp1Hit hs, hs, tp1HitBlock]

theorem pass_of_triggered (hs : s.status = .triggered) {c : Candle}
    (h : (advanceAt p s c).2 = false) :
    (WaitsAt p s c ∧ advanceAt p s c = (s, false)) ∨
      (TakesTp1At p s c ∧ advanceAt p s c = (atTp1 s c.timestamp, false)) := by
  have hcase := advance_cases_triggered hs c p c.timestamp
  unfold advanceAt at h ⊢
  generalize advance s c p c.timestamp = r at hcase h ⊢
  cases hcase with
  | tp1 _ hexp h1 h2 h3 => exact Or.inr ⟨⟨hexp, h1, h2, h3⟩, rfl⟩
  | wait _ hexp h1 h3 => exact Or.inl ⟨⟨hexp, h1, h3⟩, rfl⟩
  | hold ht => rw [hs] at ht; cases ht
  | _ => cases h

theorem pass_of_tp1Hit (hs : s.status = .tp1Hit) {c : Candle}
    (h : (advanceAt p s c).2 = false) : HoldsAt p s c ∧ advanceAt p s c = (s, false) := by
  have hcase := advance_cases_tp1Hit hs c p c.timestamp
  unfold advanceAt at h ⊢
  generalize advance s c p c.timestamp = r at hcase h ⊢
  cases hcase with
  | hold _ hexp h2 h3 => exact ⟨⟨hexp, h2, h3⟩, rfl⟩
  | tp1 ht => rw [hs] at ht; cases ht
  | wait ht => rw [hs] at ht; cases ht
  | _ => cases h

/-! ## Loops that do not break -/

theorem loop_of_tp1Hit (hs : s.status = .tp1Hit) {cs : List Candle}
    (h : (loopUntil (advanceAt p) s cs).2 = false) :
    (∀ c ∈ cs, HoldsAt p s c) ∧ loopUntil (advanceAt p) s cs = (s, false) := by
  have hall : ∀ c ∈ cs, HoldsAt p s c := by
    induction cs with
    | nil => simp
    | cons c cs ih =>
        cases hc : (advanceAt p s c).2 with
        | true => rw [loopUntil_cons_of_break hc, hc] at h; cases h
        | false =>
            obtain ⟨hhold, heq⟩ := pass_of_tp1Hit hs hc
            rw [loopUntil_cons_of_pass hc, heq] at h
            exact List.forall_mem_cons.mpr ⟨hhold, ih h⟩
  exact ⟨hall, loopUntil_of_quiet (fun c hc => advanceAt_of_holdsAt hs (hall c hc))⟩

/-- A triggered trade that is still running after a loop waits as before or is at TP1. -/
theorem loop_of_triggered (hs : s.status = .triggered) {cs : List Candle}
    (h : (loopUntil (advanceAt p) s cs).2 = false) :
    ((∀ c ∈ cs, WaitsAt p s c) ∧ loopUntil (advanceAt p) s cs = (s, false)) ∨
      (RunsAtTp1 p s cs ∧ ∃ now, loopUntil (advanceAt p) s cs = (atTp1 s now, false)) := by
  induction cs with
  | nil => exact Or.inl ⟨by simp, rfl⟩
  | cons c cs ih =>
      cases hc : (advanceAt p s c).2 with
      | true => rw [loopUntil_cons_of_break hc, hc] at h; cases h
      | false =>
          rw [loopUntil_cons_of_pass hc] at h ⊢
          rcases pass_of_triggered hs hc with ⟨hwait, heq⟩ | ⟨htakes, heq⟩
          · rw [heq] at h ⊢
            rcases ih h with ⟨hwaits, hquiet⟩ | ⟨⟨pre, d, post, rfl, hpre, hd, hpost⟩, hrun⟩
            · exact Or.inl ⟨List.forall_mem_cons.mpr ⟨hwait, hwaits⟩, hquiet⟩
            · exact Or.inr ⟨⟨c :: pre, d, post, rfl, List.forall_mem_cons.mpr ⟨hwait, hpre⟩,
                hd, hpost⟩, hrun⟩
          · rw [heq] at h ⊢
            obtain ⟨hall, hloop⟩ := loop_of_tp1Hit (s := atTp1 s c.timestamp) rfl h
            exact Or.inr ⟨⟨[], c, cs, rfl, by simp, htakes, hall⟩, c.timestamp, hloop⟩

theorem loop_of_runsAtTp1 (hs : s.status = .triggered) {cs : List Candle}
    (h : RunsAtTp1 p s cs) : ∃ now, loopUntil (advanceAt p) s cs = (atTp1 s now, false) := by
  obtain ⟨pre, c, post, rfl, hpre, hc, hpost⟩ := h
  have hquiet := loopUntil_of_quiet (fun d hd => advanceAt_of_waitsAt hs (hpre d hd))
  have htake := advanceAt_of_takesTp1At hs hc
  have hpass : (advanceAt p s c).2 = false := by rw [htake]
  refine ⟨c.timestamp, ?_⟩
  rw [loopUntil_append_of_pass (by rw [hquiet]), hquiet, loopUntil_cons_of_pass hpass, htake]
  exact loopUntil_of_quiet
    (fun d hd => advanceAt_of_holdsAt (s := atTp1 s c.timestamp) rfl (hpost d hd))

/-! ## One tick is one loop -/

/-- A loop over the candles of an open signal keeps its trade and stays open until it breaks. -/
theorem loop_isOpen (hs : s.status.isOpen = true) (cs : List Candle) :
    (loopUntil (advanceAt p) s cs).1.status.isOpen = !(loopUntil (advanceAt p) s cs).2 := by
  induction cs generalizing s with
  | nil => rw [loopUntil, hs]; rfl
  | cons c cs ih =>
      have hstep := advance_isOpen hs c p c.timestamp
      cases hc : (advanceAt p s c).2 with
      | true => rw [loopUntil_cons_of_break hc]; exact hstep
      | false =>
          rw [loopUntil_cons_of_pass hc]
          refine ih (hstep.trans ?_)
          exact congrArg Bool.not hc

theorem loop_sameTrade (s : TradeSignal) (cs : List Candle) :
    SameTrade s (loopUntil (advanceAt p) s cs).1 :=
  loopUntil_invariant (SameTrade s)
    (fun _ c h => h.trans (sameTrade_advance _ c p c.timestamp)) (SameTrade.refl s) cs

/-- A loop that broke did so on one of its candles, which dates the close. -/
theorem loop_closedAt (hs : s.status.isOpen = true) {cs : List Candle}
    (h : (loopUntil (advanceAt p) s cs).2 = true) :
    ∃ c ∈ cs, (loopUntil (advanceAt p) s cs).1.closedAt = some c.timestamp := by
  have hkeep : ∀ (t : TradeSignal) (c : Candle), t.status.isOpen = true →
      (advanceAt p t c).2 = false → (advanceAt p t c).1.status.isOpen = true :=
    fun t c ht hc => (advance_isOpen ht c p c.timestamp).trans (congrArg Bool.not hc)
  obtain ⟨c, hc, t, ht, heq⟩ :=
    exists_break (fun t : TradeSignal => t.status.isOpen = true) hkeep hs h
  have hbreak : (advanceAt p t c).2 = true := by rw [heq]; exact h
  refine ⟨c, hc, ?_⟩
  rw [← heq]
  have hcase := advance_cases ht c p c.timestamp
  unfold advanceAt at hbreak ⊢
  generalize advance t c p c.timestamp = r at hcase hbreak ⊢
  cases hcase with
  | tp1 | wait | hold => cases hbreak
  | _ => rfl

theorem newerCandles_congr {a b : TradeSignal} (h : SameTrade a b) (cs : List Candle) :
    newerCandles b cs = newerCandles a cs := by
  rw [newerCandles, newerCandles, h.triggeredAt_eq]

theorem newerCandles_append (s : TradeSignal) (xs ys : List Candle) :
    newerCandles s (xs ++ ys) = newerCandles s xs ++ newerCandles s ys :=
  List.filter_append ..

theorem newerCandles_mem {c : Candle} {cs : List Candle} (h : c ∈ newerCandles s cs) :
    c ∈ cs :=
  List.mem_of_mem_filter h

/-- The watched signal a loop leaves behind. -/
def watchedAfter (r : TradeSignal × Bool) : WatchedSignal := ⟨r.1, !r.2⟩

theorem evaluateCandles_eq_loop {cs : List Candle} (hcs : ∀ c ∈ cs, c.Valid)
    (hs : s.status.isOpen = true) :
    evaluateCandles p ⟨s, true⟩ cs = watchedAfter (loopUntil (advanceAt p) s cs) := by
  induction cs generalizing s with
  | nil => rfl
  | cons c cs ih =>
      have hstep := advance_isOpen hs c p c.timestamp
      rw [evaluateCandles, evaluateSignal, stepSignalState_of_valid (hcs c List.mem_cons_self)]
      cases hc : (advanceAt p s c).2 with
      | true =>
          have hterm : (advance s c p c.timestamp).2.terminal = true := hc
          rw [loopUntil_cons_of_break hc]
          simp only [hstep, hterm, Bool.not_true, Bool.false_eq_true, if_false]
          simp [watchedAfter, advanceAt, hterm]
      | false =>
          have hterm : (advance s c p c.timestamp).2.terminal = false := hc
          rw [loopUntil_cons_of_pass hc]
          simp only [hstep, hterm, Bool.not_false, if_true, Bool.and_true]
          exact ih (fun d hd => hcs d (List.mem_cons_of_mem _ hd))
            (hstep.trans (congrArg Bool.not hterm))

/-- The replay of everything newer than `triggered_at` in `q`. -/
def live (p : AssetProfile) (s : TradeSignal) (q : List Candle) : TradeSignal × Bool :=
  loopUntil (advanceAt p) s (newerCandles s q)

theorem updateWatched_of_closed {r : TradeSignal × Bool} (h : r.2 = true) (q : List Candle) :
    updateWatched p (watchedAfter r) q = watchedAfter r := by
  simp [updateWatched, watchedAfter, h]

/-- A tick on a signal that is still watched reads its candles from the first one on. -/
theorem updateWatched_of_running {r : TradeSignal × Bool} (h : r.2 = false)
    (hopen : r.1.status.isOpen = true) (hsame : SameTrade s r.1) {q : List Candle}
    (hlen : 2 ≤ q.length) (hq : ∀ c ∈ q, c.Valid) :
    updateWatched p (watchedAfter r) q =
      watchedAfter (loopUntil (advanceAt p) r.1 (newerCandles s q)) := by
  have hw : watchedAfter r = ⟨r.1, true⟩ := by simp [watchedAfter, h]
  rw [hw, updateWatched, if_neg (by simp), if_neg (by omega), newerCandles_congr hsame]
  exact evaluateCandles_eq_loop (fun c hc => hq c (newerCandles_mem hc)) hopen

/-! ## Ticks whose re-reading is harmless -/

theorem RereadSafe.holdsAt {q : List Candle} (hsafe : RereadSafe p s q)
    (hrun : RunsAtTp1 p s (newerCandles s q)) {now : ℤ} {c : Candle}
    (hc : c ∈ newerCandles s q) : HoldsAt p (atTp1 s now) c := by
  have hexp : isExpired s p c.timestamp = false := by
    obtain ⟨pre, d, post, heq, hpre, hd, hpost⟩ := hrun
    rw [heq] at hc
    rcases List.mem_append.mp hc with hc | hc
    · exact (hpre c hc).1
    · rcases List.mem_cons.mp hc with rfl | hc
      · exact hd.1
      · exact (hpost c hc).1
  exact ⟨hexp, (hsafe hrun c hc).2, (hsafe hrun c hc).1⟩

/-- One tick moves from the replay of `q` to the replay of the longer `q'`. -/
theorem updateWatched_live (hs : s.status = .triggered) {q q' : List Candle}
    (hpre : q <+: q') (hlen : 2 ≤ q'.length) (hq' : ∀ c ∈ q', c.Valid)
    (hsafe : RereadSafe p s q) :
    updateWatched p (watchedAfter (live p s q)) q' = watchedAfter (live p s q') := by
  have hopen : s.status.isOpen = true := by rw [hs]; rfl
  obtain ⟨new, rfl⟩ := hpre
  cases hb : (live p s q).2 with
  | true =>
      have hlive : live p s (q ++ new) = live p s q := by
        rw [live, newerCandles_append]
        exact loopUntil_append_of_broke hb _
      rw [updateWatched_of_closed hb, hlive]
  | false =>
      have hrunning : (live p s q).1.status.isOpen = true := by
        rw [live, loop_isOpen hopen]
        exact congrArg Bool.not hb
      rw [updateWatched_of_running hb hrunning (loop_sameTrade s _) hlen hq']
      congr 1
      rcases loop_of_triggered hs hb with ⟨-, hquiet⟩ | ⟨hrun, now, htp1⟩
      · rw [live, hquiet]
        rfl
      · -- the candles of `q` are read again, now under the TP1 rules
        have hreread : ∀ c ∈ newerCandles s q,
            advanceAt p (atTp1 s now) c = (atTp1 s now, false) :=
          fun c hc => advanceAt_of_holdsAt rfl (hsafe.holdsAt hrun hc)
        have hloop := loopUntil_of_quiet hreread
        have hlive : (live p s q).1 = atTp1 s now := congrArg Prod.fst htp1
        rw [hlive, live, newerCandles_append, loopUntil_append_of_pass (by rw [hloop]), hloop,
          loopUntil_append_of_pass hb, htp1]

/-- **Safe ticks are one replay.** -/
theorem runTicks_eq_live (hs : s.status = .triggered) (qs : List (List Candle))
    (cs q₀ : List Candle) (hgrow : (q₀ :: qs ++ [cs]).Pairwise (fun a b => a <+: b))
    (hlen : ∀ q ∈ qs ++ [cs], 2 ≤ q.length) (hvalid : ∀ c ∈ cs, c.Valid)
    (hsafe : ∀ q ∈ q₀ :: qs, RereadSafe p s q) :
    (qs ++ [cs]).foldl (updateWatched p) (watchedAfter (live p s q₀)) =
      watchedAfter (live p s cs) := by
  induction qs generalizing q₀ with
  | nil =>
      have hpre : q₀ <+: cs := by simpa using hgrow
      exact updateWatched_live hs hpre (hlen cs (by simp)) hvalid
        (hsafe q₀ List.mem_cons_self)
  | cons q qs ih =>
      rw [List.cons_append, List.cons_append] at hgrow
      obtain ⟨hfirst, hrest⟩ := List.pairwise_cons.mp hgrow
      have hqcs : q <+: cs := (List.pairwise_cons.mp hrest).1 cs (by simp)
      have hstep := updateWatched_live (p := p) hs (hfirst q List.mem_cons_self)
        (hlen q (by simp)) (fun c hc => hvalid c (hqcs.subset hc))
        (hsafe q₀ List.mem_cons_self)
      rw [List.cons_append, List.foldl_cons, hstep]
      exact ih q hrest (fun q' hq' => hlen q' (List.mem_cons_of_mem _ hq'))
        (fun q' hq' => hsafe q' (List.mem_cons_of_mem _ hq'))

/-! ## Ticks that read a candle again and act on it -/

/-- The tick after an unsafe one closes the trade at a candle it had already passed. -/
theorem updateWatched_of_unsafe (hs : s.status = .triggered) {q q' : List Candle}
    (hpre : q <+: q') (hlen : 2 ≤ q'.length) (hq' : ∀ c ∈ q', c.Valid)
    (hreread : ¬ RereadSafe p s q) :
    (live p s q).2 = false ∧ ∃ r : TradeSignal × Bool,
      updateWatched p (watchedAfter (live p s q)) q' = watchedAfter r ∧ r.2 = true ∧
        r.1.status.isOpen = false ∧ ∃ c ∈ newerCandles s q, r.1.closedAt = some c.timestamp := by
  obtain ⟨hrun, hbad⟩ := Classical.not_imp.mp hreread
  obtain ⟨now, htp1⟩ := loop_of_runsAtTp1 hs hrun
  have hlive : live p s q = (atTp1 s now, false) := htp1
  have hopen : (atTp1 s now).status.isOpen = true := rfl
  have hbroke : (loopUntil (advanceAt p) (atTp1 s now) (newerCandles s q)).2 = true := by
    by_contra hpass
    rw [Bool.not_eq_true] at hpass
    have hall := (loop_of_tp1Hit (s := atTp1 s now) rfl hpass).1
    exact hbad (fun c hc => ⟨(hall c hc).2.2, (hall c hc).2.1⟩)
  obtain ⟨new, rfl⟩ := hpre
  refine ⟨by rw [hlive], loopUntil (advanceAt p) (atTp1 s now) (newerCandles s q), ?_, hbroke,
    ?_, loop_closedAt hopen hbroke⟩
  · rw [hlive, updateWatched_of_running rfl hopen (sameTrade_atTp1 s now) hlen hq',
      newerCandles_append, loopUntil_append_of_broke hbroke]
  · rw [loop_isOpen hopen, hbroke]
    rfl

theorem foldl_of_closed {r : TradeSignal × Bool} (h : r.2 = true) (ticks : List (List Candle)) :
    ticks.foldl (updateWatched p) (watchedAfter r) = watchedAfter r := by
  induction ticks with
  | nil => rfl
  | cons q ticks ih => rw [List.foldl_cons, updateWatched_of_closed h, ih]

theorem runTicks_closed_early (hs : s.status = .triggered) (qs : List (List Candle))
    (cs q₀ : List Candle) (hgrow : (q₀ :: qs ++ [cs]).Pairwise (fun a b => a <+: b))
    (hlen : ∀ q ∈ qs ++ [cs], 2 ≤ q.length) (hvalid : ∀ c ∈ cs, c.Valid)
    (hreread : ¬ ∀ q ∈ q₀ :: qs, RereadSafe p s q) :
    ∃ r : TradeSignal × Bool,
      (qs ++ [cs]).foldl (updateWatched p) (watchedAfter (live p s q₀)) = watchedAfter r ∧
        r.1.status.isOpen = false ∧ ∃ q ∈ q₀ :: qs, (live p s q).2 = false ∧
          ∃ c ∈ newerCandles s q, r.1.closedAt = some c.timestamp := by
  induction qs generalizing q₀ with
  | nil =>
      have hpre : q₀ <+: cs := by simpa using hgrow
      have hq₀ : ¬ RereadSafe p s q₀ := by simpa using hreread
      obtain ⟨hlive, r, heq, _, hclosed, hc⟩ :=
        updateWatched_of_unsafe hs hpre (hlen cs (by simp)) hvalid hq₀
      exact ⟨r, heq, hclosed, q₀, List.mem_cons_self, hlive, hc⟩
  | cons q qs ih =>
      rw [List.cons_append, List.cons_append] at hgrow
      obtain ⟨hfirst, hrest⟩ := List.pairwise_cons.mp hgrow
      have hqcs : q <+: cs := (List.pairwise_cons.mp hrest).1 cs (by simp)
      have hq : ∀ c ∈ q, c.Valid := fun c hc => hvalid c (hqcs.subset hc)
      have hlenq : 2 ≤ q.length := hlen q (by simp)
      have hpre : q₀ <+: q := hfirst q List.mem_cons_self
      rw [List.cons_append, List.foldl_cons]
      by_cases hq₀ : RereadSafe p s q₀
      · rw [updateWatched_live hs hpre hlenq hq hq₀]
        obtain ⟨r, heq, hclosed, q', hq', hlate⟩ :=
          ih q hrest (fun q' hq' => hlen q' (List.mem_cons_of_mem _ hq'))
            (fun hall => hreread (List.forall_mem_cons.mpr ⟨hq₀, hall⟩))
        exact ⟨r, heq, hclosed, q', List.mem_cons_of_mem _ hq', hlate⟩
      · obtain ⟨hlive, r, heq, hbroke, hclosed, hc⟩ :=
          updateWatched_of_unsafe hs hpre hlenq hq hq₀
        rw [heq, foldl_of_closed hbroke]
        exact ⟨r, rfl, hclosed, q₀, List.mem_cons_self, hlive, hc⟩

/-! ## When ticks agree with the replay -/

theorem RereadSafe.nil (s : TradeSignal) : RereadSafe p s [] := by
  rintro ⟨pre, c, post, h, _⟩
  simp [newerCandles] at h

theorem replay_eq_live {cs : List Candle} (hvalid : ∀ c ∈ cs, c.Valid) :
    replaySignalLifecycle s (newerCandles s cs) p = .ok (live p s cs).1 :=
  replaySignalLifecycle_eq_loop p (fun c hc => hvalid c (newerCandles_mem hc)) s

/-- A close dated by a candle of `q` is not the close of a replay that goes on after `q`. -/
theorem live_closedAt_ne (hs : s.status = .triggered) {q cs : List Candle} (hpre : q <+: cs)
    (hsorted : cs.Pairwise (fun a b => a.timestamp < b.timestamp))
    (hrun : (live p s q).2 = false) {r : TradeSignal} (hclosed : r.status.isOpen = false)
    {c : Candle} (hc : c ∈ newerCandles s q) (hat : r.closedAt = some c.timestamp) :
    ¬ SameEnd r (live p s cs).1 := by
  intro hsame
  have hopen : s.status.isOpen = true := by rw [hs]; rfl
  obtain ⟨rest, rfl⟩ := hpre
  have hlive : live p s (q ++ rest) =
      loopUntil (advanceAt p) (live p s q).1 (newerCandles s rest) := by
    rw [live, newerCandles_append]
    exact loopUntil_append_of_pass hrun _
  have hrunning : (live p s q).1.status.isOpen = true :=
    (loop_isOpen hopen _).trans (congrArg Bool.not hrun)
  have hend := loop_isOpen (p := p) hrunning (newerCandles s rest)
  rw [← hlive, ← hsame.status_eq, hclosed] at hend
  have hbroke : (loopUntil (advanceAt p) (live p s q).1 (newerCandles s rest)).2 = true := by
    rw [← hlive]
    simpa using hend.symm
  obtain ⟨d, hd, hdat⟩ := loop_closedAt hrunning hbroke
  have hlt : c.timestamp < d.timestamp :=
    (List.pairwise_append.mp hsorted).2.2 c (newerCandles_mem hc) d (newerCandles_mem hd)
  rw [← hlive, ← hsame.closedAt_eq, hat] at hdat
  simp only [Option.some.injEq] at hdat
  omega

/-- **When ticks agree with one replay.** Whatever the order of the candles, they do if no
    tick but the last leaves the trade at TP1 with an earlier candle at its stop or target;
    on strictly increasing timestamps they do only then. -/
theorem runTicks_agrees_iff (p : AssetProfile) (s : TradeSignal) (hs : s.status = .triggered)
    (qs : List (List Candle)) (cs : List Candle) (hrev : Reveals qs cs)
    (hvalid : ∀ c ∈ cs, c.Valid) :
    ((∀ q ∈ qs, RereadSafe p s q) → TicksAgree p s (qs ++ [cs]) cs) ∧
      (cs.Pairwise (fun a b => a.timestamp < b.timestamp) →
        (TicksAgree p s (qs ++ [cs]) cs ↔ ∀ q ∈ qs, RereadSafe p s q)) := by
  have hgrow : ([] :: qs ++ [cs]).Pairwise (fun a b : List Candle => a <+: b) :=
    List.pairwise_cons.mpr ⟨fun q _ => List.nil_prefix, hrev.growing⟩
  have hstart : runTicks p s (qs ++ [cs]) =
      (qs ++ [cs]).foldl (updateWatched p) (watchedAfter (live p s [])) := rfl
  have hsuff : (∀ q ∈ qs, RereadSafe p s q) → TicksAgree p s (qs ++ [cs]) cs := by
    intro hsafe
    have hall := List.forall_mem_cons.mpr ⟨RereadSafe.nil (p := p) s, hsafe⟩
    refine ⟨(live p s cs).1, replay_eq_live hvalid, ?_⟩
    rw [hstart, runTicks_eq_live hs qs cs [] hgrow hrev.two_le hvalid hall]
    constructor <;> rfl
  refine ⟨hsuff, fun hsorted => ⟨fun hagree => ?_, hsuff⟩⟩
  by_contra hreread
  obtain ⟨r, heq, hclosed, q, hq, hrun, c, hc, hat⟩ :=
    runTicks_closed_early hs qs cs [] hgrow hrev.two_le hvalid
      (fun hall => hreread (List.forall_mem_cons.mp hall).2)
  have hqcs : q <+: cs :=
    (List.pairwise_append.mp hgrow).2.2 q hq cs (List.mem_singleton.mpr rfl)
  obtain ⟨r', hr', hsame⟩ := hagree
  rw [replay_eq_live hvalid] at hr'
  cases hr'
  rw [hstart, heq] at hsame
  exact live_closedAt_ne hs hqcs hsorted hrun hclosed hc hat hsame

/-! ## A tick between TP1 and TP2 -/

/-- Stop, entry, TP1 and TP2 in the order of the trade's direction. -/
def ProperSides (s : TradeSignal) : Prop :=
  match s.direction with
  | .long => s.stopLoss < s.entryPrice ∧ s.entryPrice < s.tp1 ∧ s.tp1 ≤ s.tp2
  | .short => s.entryPrice < s.stopLoss ∧ s.tp1 < s.entryPrice ∧ s.tp2 ≤ s.tp1

/-- After the entry candle the sample trade dips below its entry, reaches TP1, then TP2. -/
def dipThenTargets : List Candle :=
  [⟨7500000, 106, 108, 105, 107, 0⟩, ⟨7800000, 107, 110, 105, 109, 0⟩,
    ⟨8100000, 109, 119, 108, 118, 0⟩, ⟨8400000, 118, 131, 117, 130, 0⟩]

/-- Revealed in two ticks, with the first one ending at TP1, the trade ends at breakeven;
    the replay of the same candles is a full win. -/
theorem ticks_change_the_end :
    ¬ ∀ (p : AssetProfile) (s : TradeSignal) (qs : List (List Candle)) (cs : List Candle),
      s.status = .triggered → ProperSides s → Reveals qs cs → (∀ c ∈ cs, c.Valid) →
      cs.Pairwise (fun a b => a.timestamp < b.timestamp) → TicksAgree p s (qs ++ [cs]) cs := by
  intro h
  obtain ⟨r, hr, hsame⟩ := h sampleProfile sampleSignal [dipThenTargets.take 3] dipThenTargets
    rfl (by norm_num [ProperSides, sampleSignal]) ⟨by decide +kernel, by decide +kernel⟩
    (by decide +kernel) (by decide +kernel)
  have hreplay : (replaySignalLifecycle sampleSignal (newerCandles sampleSignal dipThenTargets)
      sampleProfile).map TradeSignal.status = .ok .tp2Hit := by decide +kernel
  have hticks : (runTicks sampleProfile sampleSignal
      ([dipThenTargets.take 3] ++ [dipThenTargets])).signal.status = .slHit := by decide +kernel
  rw [hr] at hreplay
  have hst : r.status = .tp2Hit := by simpa [Except.map] using hreplay
  rw [hsame.status_eq, hst] at hticks
  cases hticks

/-- A first tick that ends before TP1 is harmless. -/
theorem runTicks_agrees_dipThenTargets :
    TicksAgree sampleProfile sampleSignal ([dipThenTargets.take 2] ++ [dipThenTargets])
      dipThenTargets := by
  refine (runTicks_agrees_iff sampleProfile sampleSignal rfl [dipThenTargets.take 2]
    dipThenTargets ⟨by decide +kernel, by decide +kernel⟩ (by decide +kernel)).1 ?_
  intro q hq hrun
  obtain rfl := List.mem_singleton.mp hq
  obtain ⟨now, hloop⟩ := loop_of_runsAtTp1 rfl hrun
  have hst : (loopUntil (advanceAt sampleProfile) sampleSignal
      (newerCandles sampleSignal (dipThenTargets.take 2))).1.status = .triggered := by
    decide +kernel
  rw [hloop] at hst
  cases hst

end SignalEngine
