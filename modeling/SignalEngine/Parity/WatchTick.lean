/-
  Watch tick: one `_fetch_and_evaluate` of `update_watchlist`, on all its signals at once.

  Model. `played p cs s` is the loop over the candles of the tick that are newer than the entry of
  the signal `s`, with whether it ended the trade.

  Proved: `evaluateGroup_turn`: on a watchlist of one symbol and LTF and on valid candles, the
  tick leaves each signal as its candles leave it, drops those that ended, tells each end once,
  and changes no other table than the locks.
-/
import SignalEngine.Interfaces.ParityCheck
import SignalEngine.Services.Calls

namespace SignalEngine

open Lib

/-- The signals told to be over, as they ended. -/
def liveEnded (events : List ServiceEvent) : List TradeSignal :=
  events.filterMap fun
    | .updated _ _ _ s => if s.status.isOpen then none else some s
    | .pending _ _ _ | .triggered _ => none

/-- The loop of a tick over the candles of one signal. -/
def played (p : AssetProfile) (cs : List Candle) (s : TradeSignal) : TradeSignal × Bool :=
  loopUntil (advanceAt p) s (newerCandles s cs)

/-- The signal, where the loop has left it open. -/
def staying (r : TradeSignal × Bool) : Option TradeSignal := if r.2 then none else some r.1

/-- The signal, where the loop has ended it. -/
def ending (r : TradeSignal × Bool) : Option TradeSignal := if r.2 then some r.1 else none

/-- The watchlist is the given one, the given signals have been told to be over, and of the
    coordinator's tables only the locks may have changed. -/
structure WatchTurn (st st' : Service) (watchlist ended : List TradeSignal) : Prop where
  watchlist_eq : st'.watchlist = watchlist
  deadZones_eq : st'.coordinator.state.deadZones = st.coordinator.state.deadZones
  counts_eq : st'.coordinator.state.zoneSignalCounts = st.coordinator.state.zoneSignalCounts
  seenRej_eq : st'.coordinator.state.seenRej = st.coordinator.state.seenRej
  emitted_eq : liveEmitted st'.events = liveEmitted st.events
  ended_eq : liveEnded st'.events = liveEnded st.events ++ ended

variable {cfg : Settings} {p : AssetProfile} {raises : ℕ → Bool} {st st₁ st₂ : Service}
  {s s' : TradeSignal} {c : Candle} {cs : List Candle} {clock : SignalId → ℤ}
  {profileOf : String → Interval → Interval → AssetProfile}
  {watchlist ended before rest signals : List TradeSignal}

theorem WatchTurn.refl (st : Service) : WatchTurn st st st.watchlist [] :=
  ⟨rfl, rfl, rfl, rfl, rfl, (List.append_nil _).symm⟩

theorem WatchTurn.trans {watchlist₂ ended₂ : List TradeSignal}
    (h : WatchTurn st st₁ watchlist ended) (h' : WatchTurn st₁ st₂ watchlist₂ ended₂) :
    WatchTurn st st₂ watchlist₂ (ended ++ ended₂) where
  watchlist_eq := h'.watchlist_eq
  deadZones_eq := h'.deadZones_eq.trans h.deadZones_eq
  counts_eq := h'.counts_eq.trans h.counts_eq
  seenRej_eq := h'.seenRej_eq.trans h.seenRej_eq
  emitted_eq := h'.emitted_eq.trans h.emitted_eq
  ended_eq := by rw [h'.ended_eq, h.ended_eq, List.append_assoc]

theorem liveEmitted_append (events told : List ServiceEvent) :
    liveEmitted (events ++ told) = liveEmitted events ++ liveEmitted told :=
  List.filterMap_append

theorem liveEnded_append (events told : List ServiceEvent) :
    liveEnded (events ++ told) = liveEnded events ++ liveEnded told :=
  List.filterMap_append

/-! ## One candle -/

/-- A closing signal leaves the watchlist and is told once. -/
theorem closeSignal_watch (raises : ℕ → Bool) (st : Service)
    (hmax : 1 ≤ cfg.maxConsecutiveLosses) {o : SignalOutcome} {r : ℚ}
    (hr : s.realizedRr = some r) (ho : s.outcome = some o) (hclosed : s.status.isOpen = false)
    (event : SignalEvent) (prev : SignalStatus) (nowMs : ℤ) :
    (st.closeSignal cfg raises s event prev nowMs).2 = none ∧
      WatchTurn st (st.closeSignal cfg raises s event prev nowMs).1
        (erase TradeSignal.id s.id st.watchlist) [s] := by
  have hok := applyStreak_ok hmax (st.coordinator.closeRecord cfg (closedRecord s o r)) nowMs
  have hstate := applyStreak_state cfg
    (st.coordinator.closeRecord cfg (closedRecord s o r)) nowMs
  unfold Service.closeSignal Service.recordOutcome
  simp only [hr, ho, Service.tryStore]
  generalize Coordinator.applyStreak cfg
    (st.coordinator.closeRecord cfg (closedRecord s o r)) nowMs = a at hok hstate ⊢
  obtain ⟨c', e⟩ := a
  dsimp only at hok hstate
  subst hok
  simp only [Option.map_none, Service.emit]
  refine ⟨trivial, rfl, ?_, ?_, ?_, ?_, ?_⟩
  · exact (congrArg DedupState.deadZones hstate).trans rfl
  · exact (congrArg DedupState.zoneSignalCounts hstate).trans rfl
  · exact (congrArg DedupState.seenRej hstate).trans rfl
  · rw [liveEmitted_append]
    exact List.append_nil _
  · rw [liveEnded_append]
    simp [liveEnded, hclosed]

/-- One candle of a watched signal. -/
theorem evaluateSignal_watch (p : AssetProfile) (raises : ℕ → Bool) (clock : SignalId → ℤ)
    (hmax : 1 ≤ cfg.maxConsecutiveLosses)
    (hw : st.watchlist = before ++ s :: rest)
    (hnodup : (keys TradeSignal.id (before ++ s :: rest)).Nodup)
    (hopen : s.status.isOpen = true) (hc : c.Valid) :
    (st.evaluateSignal cfg p raises clock s c).2 = .ok (advanceAt p s c).1 ∧
      WatchTurn st (st.evaluateSignal cfg p raises clock s c).1
        (before ++ ((staying (advanceAt p s c)).toList ++ rest))
        (ending (advanceAt p s c)).toList := by
  have hid : (advance s c p c.timestamp).1.id = s.id :=
    (sameTrade_advance s c p c.timestamp).id_eq
  have hnote : overwrite TradeSignal.id (advance s c p c.timestamp).1 st.watchlist =
      before ++ (advance s c p c.timestamp).1 :: rest := by
    rw [hw]
    exact overwrite_between hid hnodup
  have hisOpen := advance_isOpen hopen c p c.timestamp
  have hend := advance_end hopen p c c.timestamp
  rw [Service.evaluateSignal, stepSignalState_of_valid hc]
  unfold advanceAt staying ending
  generalize advance s c p c.timestamp = r at hid hnote hisOpen hend ⊢
  obtain ⟨s', step⟩ := r
  dsimp only at hid hnote hisOpen hend ⊢
  cases hterm : step.terminal with
  | true =>
      obtain ⟨htp1, -, ⟨rr, hrr⟩, ⟨o, ho⟩, event, hevent⟩ := hend hterm
      rw [hterm] at hisOpen
      have hnoted : st.noteStep s s' c step =
          { st with watchlist := before ++ s' :: rest } := by
        rw [Service.noteStep, if_neg (by rw [htp1]; exact Bool.false_ne_true), hnote]
      obtain ⟨hnone, hturn⟩ := closeSignal_watch raises
        { st with watchlist := before ++ s' :: rest } hmax hrr ho hisOpen event s.status
        (clock s'.id)
      have hkeys : (keys TradeSignal.id (before ++ s' :: rest)).Nodup := by
        rwa [keys_append, keys_cons, hid, ← keys_cons, ← keys_append]
      rw [erase_between hkeys] at hturn
      simp only [hevent, htp1, hnoted, if_true, Bool.false_eq_true, if_false]
      generalize Service.closeSignal cfg raises s' event s.status (clock s'.id)
        { st with watchlist := before ++ s' :: rest } = a at hnone hturn ⊢
      obtain ⟨st', e⟩ := a
      dsimp only at hnone hturn
      subst hnone
      exact ⟨rfl, hturn.watchlist_eq, hturn.deadZones_eq, hturn.counts_eq, hturn.seenRej_eq,
        hturn.emitted_eq, hturn.ended_eq⟩
  | false =>
      rw [hterm] at hisOpen
      simp only [Bool.false_eq_true, if_false]
      cases htp1 : step.emitTp1 with
      | true =>
          simp only [if_true, Service.noteStep, htp1, Service.tryStore, Service.emit, hnote]
          refine ⟨trivial, rfl, rfl, rfl, rfl, ?_, ?_⟩
          · rw [liveEmitted_append]
            exact List.append_nil _
          · rw [liveEnded_append]
            simp [liveEnded, hisOpen]
      | false =>
          simp only [Bool.false_eq_true, if_false, Service.noteStep, htp1, hnote]
          exact ⟨trivial, rfl, rfl, rfl, rfl, rfl, (List.append_nil _).symm⟩

/-! ## The whole tick -/

/-- The candles of one signal. -/
theorem evaluateCandles_watch (p : AssetProfile) (raises : ℕ → Bool) (clock : SignalId → ℤ)
    (hmax : 1 ≤ cfg.maxConsecutiveLosses)
    (hw : st.watchlist = before ++ s :: rest)
    (hnodup : (keys TradeSignal.id (before ++ s :: rest)).Nodup)
    (hopen : s.status.isOpen = true) (hcs : ∀ c ∈ cs, c.Valid) :
    (st.evaluateCandles cfg p raises clock s cs).2 = none ∧
      WatchTurn st (st.evaluateCandles cfg p raises clock s cs).1
        (before ++ ((staying (loopUntil (advanceAt p) s cs)).toList ++ rest))
        (ending (loopUntil (advanceAt p) s cs)).toList := by
  induction cs generalizing st s with
  | nil =>
      have hrefl := WatchTurn.refl st
      rw [hw] at hrefl
      exact ⟨rfl, hrefl⟩
  | cons c cs ih =>
      have hstep := evaluateSignal_watch p raises clock hmax hw hnodup hopen
        (hcs c List.mem_cons_self)
      have hisOpen : (advanceAt p s c).1.status.isOpen = !(advanceAt p s c).2 :=
        advance_isOpen hopen c p c.timestamp
      have hid : (advanceAt p s c).1.id = s.id := (sameTrade_advance s c p c.timestamp).id_eq
      rw [Service.evaluateCandles]
      generalize st.evaluateSignal cfg p raises clock s c = a at hstep ⊢
      obtain ⟨st₁, e⟩ := a
      obtain ⟨he, hturn⟩ := hstep
      dsimp only at he hturn
      subst he
      dsimp only
      cases hend : (advanceAt p s c).2 with
      | true =>
          rw [hend] at hisOpen
          rw [loopUntil_cons_of_break hend, hisOpen, if_neg (by simp)]
          exact ⟨rfl, hturn⟩
      | false =>
          rw [hend] at hisOpen
          rw [loopUntil_cons_of_pass hend, hisOpen, Bool.not_false, if_pos rfl]
          simp only [staying, ending, hend, Bool.false_eq_true, if_false] at hturn
          have hkeys : (keys TradeSignal.id (before ++ (advanceAt p s c).1 :: rest)).Nodup := by
            rwa [keys_append, keys_cons, hid, ← keys_cons, ← keys_append]
          obtain ⟨hnone, hrest⟩ := ih hturn.watchlist_eq hkeys hisOpen
            (fun d hd => hcs d (List.mem_cons_of_mem _ hd))
          exact ⟨hnone, hturn.trans hrest⟩

/-- What the tick makes of a signal. -/
def playedBy (profileOf : String → Interval → Interval → AssetProfile) (cs : List Candle)
    (s : TradeSignal) : TradeSignal × Bool :=
  played (profileOf s.symbol s.htfInterval s.ltfInterval) cs s

theorem evaluateSignals_watch (profileOf : String → Interval → Interval → AssetProfile)
    (raises : ℕ → Bool) (clock : SignalId → ℤ) (hmax : 1 ≤ cfg.maxConsecutiveLosses)
    (hw : st.watchlist = before ++ signals)
    (hnodup : (keys TradeSignal.id (before ++ signals)).Nodup)
    (hopen : ∀ s ∈ signals, s.status.isOpen = true) (hcs : ∀ c ∈ cs, c.Valid) :
    (st.evaluateSignals cfg profileOf raises clock cs signals).2 = none ∧
      WatchTurn st (st.evaluateSignals cfg profileOf raises clock cs signals).1
        (before ++ signals.filterMap fun s => staying (playedBy profileOf cs s))
        (signals.filterMap fun s => ending (playedBy profileOf cs s)) := by
  induction signals generalizing st before with
  | nil =>
      have hrefl := WatchTurn.refl st
      rw [hw] at hrefl
      exact ⟨rfl, hrefl⟩
  | cons s rest ih =>
      have hnewer : ∀ c ∈ newerCandles s cs, c.Valid := fun c hc => hcs c (newerCandles_mem hc)
      have hstep := evaluateCandles_watch (profileOf s.symbol s.htfInterval s.ltfInterval) raises
        clock hmax hw hnodup (hopen s List.mem_cons_self) hnewer
      rw [Service.evaluateSignals]
      generalize st.evaluateCandles cfg (profileOf s.symbol s.htfInterval s.ltfInterval) raises
        clock s (newerCandles s cs) = a at hstep ⊢
      obtain ⟨st₁, e⟩ := a
      obtain ⟨he, hturn⟩ := hstep
      dsimp only at he hturn
      subst he
      dsimp only
      change WatchTurn st st₁ (before ++ ((staying (playedBy profileOf cs s)).toList ++ rest))
        (ending (playedBy profileOf cs s)).toList at hturn
      have hkept : (keys TradeSignal.id (before ++ (staying (playedBy profileOf cs s)).toList ++
          rest)).Nodup := by
        rw [List.append_assoc]
        unfold staying
        split
        · refine hnodup.sublist (List.Sublist.map _ ?_)
          exact (List.Sublist.refl before).append (List.sublist_cons_self s rest)
        · have hid : (playedBy profileOf cs s).1.id = s.id := (loop_sameTrade s _).id_eq
          rw [Option.toList_some, List.singleton_append, keys_append, keys_cons, hid, ← keys_cons,
            ← keys_append]
          exact hnodup
      obtain ⟨hnone, hrest⟩ := @ih st₁ (before ++ (staying (playedBy profileOf cs s)).toList)
        (by rw [hturn.watchlist_eq, List.append_assoc]) hkept
        (fun y hy => hopen y (List.mem_cons_of_mem _ hy))
      refine ⟨hnone, ?_⟩
      have hall := hturn.trans hrest
      have hstays : (staying (playedBy profileOf cs s)).toList ++
          rest.filterMap (fun s => staying (playedBy profileOf cs s)) =
          (s :: rest).filterMap fun s => staying (playedBy profileOf cs s) := by
        rw [List.filterMap_cons]
        cases staying (playedBy profileOf cs s) <;> rfl
      have hends : (ending (playedBy profileOf cs s)).toList ++
          rest.filterMap (fun s => ending (playedBy profileOf cs s)) =
          (s :: rest).filterMap fun s => ending (playedBy profileOf cs s) := by
        rw [List.filterMap_cons]
        cases ending (playedBy profileOf cs s) <;> rfl
      rwa [List.append_assoc, hstays, hends] at hall

/-- **One tick**: each watched signal goes through the closed candles after its entry; those that
    end leave the watchlist and are told once. -/
theorem evaluateGroup_turn {symbol : String} {ltfInterval : Interval} {fetch : FetchRange}
    {now oldestTs : ℤ} (hmax : 1 ≤ cfg.maxConsecutiveLosses) (hwatch : Watching st)
    (hgroup : ∀ s ∈ st.watchlist, s.symbol = symbol ∧ s.ltfInterval = ltfInterval)
    (holdest : (st.watchlist.map TradeSignal.createdAt).min? = some oldestTs)
    (hvalid : ∀ c ∈ fetchedClosed fetch ltfInterval oldestTs now, c.Valid)
    (htwo : 2 ≤ (fetchedClosed fetch ltfInterval oldestTs now).length) :
    WatchTurn st (st.evaluateGroup cfg profileOf raises clock symbol ltfInterval fetch now).1
      (st.watchlist.filterMap fun s =>
        staying (playedBy profileOf (fetchedClosed fetch ltfInterval oldestTs now) s))
      (st.watchlist.filterMap fun s =>
        ending (playedBy profileOf (fetchedClosed fetch ltfInterval oldestTs now) s)) := by
  have hall : st.group symbol ltfInterval = st.watchlist :=
    List.filter_eq_self.mpr fun s hs => decide_eq_true (hgroup s hs)
  rw [Service.evaluateGroup, hall, holdest]
  dsimp only
  rw [if_neg (by omega)]
  have hw : st.watchlist = [] ++ st.watchlist := rfl
  exact (evaluateSignals_watch profileOf raises clock hmax hw hwatch.ids_nodup hwatch.open_of_mem
    hvalid).2

end SignalEngine
