/-
  Moves: what a block of the service can do to the watchlist, the locks and the store.

  Every block is a sequence of four kinds of `TradeMove`: nothing but a check, an emission, a
  step of a watched signal that leaves it open, and a close. A `Move` is what is left of one
  when only ids, locks and calls matter. The invariants of the service are proved move by move.

  Proved: `analyzePair_tradeMoves` and `evaluateGroup_tradeMoves`, by the rules of the two
  blocks; the second needs `Watching`, which moves keep.
-/
import SignalEngine.Services.Calls

namespace SignalEngine

open Lib

inductive Move (cfg : Settings) (st : Service) : Service → Prop
  | aside {st' : Service} :
      st'.watchlist = st.watchlist → st'.calls = st.calls →
      (st'.coordinator.state = st.coordinator.state ∨
        ∃ now, st'.coordinator.state = st.coordinator.state.releaseExpiredDirections now) →
      Move cfg st st'
  | emit (x : Setup) (s : TradeSignal) (now : ℤ) (ok : Bool) {st' : Service} :
      x.dirKey cfg.multiTfIndependentPositions ∉ st.coordinator.state.openKeys →
      s.id ∉ keys TradeSignal.id st.watchlist → s.status = .triggered →
      lockKey cfg s = x.dirKey cfg.multiTfIndependentPositions →
      st'.watchlist = st.watchlist ++ [s] →
      st'.coordinator = (st.coordinator.registerSignal cfg x).1 →
      st'.calls = st.calls ++ [(.upsertOpen s now, ok)] →
      Move cfg st st'
  | advance (s s' : TradeSignal) {st' : Service} :
      s ∈ st.watchlist → SameTrade s s' → s'.status.isOpen = true →
      st'.watchlist = overwrite TradeSignal.id s' st.watchlist →
      st'.coordinator = st.coordinator →
      (st'.calls = st.calls ∨ ∃ now ok, st'.calls = st.calls ++ [(.upsertOpen s' now, ok)]) →
      Move cfg st st'
  | close (s : TradeSignal) (rec : ClosedSignalRecord) (day : ℤ) (ok ok' : Bool)
      {st' : Service} :
      s ∈ st.watchlist → rec.signalId = s.id →
      st'.watchlist = erase TradeSignal.id s.id st.watchlist →
      st'.coordinator.state = st.coordinator.state.releaseDirection (lockKey cfg s) →
      st'.calls = st.calls ++ [(.deleteOpen s.id, ok), (.insertClosed rec day, ok')] →
      Move cfg st st'

/-- A `Move` with everything it does. -/
inductive TradeMove (cfg : Settings) (raises : ℕ → Bool) (st : Service) : Service → Prop
  | aside {st' : Service} :
      st'.watchlist = st.watchlist → st'.calls = st.calls →
      (st'.coordinator.state = st.coordinator.state ∨
        ∃ now, st'.coordinator.state = st.coordinator.state.releaseExpiredDirections now) →
      TradeMove cfg raises st st'
  | emit (s : TradeSignal) (now : ℤ) {st' : Service} :
      st.coordinator.state.zoneSignalCounts (setupOf s).zoneKey < cfg.maxSignalCountPerZone →
      (setupOf s).rejKey ∉ st.coordinator.state.seenRej →
      lockKey cfg s ∉ st.coordinator.state.openKeys →
      s.id ∉ keys TradeSignal.id st.watchlist → s.id = s.namedId → s.status = .triggered →
      s.zoneAttempt = (st.coordinator.registerSignal cfg (setupOf s)).2 →
      st'.watchlist = st.watchlist ++ [s] →
      st'.coordinator = (st.coordinator.registerSignal cfg (setupOf s)).1 →
      st'.calls = st.calls ++ [(.upsertOpen s now, !raises st.calls.length)] →
      TradeMove cfg raises st st'
  | advance (s s' : TradeSignal) {st' : Service} :
      s ∈ st.watchlist → SameTrade s s' → s'.status.isOpen = true →
      st'.watchlist = overwrite TradeSignal.id s' st.watchlist →
      st'.coordinator = st.coordinator →
      (st'.calls = st.calls ∨
        ∃ now, st'.calls = st.calls ++ [(.upsertOpen s' now, !raises st.calls.length)]) →
      TradeMove cfg raises st st'
  | close (s s' : TradeSignal) (o : SignalOutcome) (r : ℚ) {st' : Service} :
      s ∈ st.watchlist → SameTrade s s' →
      st'.watchlist = erase TradeSignal.id s.id st.watchlist →
      st'.coordinator.state = st.coordinator.state.releaseDirection (lockKey cfg s) →
      st'.calls = st.calls ++ [(.deleteOpen s.id, !raises st.calls.length),
        (.insertClosed (closedRecord s' o r) st.coordinator.sessionDay,
          !raises (st.calls.length + 1))] →
      TradeMove cfg raises st st'

theorem lockKey_eq_dirKey (cfg : Settings) (s : TradeSignal) :
    lockKey cfg s = (setupOf s).dirKey cfg.multiTfIndependentPositions := rfl

variable {cfg : Settings} {raises : ℕ → Bool} {st st' : Service} {s : TradeSignal}
  {v : PairView} {z : HtfRange}

theorem TradeMove.move (h : TradeMove cfg raises st st') : Move cfg st st' := by
  cases h with
  | aside hw hcalls hstate => exact .aside hw hcalls hstate
  | emit s now _ _ hfree hid _ hs _ hw hc hcalls =>
      exact .emit (setupOf s) s now _ hfree hid hs rfl hw hc hcalls
  | advance s s' hs hsame hopen hw hc hcalls =>
      exact .advance s s' hs hsame hopen hw hc
        (hcalls.imp_right (fun ⟨now, hcalls⟩ => ⟨now, _, hcalls⟩))
  | close s s' o r hs hsame hw hstate hcalls =>
      exact .close s (closedRecord s' o r) _ _ _ hs hsame.id_eq hw hstate hcalls

theorem TradeMove.moves (h : Relation.ReflTransGen (TradeMove cfg raises) st st') :
    Relation.ReflTransGen (Move cfg) st st' := by
  induction h with
  | refl => exact .refl
  | tail _ hmove ih => exact ih.tail hmove.move

theorem Watching.move (h : Watching st) (hm : Move cfg st st') : Watching st' := by
  cases hm with
  | aside hw _ _ => exact ⟨hw ▸ h.ids_nodup, hw ▸ h.open_of_mem⟩
  | emit x s now ok _ hid hs _ hw _ _ =>
      constructor
      · rw [hw, ← put_of_new hid]
        exact nodup_keys_put h.ids_nodup
      · intro y hy
        rw [hw] at hy
        rcases List.mem_append.mp hy with hy | hy
        · exact h.open_of_mem y hy
        · rw [List.mem_singleton.mp hy, hs]
          rfl
  | advance s s' hs hsame hopen hw _ _ =>
      constructor
      · rw [hw, keys_overwrite]
        exact h.ids_nodup
      · intro y hy
        rw [hw] at hy
        rcases mem_overwrite hy with ⟨rfl, -⟩ | ⟨hy, -⟩
        · exact hopen
        · exact h.open_of_mem y hy
  | close s rec day ok ok' hs _ hw _ _ =>
      constructor
      · rw [hw]
        exact nodup_keys_erase h.ids_nodup
      · intro y hy
        rw [hw] at hy
        exact h.open_of_mem y (mem_erase.mp hy).1

/-! ## The blocks -/

/-- Changes that moves do not see. -/
theorem TradeMove.of_eq (hw : st'.watchlist = st.watchlist) (hcalls : st'.calls = st.calls)
    (hc : st'.coordinator = st.coordinator) : TradeMove cfg raises st st' :=
  .aside hw hcalls (Or.inl (by rw [hc]))

theorem notePending_move (cfg : Settings) (raises : ℕ → Bool) (st : Service) (v : PairView)
    (z : HtfRange) : TradeMove cfg raises st (st.notePending v z) := by
  unfold Service.notePending
  split <;> exact .of_eq rfl rfl rfl

theorem shouldEmit_move (cfg : Settings) (raises : ℕ → Bool) (st : Service) (x : Setup)
    (now : ℤ) (load : ℤ → List ClosedSignalRecord) (nowMs : ℤ) :
    TradeMove cfg raises st
      { st with coordinator := (st.coordinator.shouldEmit cfg x now load nowMs).1 } := by
  refine .aside rfl rfl ?_
  rcases shouldEmit_state cfg st.coordinator x now load nowMs with h | h
  · exact Or.inr ⟨now, h⟩
  · exact Or.inl h

theorem Emits.tradeMove (h : Emits cfg raises v z s st st') : TradeMove cfg raises st st' :=
  .emit s v.pairFiredAt h.count_lt h.new_rejection h.lock_free h.new_id h.named h.triggered
    h.attempt_eq h.watchlist_eq h.coordinator_eq h.calls_eq

theorem SignalTurn.tradeMove (h : SignalTurn cfg raises s st st') (hs : s ∈ st.watchlist)
    (hopen : s.status.isOpen = true) : TradeMove cfg raises st st' := by
  cases h with
  | raised => exact .of_eq rfl rfl rfl
  | waited s' hsame hst => exact .advance s s' hs hsame (hst ▸ hopen) rfl rfl (Or.inl rfl)
  | tookTp1 s' price now hsame _ hst' =>
      exact .advance s s' hs hsame (by rw [hst']; rfl) rfl rfl (Or.inr ⟨now, rfl⟩)
  | closed s' o r c told hsame _ hstate _ => exact .close s s' o r hs hsame rfl hstate rfl

theorem tradeMoves_analysisRule (cfg : Settings) (raises : ℕ → Bool) (v : PairView)
    (st₀ : Service) :
    AnalysisRule cfg raises v (Relation.ReflTransGen (TradeMove cfg raises) st₀)
      (Relation.ReflTransGen (TradeMove cfg raises) st₀) where
  pending := fun st z _ _ h => h.tail (notePending_move cfg raises st v z)
  check := fun st x now load nowMs h => h.tail (shouldEmit_move cfg raises st x now load nowMs)
  emit := fun _ _ _ _ h he => h.tail he.tradeMove
  done := fun _ h => h

theorem tradeMoves_watchRule (cfg : Settings) (raises : ℕ → Bool) (st₀ : Service) :
    WatchRule cfg raises
      (fun st => Watching st ∧ Relation.ReflTransGen (TradeMove cfg raises) st₀ st) where
  watching := fun _ h => h.1
  turn := fun st st' s h hs ht => by
    have hmove := ht.tradeMove hs (h.1.open_of_mem s hs)
    exact ⟨h.1.move hmove.move, h.2.tail hmove⟩

theorem analyzePair_tradeMoves (profileOf : String → Interval → Interval → AssetProfile)
    (symbol : String) (htfInterval ltfInterval : Interval) (firedAt : ℤ) (io : PairInputs) :
    Relation.ReflTransGen (TradeMove cfg raises) st
      (st.analyzePair cfg profileOf raises symbol htfInterval ltfInterval firedAt io).1 :=
  AnalysisRule.analyzePair .refl
    (fun v _ => ⟨_, tradeMoves_analysisRule cfg raises v st, .single (.of_eq rfl rfl rfl)⟩)

theorem evaluateGroup_tradeMoves (profileOf : String → Interval → Interval → AssetProfile)
    (clock : SignalId → ℤ) (symbol : String) (ltfInterval : Interval) (fetch : FetchRange)
    (now : ℤ) (h : Watching st) :
    Relation.ReflTransGen (TradeMove cfg raises) st
      (st.evaluateGroup cfg profileOf raises clock symbol ltfInterval fetch now).1 :=
  ((tradeMoves_watchRule cfg raises st).evaluateGroup ⟨h, .refl⟩ clock symbol ltfInterval fetch
    now).2

theorem analyzePair_moves (profileOf : String → Interval → Interval → AssetProfile)
    (symbol : String) (htfInterval ltfInterval : Interval) (firedAt : ℤ) (io : PairInputs) :
    Relation.ReflTransGen (Move cfg) st
      (st.analyzePair cfg profileOf raises symbol htfInterval ltfInterval firedAt io).1 :=
  TradeMove.moves (analyzePair_tradeMoves profileOf symbol htfInterval ltfInterval firedAt io)

theorem evaluateGroup_moves (profileOf : String → Interval → Interval → AssetProfile)
    (clock : SignalId → ℤ) (symbol : String) (ltfInterval : Interval) (fetch : FetchRange)
    (now : ℤ) (h : Watching st) :
    Relation.ReflTransGen (Move cfg) st
      (st.evaluateGroup cfg profileOf raises clock symbol ltfInterval fetch now).1 :=
  TradeMove.moves (evaluateGroup_tradeMoves profileOf clock symbol ltfInterval fetch now h)

end SignalEngine
