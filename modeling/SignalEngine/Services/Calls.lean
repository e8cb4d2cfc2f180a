/-
  Calls: what the blocks of `analyze` and `update_watchlist` do, and runs of them.

  Model. A `ServiceCall` is one block of a call: the `_analyze_pair` of a pair or the
  `_fetch_and_evaluate` of an LTF. A run is any list of blocks, from an empty watchlist.

  Proved: what a property of the service must survive to hold after a block, by induction on the
  zones, on the candles and on the signals of the group. `AnalysisRule` asks it of a zone noted
  as pending, of a check of the gate and of an emission (`Emits`); `WatchRule` asks it of one
  candle of a watched signal, which is a `SignalTurn`.
-/
import SignalEngine.Services.SignalService
import SignalEngine.Session.CircuitBreaker

namespace SignalEngine

open Lib

inductive ServiceCall where
  | analyzePair (symbol : String) (htfInterval ltfInterval : Interval) (firedAt : ℤ)
      (io : PairInputs)
  | evaluateGroup (clock : SignalId → ℤ) (symbol : String) (ltfInterval : Interval)
      (fetch : FetchRange) (now : ℤ)

def Service.call (cfg : Settings) (profileOf : String → Interval → Interval → AssetProfile)
    (raises : ℕ → Bool) (st : Service) : ServiceCall → Service
  | .analyzePair symbol htfInterval ltfInterval firedAt io =>
      (st.analyzePair cfg profileOf raises symbol htfInterval ltfInterval firedAt io).1
  | .evaluateGroup clock symbol ltfInterval fetch now =>
      (st.evaluateGroup cfg profileOf raises clock symbol ltfInterval fetch now).1

/-- The state after a list of calls. -/
def Service.run (cfg : Settings) (profileOf : String → Interval → Interval → AssetProfile)
    (raises : ℕ → Bool) (st : Service) (calls : List ServiceCall) : Service :=
  calls.foldl (Service.call cfg profileOf raises) st

/-- The zone a signal was emitted from. -/
def TradeSignal.pendingKey (s : TradeSignal) : PendingKey :=
  ⟨s.symbol, s.htfInterval, s.ltfInterval, s.htfRange.timestamp, s.direction⟩

/-- The id the f-string of `_analyze_pair` gives a signal. -/
def TradeSignal.namedId (s : TradeSignal) : SignalId :=
  ⟨s.symbol, s.htfInterval, s.ltfInterval, s.rejectionCandle.timestamp, s.direction⟩

/-- A signal built under the f-string's id is named by its own fields. -/
theorem BuiltFrom.id_named {symbol : String} {htfInterval ltfInterval : Interval} {z : HtfRange}
    {rejection : RejectionCandle} {p : AssetProfile} {liveBid liveAsk : Option ℚ} {s : TradeSignal}
    (hb : BuiltFrom symbol htfInterval ltfInterval z rejection
      ⟨symbol, htfInterval, ltfInterval, rejection.timestamp, z.signalDirection⟩
      p liveBid liveAsk s) : s.id = s.namedId := by
  rw [hb.id_eq, TradeSignal.namedId, hb.symbol_eq, hb.htfInterval_eq, hb.ltfInterval_eq,
    hb.rejectionCandle_eq, hb.direction_eq]

/-- `st'` is `st` after the emission of `s` from the zone `z`. -/
structure Emits (cfg : Settings) (raises : ℕ → Bool) (v : PairView) (z : HtfRange)
    (s : TradeSignal) (st st' : Service) : Prop where
  count_lt : st.coordinator.state.zoneSignalCounts (setupOf s).zoneKey < cfg.maxSignalCountPerZone
  new_rejection : (setupOf s).rejKey ∉ st.coordinator.state.seenRej
  lock_free : lockKey cfg s ∉ st.coordinator.state.openKeys
  new_id : s.id ∉ keys TradeSignal.id st.watchlist
  named : s.id = s.namedId
  attempt_eq : s.zoneAttempt = (st.coordinator.registerSignal cfg (setupOf s)).2
  key_eq : s.pendingKey = v.pendingKey z
  triggered : s.status = .triggered
  watchlist_eq : st'.watchlist = st.watchlist ++ [s]
  coordinator_eq : st'.coordinator = (st.coordinator.registerSignal cfg (setupOf s)).1
  pending_eq : st'.pendingEmitted = erase Prod.fst (v.pendingKey z) st.pendingEmitted
  calls_eq : st'.calls =
    st.calls ++ [(.upsertOpen s v.pairFiredAt, !raises st.calls.length)]
  events_eq : st'.events = st.events ++ [.triggered s]

/-- What one candle of an open watched signal does. -/
inductive SignalTurn (cfg : Settings) (raises : ℕ → Bool) (s : TradeSignal) (st : Service) :
    Service → Prop
  | raised : SignalTurn cfg raises s st st
  | waited (s' : TradeSignal) : SameTrade s s' → s'.status = s.status →
      SignalTurn cfg raises s st
        { st with watchlist := overwrite TradeSignal.id s' st.watchlist }
  | tookTp1 (s' : TradeSignal) (price : Option ℚ) (now : ℤ) : SameTrade s s' →
      s.status = .triggered → s'.status = .tp1Hit →
      SignalTurn cfg raises s st
        { st with
          watchlist := overwrite TradeSignal.id s' st.watchlist
          calls := st.calls ++ [(.upsertOpen s' now, !raises st.calls.length)]
          events := st.events ++ [.updated .signalTp1Hit s.status price s'] }
  | closed (s' : TradeSignal) (o : SignalOutcome) (r : ℚ) (c : Coordinator)
      (told : List ServiceEvent) : SameTrade s s' →
      s'.status = .tp2Hit ∨ s'.status = .slHit ∨ s'.status = .expired →
      c.state = st.coordinator.state.releaseDirection (lockKey cfg s) →
      -- the end is not told when `_check_streak` raises
      (∃ event, statusToCloseEvent s'.status = some event ∧
          told = [.updated event s.status s'.closePrice s']) ∨
        cfg.maxConsecutiveLosses < 1 ∧ told = [] →
      SignalTurn cfg raises s st
        { coordinator := c
          watchlist := erase TradeSignal.id s.id st.watchlist
          pendingEmitted := st.pendingEmitted
          calls := st.calls ++ [(.deleteOpen s.id, !raises st.calls.length),
            (.insertClosed (closedRecord s' o r) st.coordinator.sessionDay,
              !raises (st.calls.length + 1))]
          events := st.events ++ told }

/-- A watchlist as the blocks keep it: one entry for each id, all of them open. -/
structure Watching (st : Service) : Prop where
  ids_nodup : (keys TradeSignal.id st.watchlist).Nodup
  open_of_mem : ∀ s ∈ st.watchlist, s.status.isOpen = true

/-- The entries of all ids but one are still there. -/
def KeepsOthers (id : SignalId) (st st' : Service) : Prop :=
  ∀ y ∈ st.watchlist, y.id ≠ id → y ∈ st'.watchlist

variable {cfg : Settings} {p : AssetProfile} {raises : ℕ → Bool} {st st' : Service}
  {s s' : TradeSignal} {v : PairView} {io : PairInputs} {z : HtfRange}
  {rejection : RejectionCandle} {P Q : Service → Prop}
  {profileOf : String → Interval → Interval → AssetProfile}

theorem SameTrade.lockKey_eq {s s' : TradeSignal} (h : SameTrade s s') (cfg : Settings) :
    lockKey cfg s' = lockKey cfg s := by
  rw [lockKey, lockKey, h.symbol_eq, h.direction_eq, h.htfInterval_eq, h.ltfInterval_eq]

theorem Watching.eq_of_id (h : Watching st) {a b : TradeSignal} (ha : a ∈ st.watchlist)
    (hb : b ∈ st.watchlist) (hid : a.id = b.id) : a = b :=
  List.inj_on_of_nodup_map h.ids_nodup ha hb hid

theorem KeepsOthers.trans {id : SignalId} {st₁ st₂ st₃ : Service} (h₁ : KeepsOthers id st₁ st₂)
    (h₂ : KeepsOthers id st₂ st₃) : KeepsOthers id st₁ st₃ :=
  fun y hy hne => h₂ y (h₁ y hy hne) hne

/-! ## Analysis -/

/-- An allowed setup is skipped without a trace, or emitted. -/
theorem emitSetup_cases (raises : ℕ → Bool) (io : PairInputs) (st : Service)
    (hcount : st.coordinator.state.zoneSignalCounts (v.setup z rejection).zoneKey <
      cfg.maxSignalCountPerZone)
    (hrej : (v.setup z rejection).rejKey ∉ st.coordinator.state.seenRej)
    (hfree : (v.setup z rejection).dirKey cfg.multiTfIndependentPositions ∉
      st.coordinator.state.openKeys) :
    st.emitSetup cfg raises v io z rejection = (st, .skip) ∨
      ∃ s st', st.emitSetup cfg raises v io z rejection = (st', .emitted s) ∧
        Emits cfg raises v z s st st' := by
  unfold Service.emitSetup
  split
  · exact Or.inl rfl
  next hid =>
  split
  · exact Or.inl rfl
  next built hbuilt =>
  rw [evaluateSetup_signal] at hbuilt
  have hb := buildSignal_eq_some hbuilt
  have hsetup : setupOf built = v.setup z rejection := by
    rw [setupOf, hb.symbol_eq, hb.direction_eq, hb.htfRange_eq, hb.rejectionCandle_eq,
      hb.htfInterval_eq, hb.ltfInterval_eq]
    rfl
  have hkey : built.pendingKey = v.pendingKey z := by
    rw [TradeSignal.pendingKey, hb.symbol_eq, hb.direction_eq, hb.htfRange_eq, hb.htfInterval_eq,
      hb.ltfInterval_eq]
    rfl
  have hnamed : built.id = built.namedId := hb.id_named
  rw [← hb.id_eq] at hid
  rw [← hsetup] at hcount hrej hfree ⊢
  exact Or.inr ⟨emittedSignal v io z rejection
    (st.coordinator.registerSignal cfg (setupOf built)).2 built, _, rfl,
    { count_lt := hcount
      new_rejection := hrej
      lock_free := hfree
      new_id := hid
      named := hnamed
      attempt_eq := rfl
      key_eq := hkey
      triggered := hb.fresh.status_eq
      watchlist_eq := put_of_new hid
      coordinator_eq := rfl
      pending_eq := rfl
      calls_eq := rfl
      events_eq := rfl }⟩

/-- `P` holds until the analysis emits, `Q` at its end. -/
structure AnalysisRule (cfg : Settings) (raises : ℕ → Bool) (v : PairView)
    (P Q : Service → Prop) : Prop where
  pending : ∀ st, ∀ z ∈ v.zones, v.bias.any (fun b => !b.allows z.signalDirection) = false →
    P st → P (st.notePending v z)
  check : ∀ st x now load nowMs, P st →
    P { st with coordinator := (st.coordinator.shouldEmit cfg x now load nowMs).1 }
  emit : ∀ st st' z s, P st → Emits cfg raises v z s st st' → Q st'
  done : ∀ st, P st → Q st

theorem AnalysisRule.analyzeZone (h : AnalysisRule cfg raises v P Q) (io : PairInputs)
    (hz : z ∈ v.zones) (hst : P st) :
    ((st.analyzeZone cfg raises v io z).2 = .skip ∧ P (st.analyzeZone cfg raises v io z).1) ∨
      (st.analyzeZone cfg raises v io z).2 ≠ .skip ∧
        Q (st.analyzeZone cfg raises v io z).1 := by
  unfold Service.analyzeZone
  split
  · exact Or.inl ⟨rfl, hst⟩
  next hbias =>
  have hpending := h.pending st z hz (Bool.not_eq_true _ ▸ hbias) hst
  generalize st.notePending v z = st₁ at hpending ⊢
  dsimp only
  split
  · exact Or.inl ⟨rfl, hpending⟩
  next rejection score _ =>
  split
  · exact Or.inl ⟨rfl, hpending⟩
  have hcheck := h.check st₁ (v.setup z rejection) v.pairFiredAt io.load (io.streakNow z) hpending
  have hall := shouldEmit_allowed cfg st₁.coordinator (v.setup z rejection) v.pairFiredAt io.load
    (io.streakNow z)
  generalize st₁.coordinator.shouldEmit cfg (v.setup z rejection) v.pairFiredAt io.load
    (io.streakNow z) = r at hcheck hall ⊢
  obtain ⟨c, e | (_ | reason)⟩ := r
  · exact Or.inr ⟨(fun hskip => by cases hskip), h.done _ hcheck⟩
  · obtain ⟨hcount, hrej, hfree⟩ := hall rfl
    dsimp only
    rcases emitSetup_cases raises io { st₁ with coordinator := c } hcount hrej hfree with
      heq | ⟨s, st', heq, hemit⟩
    · rw [heq]
      exact Or.inl ⟨rfl, hcheck⟩
    · rw [heq]
      exact Or.inr ⟨(fun hskip => by cases hskip), h.emit _ _ z s hcheck hemit⟩
  · exact Or.inl ⟨rfl, hcheck⟩

theorem AnalysisRule.analyzeZones (h : AnalysisRule cfg raises v P Q) {zs : List HtfRange}
    (hzs : ∀ z ∈ zs, z ∈ v.zones) (hst : P st) :
    Q (st.analyzeZones cfg raises v io zs).1 := by
  induction zs generalizing st with
  | nil => exact h.done st hst
  | cons z zs ih =>
      have hzone := h.analyzeZone io (hzs z List.mem_cons_self) hst
      rw [Service.analyzeZones]
      generalize st.analyzeZone cfg raises v io z = r at hzone ⊢
      obtain ⟨st₁, outcome⟩ := r
      rcases hzone with ⟨hskip, hP⟩ | ⟨hend, hQ⟩
      · dsimp only at hskip hP
        subst hskip
        exact ih (fun y hy => hzs y (List.mem_cons_of_mem _ hy)) hP
      · cases outcome with
        | skip => exact absurd rfl hend
        | fail e => exact hQ
        | emitted s => exact hQ

/-- What holds after an analysis: `Q` at an early return, else the rule's. -/
theorem AnalysisRule.analyzePair {symbol : String} {htfInterval ltfInterval : Interval}
    {firedAt : ℤ} (hnone : Q st)
    (h : ∀ v, pairView cfg (profileOf symbol htfInterval ltfInterval) symbol htfInterval
      ltfInterval firedAt io = some v →
      ∃ P, AnalysisRule cfg raises v P Q ∧ P (st.evictPending cfg v.pairFiredAt)) :
    Q (st.analyzePair cfg profileOf raises symbol htfInterval ltfInterval firedAt io).1 := by
  unfold Service.analyzePair
  split
  · exact hnone
  next v hview =>
  obtain ⟨P, hrule, hevict⟩ := h v hview
  exact hrule.analyzeZones (fun z hz => hz) hevict

/-! ## Watchlist -/

/-- A terminal step takes no TP1, and has set all that `_close_signal` reads. -/
theorem advance_end (hs : s.status.isOpen = true) (p : AssetProfile) (c : Candle) (now : ℤ)
    (h : (advance s c p now).2.terminal = true) :
    let r := advance s c p now
    r.2.emitTp1 = false ∧ (r.1.status = .tp2Hit ∨ r.1.status = .slHit ∨ r.1.status = .expired) ∧
      (∃ rr, r.1.realizedRr = some rr) ∧ (∃ o, r.1.outcome = some o) ∧
      ∃ e, statusToCloseEvent r.1.status = some e := by
  have hcase := advance_cases hs c p now
  generalize advance s c p now = r at h hcase ⊢
  cases hcase with
  | tp1 | wait | hold => cases h
  | expireTriggered | expireBreakeven | expireAfterTp1 =>
      exact ⟨rfl, Or.inr (Or.inr rfl), ⟨_, rfl⟩, ⟨_, rfl⟩, ⟨_, rfl⟩⟩
  | bothTargets | tp2AfterTp1 => exact ⟨rfl, Or.inl rfl, ⟨_, rfl⟩, ⟨_, rfl⟩, ⟨_, rfl⟩⟩
  | stop | breakeven | stopAfterTp1 =>
      exact ⟨rfl, Or.inr (Or.inl rfl), ⟨_, rfl⟩, ⟨_, rfl⟩, ⟨_, rfl⟩⟩

theorem advance_goesOn (hs : s.status.isOpen = true) (p : AssetProfile) (c : Candle) (now : ℤ)
    (h : (advance s c p now).2.terminal = false) :
    let r := advance s c p now
    (r.2.emitTp1 = true ∧ s.status = .triggered ∧ r.1.status = .tp1Hit) ∨
      r.2.emitTp1 = false ∧ r.1.status = s.status := by
  have hcase := advance_cases hs c p now
  generalize advance s c p now = r at h hcase ⊢
  cases hcase with
  | tp1 hst => exact Or.inl ⟨rfl, hst, rfl⟩
  | wait | hold => exact Or.inr ⟨rfl, rfl⟩
  | expireTriggered | expireBreakeven | expireAfterTp1 => cases h
  | bothTargets | stop | tp2AfterTp1 | breakeven | stopAfterTp1 => cases h

/-- A limit of one loss or more never indexes an empty streak. -/
theorem applyStreak_ok (h : 1 ≤ cfg.maxConsecutiveLosses) (c : Coordinator) (nowMs : ℤ) :
    (c.applyStreak cfg nowMs).2 = none := by
  have hok : ∃ paused, checkStreak cfg c.history nowMs = .ok paused := by
    rw [checkStreak_ok_iff]
    omega
  obtain ⟨paused, hpaused⟩ := hok
  rw [Coordinator.applyStreak, hpaused]

/-- Closing a signal pops it, frees its lock and makes two store calls, in this order. -/
theorem closeSignal_turn (cfg : Settings) (raises : ℕ → Bool) (st : Service) {o : SignalOutcome}
    {r : ℚ} {event : SignalEvent} (hr : s'.realizedRr = some r) (ho : s'.outcome = some o)
    (hsame : SameTrade s s')
    (hend : s'.status = .tp2Hit ∨ s'.status = .slHit ∨ s'.status = .expired)
    (hevent : statusToCloseEvent s'.status = some event) (nowMs : ℤ) :
    SignalTurn cfg raises s st
      (Service.closeSignal cfg raises s' event s.status nowMs
        { st with watchlist := overwrite TradeSignal.id s' st.watchlist }).1 := by
  have hstate := applyStreak_state cfg
    (st.coordinator.closeRecord cfg (closedRecord s' o r)) nowMs
  have hok : cfg.maxConsecutiveLosses < 1 ∨ (Coordinator.applyStreak cfg
      (st.coordinator.closeRecord cfg (closedRecord s' o r)) nowMs).2 = none := by
    by_cases hmax : cfg.maxConsecutiveLosses < 1
    · exact Or.inl hmax
    · exact Or.inr (applyStreak_ok (not_lt.mp hmax) _ nowMs)
  have hlock : (st.coordinator.closeRecord cfg (closedRecord s' o r)).state =
      st.coordinator.state.releaseDirection (lockKey cfg s) := by
    rw [← hsame.lockKey_eq]
    rfl
  unfold Service.closeSignal Service.recordOutcome
  simp only [hr, ho, Service.tryStore, hsame.id_eq, erase_overwrite hsame.id_eq]
  rw [List.append_assoc, List.singleton_append, List.length_append, List.length_singleton]
  generalize Coordinator.applyStreak cfg
    (st.coordinator.closeRecord cfg (closedRecord s' o r)) nowMs = a at hstate hok ⊢
  obtain ⟨c, e⟩ := a
  cases e with
  | none =>
      exact .closed s' o r c _ hsame hend (hstate.trans hlock) (Or.inl ⟨event, hevent, rfl⟩)
  | some e =>
      have hmax := hok.resolve_right (fun h => by cases h)
      have hturn : SignalTurn cfg raises s st _ :=
        .closed s' o r c [] hsame hend (hstate.trans hlock) (Or.inr ⟨hmax, rfl⟩)
      rwa [List.append_nil] at hturn

/-- Evaluating a watched signal is one turn; if it stays open, it stays watched. -/
theorem evaluateSignal_turn (cfg : Settings) (p : AssetProfile) (raises : ℕ → Bool)
    (hs : s ∈ st.watchlist) (hopen : s.status.isOpen = true) (clock : SignalId → ℤ) (c : Candle) :
    SignalTurn cfg raises s st (st.evaluateSignal cfg p raises clock s c).1 ∧
      ∀ s', (st.evaluateSignal cfg p raises clock s c).2 = .ok s' → s'.status.isOpen = true →
        s'.id = s.id ∧ s' ∈ (st.evaluateSignal cfg p raises clock s c).1.watchlist := by
  unfold Service.evaluateSignal
  split
  · exact ⟨.raised, fun s' h => by cases h⟩
  next s' step hstep =>
  have hsame : SameTrade s s' := sameTrade_stepSignalState hstep
  have hiff := stepSignalState_isOpen hopen hstep
  obtain ⟨-, hadv⟩ := stepSignalState_eq_ok hstep
  cases hterm : step.terminal with
  | true =>
      have hclosed : s'.status.isOpen = false := by rw [hiff, hterm]; rfl
      have hend := advance_end hopen p c c.timestamp
      rw [← hadv] at hend
      obtain ⟨htp1, hstatus, ⟨r, hr⟩, ⟨o, ho⟩, e, he⟩ := hend hterm
      dsimp only at htp1 hstatus hr ho he
      have hnote : st.noteStep s s' c step =
          { st with watchlist := overwrite TradeSignal.id s' st.watchlist } := by
        rw [Service.noteStep, if_neg (by rw [htp1]; exact Bool.false_ne_true)]
      simp only [he, if_true, htp1, Bool.false_eq_true, if_false, hnote]
      have hturn := closeSignal_turn cfg raises st hr ho hsame hstatus he (clock s'.id)
      generalize Service.closeSignal cfg raises s' e s.status (clock s'.id)
        { st with watchlist := overwrite TradeSignal.id s' st.watchlist } = a at hturn ⊢
      obtain ⟨st', _ | err⟩ := a
      · refine ⟨hturn, fun y hy hyopen => ?_⟩
        cases hy
        rw [hclosed] at hyopen
        cases hyopen
      · exact ⟨hturn, fun y hy => by cases hy⟩
  | false =>
      have hstay : s' ∈ overwrite TradeSignal.id s' st.watchlist :=
        mem_overwrite_self (hsame.id_eq ▸ List.mem_map_of_mem hs)
      have hon := advance_goesOn hopen p c c.timestamp
      rw [← hadv] at hon
      rcases hon hterm with ⟨htp1, hst, hst'⟩ | ⟨htp1, hst'⟩
      · dsimp only at htp1 hst'
        simp only [Bool.false_eq_true, if_false, htp1, if_true, Service.noteStep,
          Service.tryStore, Service.emit]
        refine ⟨.tookTp1 s' _ c.timestamp hsame hst hst', fun y hy _ => ?_⟩
        cases hy
        exact ⟨hsame.id_eq, hstay⟩
      · dsimp only at htp1 hst'
        simp only [Bool.false_eq_true, if_false, htp1, Service.noteStep]
        refine ⟨.waited s' hsame hst', fun y hy _ => ?_⟩
        cases hy
        exact ⟨hsame.id_eq, hstay⟩

theorem SignalTurn.others (h : SignalTurn cfg raises s st st') : KeepsOthers s.id st st' := by
  intro y hy hne
  cases h with
  | raised => exact hy
  | waited s' hsame _ => exact mem_overwrite_of_ne hy (hsame.id_eq ▸ hne)
  | tookTp1 s' price now hsame _ _ => exact mem_overwrite_of_ne hy (hsame.id_eq ▸ hne)
  | closed s' o r c told _ _ _ _ => exact mem_erase.mpr ⟨hy, hne⟩

/-- The coordinator's tables but for the locks. -/
theorem SignalTurn.tables_eq (h : SignalTurn cfg raises s st st') :
    st'.coordinator.state.seenRej = st.coordinator.state.seenRej ∧
      st'.coordinator.state.zoneSignalCounts = st.coordinator.state.zoneSignalCounts := by
  cases h with
  | raised | waited | tookTp1 => exact ⟨rfl, rfl⟩
  | closed s' o r c told _ _ hstate _ =>
      dsimp only
      rw [hstate]
      exact ⟨rfl, rfl⟩

/-- `P` survives each candle of a watched signal. -/
structure WatchRule (cfg : Settings) (raises : ℕ → Bool) (P : Service → Prop) : Prop where
  watching : ∀ st, P st → Watching st
  turn : ∀ st st' s, P st → s ∈ st.watchlist → SignalTurn cfg raises s st st' → P st'

theorem WatchRule.evaluateCandles (h : WatchRule cfg raises P) (hst : P st)
    (hs : s ∈ st.watchlist) (clock : SignalId → ℤ) (cs : List Candle) :
    P (st.evaluateCandles cfg p raises clock s cs).1 ∧
      KeepsOthers s.id st (st.evaluateCandles cfg p raises clock s cs).1 := by
  induction cs generalizing st s with
  | nil => exact ⟨hst, fun y hy _ => hy⟩
  | cons c cs ih =>
      obtain ⟨hturn, hnext⟩ := evaluateSignal_turn cfg p raises hs
        ((h.watching st hst).open_of_mem s hs) clock c
      have hP := h.turn st _ s hst hs hturn
      have hothers := hturn.others
      rw [Service.evaluateCandles]
      generalize st.evaluateSignal cfg p raises clock s c = r at hnext hP hothers ⊢
      obtain ⟨st₁, e | s'⟩ := r
      · exact ⟨hP, hothers⟩
      · dsimp only at hnext hP hothers ⊢
        split
        · next hopen' =>
            obtain ⟨hid, hs'⟩ := hnext s' rfl hopen'
            obtain ⟨hrest, hkept⟩ := ih hP hs'
            rw [hid] at hkept
            exact ⟨hrest, hothers.trans hkept⟩
        · exact ⟨hP, hothers⟩

theorem WatchRule.evaluateSignals (h : WatchRule cfg raises P) (hst : P st)
    {signals : List TradeSignal} (hmem : ∀ s ∈ signals, s ∈ st.watchlist)
    (hnodup : (keys TradeSignal.id signals).Nodup) (clock : SignalId → ℤ)
    (candles : List Candle) :
    P (st.evaluateSignals cfg profileOf raises clock candles signals).1 := by
  induction signals generalizing st with
  | nil => exact hst
  | cons s rest ih =>
      rw [keys_cons, List.nodup_cons] at hnodup
      have hcandles := h.evaluateCandles (p := profileOf s.symbol s.htfInterval s.ltfInterval) hst
        (hmem s List.mem_cons_self) clock (newerCandles s candles)
      rw [Service.evaluateSignals]
      generalize st.evaluateCandles cfg (profileOf s.symbol s.htfInterval s.ltfInterval) raises
        clock s (newerCandles s candles) = r at hcandles ⊢
      obtain ⟨hP, hothers⟩ := hcandles
      obtain ⟨st₁, _ | e⟩ := r
      · refine ih hP (fun y hy => ?_) hnodup.2
        refine hothers y (hmem y (List.mem_cons_of_mem _ hy)) (fun heq => hnodup.1 ?_)
        exact heq ▸ List.mem_map_of_mem hy
      · exact hP

theorem WatchRule.evaluateGroup (h : WatchRule cfg raises P) (hst : P st)
    (clock : SignalId → ℤ) (symbol : String) (ltfInterval : Interval) (fetch : FetchRange)
    (now : ℤ) : P (st.evaluateGroup cfg profileOf raises clock symbol ltfInterval fetch now).1 := by
  unfold Service.evaluateGroup
  split
  · exact hst
  dsimp only
  split
  · exact hst
  refine h.evaluateSignals hst (fun s hs => (List.mem_filter.mp hs).1) ?_ clock _
  exact (h.watching st hst).ids_nodup.sublist (List.Sublist.map _ List.filter_sublist)

end SignalEngine
