/-
  Outcome safety: when recording an outcome raises.

  Model. `_check_streak` with the log line of a new pause, which writes the end of the pause as
  a date, and the calls of the service above it up to the groups of `update_watchlist`. Numbers
  are rationals: a pause that is no finite number is left out.

  Proved: `outcomes_recorded_iff`: `record_outcome` raises nothing, `_close_signal` tells the
  end, and no group of `update_watchlist` is cut short, exactly when every record is safe. The
  induction follows the candles of a signal, then the signals of the group.
-/
import SignalEngine.Config.AppSettings
import SignalEngine.Services.RestartSafety

namespace SignalEngine

open Lib

/-! ## Record -/

/-- `datetime.fromtimestamp` takes it: years 1 to 9999. -/
def IsDate (ms : ℤ) : Prop := -62135596800000 ≤ ms ∧ ms < 253402300800000

instance (ms : ℤ) : Decidable (IsDate ms) :=
  inferInstanceAs (Decidable (-62135596800000 ≤ ms ∧ ms < 253402300800000))

inductive StreakError where
  | indexError
  | valueError
  deriving DecidableEq, Repr

/-- `_check_streak`; a pause that is not yet set is logged first. -/
def Coordinator.checkStreakLogged (cfg : Settings) (c : Coordinator) (nowMs : ℤ) :
    Coordinator × Option StreakError :=
  if (consecutiveLosses c.history : ℤ) < cfg.maxConsecutiveLosses then
    ({ c with pausedUntil := none }, none)
  else
    match streakRecords c.history.reverse with
    | [] => (c, some .indexError)
    | last :: _ =>
        if nowMs < pauseEnd cfg last then
          if c.pausedUntil ≠ some (pauseEnd cfg last) ∧ ¬ IsDate (pauseEnd cfg last) then
            (c, some .valueError)
          else ({ c with pausedUntil := some (pauseEnd cfg last) }, none)
        else ({ c with pausedUntil := none }, none)

/-- `record_outcome`, in memory. -/
def Coordinator.recordOutcomeLogged (cfg : Settings) (c : Coordinator) (rec : ClosedSignalRecord)
    (nowMs : ℤ) : Coordinator × Option StreakError :=
  (c.closeRecord cfg rec).checkStreakLogged cfg nowMs

/-- `record_outcome`. -/
def Service.recordOutcomeLogged (cfg : Settings) (raises : ℕ → Bool) (rec : ClosedSignalRecord)
    (nowMs : ℤ) (st : Service) : Service × Option StreakError :=
  let c := st.coordinator.closeRecord cfg rec
  let st := Service.tryStore raises { st with coordinator := c } (.insertClosed rec c.sessionDay)
  let r := c.checkStreakLogged cfg nowMs
  ({ st with coordinator := r.1 }, r.2)

inductive WatchError where
  | service (e : ServiceError)
  | streak (e : StreakError)
  deriving DecidableEq, Repr

/-- `_close_signal`. -/
def Service.closeSignalLogged (cfg : Settings) (raises : ℕ → Bool) (s : TradeSignal)
    (event : SignalEvent) (prev : SignalStatus) (nowMs : ℤ) (st : Service) :
    Service × Option WatchError :=
  match s.realizedRr with
  | none => (st, some (.service (.assertionError s.id)))
  | some realizedRr =>
      let st := { st with watchlist := erase TradeSignal.id s.id st.watchlist }
      let st := st.tryStore raises (.deleteOpen s.id)
      match s.outcome with
      | none => (st, some (.service .attributeError))
      | some outcome =>
          match st.recordOutcomeLogged cfg raises (closedRecord s outcome realizedRr) nowMs with
          | (st, some e) => (st, some (.streak e))
          | (st, none) => (st.emit (.updated event prev s.closePrice s), none)

/-! ## Loops -/

/-- `_evaluate_signal`. -/
def Service.evaluateSignalLogged (cfg : Settings) (p : AssetProfile) (raises : ℕ → Bool)
    (clock : SignalId → ℤ) (st : Service) (s : TradeSignal) (c : Candle) :
    Service × Except WatchError TradeSignal :=
  match stepSignalState s c p c.timestamp with
  | .error e => (st, .error (.service (.candle e)))
  | .ok (s', step) =>
      let st := st.noteStep s s' c step
      let prev := if step.emitTp1 then .tp1Hit else s.status
      if step.terminal then
        match statusToCloseEvent s'.status with
        | none => (st, .error (.service (.keyError s'.status)))
        | some event =>
            match st.closeSignalLogged cfg raises s' event prev (clock s'.id) with
            | (st, some e) => (st, .error e)
            | (st, none) => (st, .ok s')
      else if step.emitTp1 then (st.tryStore raises (.upsertOpen s' c.timestamp), .ok s')
      else (st, .ok s')

/-- The candle loop of one signal. -/
def Service.evaluateCandlesLogged (cfg : Settings) (p : AssetProfile) (raises : ℕ → Bool)
    (clock : SignalId → ℤ) (st : Service) (s : TradeSignal) :
    List Candle → Service × Option WatchError
  | [] => (st, none)
  | c :: cs =>
      match st.evaluateSignalLogged cfg p raises clock s c with
      | (st, .error e) => (st, some e)
      | (st, .ok s') =>
          if s'.status.isOpen then st.evaluateCandlesLogged cfg p raises clock s' cs
          else (st, none)

/-- The signal loop of `_fetch_and_evaluate`. -/
def Service.evaluateSignalsLogged (cfg : Settings)
    (profileOf : String → Interval → Interval → AssetProfile) (raises : ℕ → Bool)
    (clock : SignalId → ℤ) (candles : List Candle) (st : Service) :
    List TradeSignal → Service × Option WatchError
  | [] => (st, none)
  | s :: rest =>
      match st.evaluateCandlesLogged cfg (profileOf s.symbol s.htfInterval s.ltfInterval) raises
          clock s (newerCandles s candles) with
      | (st, some e) => (st, some e)
      | (st, none) => st.evaluateSignalsLogged cfg profileOf raises clock candles rest

/-- `_fetch_and_evaluate`. -/
def Service.evaluateGroupLogged (cfg : Settings)
    (profileOf : String → Interval → Interval → AssetProfile) (raises : ℕ → Bool)
    (clock : SignalId → ℤ) (symbol : String) (ltfInterval : Interval) (fetch : FetchRange)
    (now : ℤ) (st : Service) : Service × Option WatchError :=
  match ((st.group symbol ltfInterval).map TradeSignal.createdAt).min? with
  | none => (st, none)
  | some oldestTs =>
      let candles := fetchedClosed fetch ltfInterval oldestTs now
      if candles.length < 2 then (st, none)
      else
        st.evaluateSignalsLogged cfg profileOf raises clock candles (st.group symbol ltfInterval)

/-! ## Safe records -/

/-- The streak is short, or has a loss whose pause is over, already set, or ends on a date. -/
def StreakSafe (cfg : Settings) (history : List ClosedSignalRecord) (pausedUntil : Option ℤ)
    (nowMs : ℤ) : Prop :=
  (consecutiveLosses history : ℤ) < cfg.maxConsecutiveLosses ∨
    ∃ last ∈ newestLoss history, nowMs < pauseEnd cfg last →
      pausedUntil = some (pauseEnd cfg last) ∨ IsDate (pauseEnd cfg last)

instance (cfg : Settings) (history : List ClosedSignalRecord) (pausedUntil : Option ℤ)
    (nowMs : ℤ) : Decidable (StreakSafe cfg history pausedUntil nowMs) :=
  inferInstanceAs (Decidable (_ ∨ ∃ last ∈ newestLoss history, _))

/-- The streak of the history that `record_outcome` reads is safe. -/
def RecordSafe (cfg : Settings) (c : Coordinator) (rec : ClosedSignalRecord) (nowMs : ℤ) : Prop :=
  StreakSafe cfg (pushHistory c.history rec) c.pausedUntil nowMs

instance (cfg : Settings) (c : Coordinator) (rec : ClosedSignalRecord) (nowMs : ℤ) :
    Decidable (RecordSafe cfg c rec nowMs) :=
  inferInstanceAs (Decidable (StreakSafe cfg (pushHistory c.history rec) c.pausedUntil nowMs))

/-- What closing the signal records is safe. -/
def CloseSafe (cfg : Settings) (c : Coordinator) (s : TradeSignal) (nowMs : ℤ) : Prop :=
  ∀ r ∈ s.realizedRr, ∀ o ∈ s.outcome, RecordSafe cfg c (closedRecord s o r) nowMs

/-- If the candle ends the signal, closing it is safe. -/
def CandleSafe (cfg : Settings) (p : AssetProfile) (clock : SignalId → ℤ) (st : Service)
    (s : TradeSignal) (c : Candle) : Prop :=
  match stepSignalState s c p c.timestamp with
  | .error _ => True
  | .ok (s', step) =>
      step.terminal = true → statusToCloseEvent s'.status ≠ none →
        CloseSafe cfg st.coordinator s' (clock s'.id)

/-- Every candle the loop comes to is safe. -/
def CandlesSafe (cfg : Settings) (p : AssetProfile) (raises : ℕ → Bool) (clock : SignalId → ℤ)
    (st : Service) (s : TradeSignal) : List Candle → Prop
  | [] => True
  | c :: cs =>
      CandleSafe cfg p clock st s c ∧
        match st.evaluateSignalLogged cfg p raises clock s c with
        | (_, .error _) => True
        | (st, .ok s') => s'.status.isOpen = true → CandlesSafe cfg p raises clock st s' cs

/-- Every candle of every signal the loop comes to is safe. -/
def SignalsSafe (cfg : Settings) (profileOf : String → Interval → Interval → AssetProfile)
    (raises : ℕ → Bool) (clock : SignalId → ℤ) (candles : List Candle) (st : Service) :
    List TradeSignal → Prop
  | [] => True
  | s :: rest =>
      CandlesSafe cfg (profileOf s.symbol s.htfInterval s.ltfInterval) raises clock st s
          (newerCandles s candles) ∧
        match st.evaluateCandlesLogged cfg
            (profileOf s.symbol s.htfInterval s.ltfInterval) raises clock s
            (newerCandles s candles) with
        | (_, some _) => True
        | (st, none) => SignalsSafe cfg profileOf raises clock candles st rest

/-- Every end that a turn of the group records is safe. -/
def GroupSafe (cfg : Settings) (profileOf : String → Interval → Interval → AssetProfile)
    (raises : ℕ → Bool) (clock : SignalId → ℤ) (symbol : String) (ltfInterval : Interval)
    (fetch : FetchRange) (now : ℤ) (st : Service) : Prop :=
  ∀ oldestTs ∈ ((st.group symbol ltfInterval).map TradeSignal.createdAt).min?,
    2 ≤ (fetchedClosed fetch ltfInterval oldestTs now).length →
      SignalsSafe cfg profileOf raises clock (fetchedClosed fetch ltfInterval oldestTs now) st
        (st.group symbol ltfInterval)

variable {cfg : Settings} {c : Coordinator} {rec : ClosedSignalRecord} {nowMs : ℤ}
  {p : AssetProfile} {raises : ℕ → Bool} {clock : SignalId → ℤ} {st : Service} {s : TradeSignal}
  {profileOf : String → Interval → Interval → AssetProfile} {candles : List Candle}

/-! ### Record -/

/-- `_check_streak` completes on safe streaks only. -/
theorem checkStreakLogged_eq_none_iff (cfg : Settings) (c : Coordinator) (nowMs : ℤ) :
    (c.checkStreakLogged cfg nowMs).2 = none ↔
      StreakSafe cfg c.history c.pausedUntil nowMs := by
  unfold Coordinator.checkStreakLogged StreakSafe newestLoss
  by_cases hshort : (consecutiveLosses c.history : ℤ) < cfg.maxConsecutiveLosses
  · simp [hshort]
  rw [if_neg hshort, or_iff_right hshort]
  cases streakRecords c.history.reverse with
  | nil => simp
  | cons last older =>
      dsimp only
      rw [List.head?_cons]
      by_cases hnow : nowMs < pauseEnd cfg last
      · by_cases hset : c.pausedUntil = some (pauseEnd cfg last)
        · simp [hnow, hset]
        · by_cases hdate : IsDate (pauseEnd cfg last) <;> simp [hnow, hset, hdate]
      · simp [hnow]

theorem recordOutcomeLogged_eq_none_iff (cfg : Settings) (c : Coordinator)
    (rec : ClosedSignalRecord) (nowMs : ℤ) :
    (c.recordOutcomeLogged cfg rec nowMs).2 = none ↔ RecordSafe cfg c rec nowMs := by
  rw [Coordinator.recordOutcomeLogged, checkStreakLogged_eq_none_iff, Coordinator.closeRecord,
    RecordSafe]

/-- On a safe streak, `_check_streak` leaves what the one without a log leaves. -/
theorem checkStreakLogged_of_safe (h : StreakSafe cfg c.history c.pausedUntil nowMs) :
    c.checkStreakLogged cfg nowMs = ((c.applyStreak cfg nowMs).1, none) ∧
      (c.applyStreak cfg nowMs).2 = none := by
  have hnone := (checkStreakLogged_eq_none_iff cfg c nowMs).mpr h
  have hstreak : newestLoss c.history = (streakRecords c.history.reverse).head? := rfl
  unfold Coordinator.checkStreakLogged at hnone ⊢
  unfold Coordinator.applyStreak checkStreak
  by_cases hshort : (consecutiveLosses c.history : ℤ) < cfg.maxConsecutiveLosses
  · rw [if_pos hshort, if_pos hshort]
    exact ⟨rfl, rfl⟩
  rw [if_neg hshort] at hnone ⊢
  rw [if_neg hshort]
  cases hrec : streakRecords c.history.reverse with
  | nil =>
      rw [hrec] at hnone
      cases hnone
  | cons last older =>
      rw [hrec] at hnone
      dsimp only at hnone ⊢
      by_cases hnow : nowMs < pauseEnd cfg last
      · rw [if_pos hnow] at hnone ⊢
        by_cases hlate : c.pausedUntil ≠ some (pauseEnd cfg last) ∧ ¬ IsDate (pauseEnd cfg last)
        · rw [if_pos hlate] at hnone
          cases hnone
        · rw [if_neg hlate]
          rw [pauseEnd] at hnow
          rw [if_pos hnow]
          exact ⟨rfl, rfl⟩
      · rw [if_neg hnow]
        rw [pauseEnd] at hnow
        rw [if_neg hnow]
        exact ⟨rfl, rfl⟩

/-- A safe record leaves what `record_outcome` without a log leaves. -/
theorem recordOutcomeLogged_of_safe (h : RecordSafe cfg c rec nowMs) :
    c.recordOutcomeLogged cfg rec nowMs = ((c.recordOutcome cfg rec nowMs).1, none) ∧
      (c.recordOutcome cfg rec nowMs).2 = none := by
  rw [Coordinator.recordOutcomeLogged, Coordinator.recordOutcome]
  refine checkStreakLogged_of_safe ?_
  rwa [Coordinator.closeRecord, ← RecordSafe]

/-! ### Close -/

variable {event : SignalEvent} {prev : SignalStatus} {r : ℚ} {o : SignalOutcome}

/-- `_close_signal` up to `record_outcome`. -/
def Service.dropOpen (raises : ℕ → Bool) (st : Service) (id : SignalId) : Service :=
  { st with watchlist := erase TradeSignal.id id st.watchlist }.tryStore raises (.deleteOpen id)

theorem dropOpen_recordOutcomeLogged_iff (cfg : Settings) (raises : ℕ → Bool) (st : Service)
    (id : SignalId) (rec : ClosedSignalRecord) (nowMs : ℤ) :
    ((st.dropOpen raises id).recordOutcomeLogged cfg raises rec nowMs).2 = none ↔
      RecordSafe cfg st.coordinator rec nowMs :=
  recordOutcomeLogged_eq_none_iff cfg st.coordinator rec nowMs

/-- `_close_signal` on a signal that a terminal step has filled in. -/
theorem closeSignalLogged_eq (hr : s.realizedRr = some r) (ho : s.outcome = some o) :
    let recorded :=
      (st.dropOpen raises s.id).recordOutcomeLogged cfg raises (closedRecord s o r) nowMs
    let closed := st.closeSignalLogged cfg raises s event prev nowMs
    closed.2 = recorded.2.map .streak ∧
      (recorded.2 = none → closed.1 = recorded.1.emit (.updated event prev s.closePrice s)) := by
  rw [Service.closeSignalLogged, hr]
  dsimp only
  rw [ho]
  dsimp only [Service.dropOpen]
  generalize Service.recordOutcomeLogged cfg raises (closedRecord s o r) nowMs _ = a
  obtain ⟨st', _ | e⟩ := a
  · exact ⟨rfl, fun _ => rfl⟩
  · exact ⟨rfl, fun h => by cases h⟩

/-- The end of a signal is told if and only if its record is safe. -/
theorem closeSignalLogged_told_iff (hr : s.realizedRr = some r) (ho : s.outcome = some o) :
    ((st.closeSignalLogged cfg raises s event prev nowMs).2 = none ∧
      (st.closeSignalLogged cfg raises s event prev nowMs).1.events =
        st.events ++ [.updated event prev s.closePrice s]) ↔
      RecordSafe cfg st.coordinator (closedRecord s o r) nowMs := by
  obtain ⟨herror, hclosed⟩ := closeSignalLogged_eq hr ho
  rw [herror, Option.map_eq_none_iff, dropOpen_recordOutcomeLogged_iff]
  refine and_iff_left_of_imp fun hsafe => ?_
  rw [hclosed ((dropOpen_recordOutcomeLogged_iff ..).mpr hsafe)]
  rfl

/-- `record_outcome` cuts `_close_signal` short if and only if the record is not safe. -/
theorem closeSignalLogged_uncut_iff (cfg : Settings) (raises : ℕ → Bool) (st : Service)
    (s : TradeSignal) (event : SignalEvent) (prev : SignalStatus) (nowMs : ℤ) :
    (∀ e, (st.closeSignalLogged cfg raises s event prev nowMs).2 ≠ some (.streak e)) ↔
      CloseSafe cfg st.coordinator s nowMs := by
  cases hr : s.realizedRr with
  | none =>
      refine iff_of_true (fun e => ?_) (fun r hmem => by rw [hr] at hmem; cases hmem)
      rw [Service.closeSignalLogged, hr]
      exact fun h => by cases h
  | some r =>
      cases ho : s.outcome with
      | none =>
          refine iff_of_true (fun e => ?_) (fun _ _ o hmem => by rw [ho] at hmem; cases hmem)
          rw [Service.closeSignalLogged, hr]
          dsimp only
          rw [ho]
          exact fun h => by cases h
      | some o =>
          have hsafe : CloseSafe cfg st.coordinator s nowMs ↔
              RecordSafe cfg st.coordinator (closedRecord s o r) nowMs := by
            unfold CloseSafe
            simp only [hr, ho, Option.mem_def, Option.some.injEq, forall_eq']
          rw [hsafe, ← dropOpen_recordOutcomeLogged_iff cfg raises st s.id,
            (closeSignalLogged_eq hr ho).1]
          generalize (st.dropOpen raises s.id).recordOutcomeLogged cfg raises (closedRecord s o r)
            nowMs = a
          obtain ⟨st', _ | e⟩ := a
          · exact iff_of_true (fun e h => by cases h) rfl
          · exact iff_of_false (fun h => h e rfl) (fun h => by cases h)

/-! ### Loops -/

theorem noteStep_coordinator (s s' : TradeSignal) (c : Candle) (step : StepOutcome) :
    (st.noteStep s s' c step).coordinator = st.coordinator := by
  unfold Service.noteStep
  dsimp only
  split <;> rfl

/-- A candle's turn is cut short if and only if it records an end that is not safe. -/
theorem evaluateSignal_uncut_iff (raises : ℕ → Bool) {c : Candle} :
    (∀ e, (st.evaluateSignalLogged cfg p raises clock s c).2 ≠
      .error (.streak e)) ↔ CandleSafe cfg p clock st s c := by
  unfold Service.evaluateSignalLogged CandleSafe
  split
  · exact iff_of_true (fun e h => by cases h) trivial
  next s' step _ =>
  dsimp only
  cases step.terminal with
  | false =>
      refine iff_of_true (fun e h => ?_) (fun h => by cases h)
      rw [if_neg Bool.false_ne_true] at h
      split at h <;> cases h
  | true =>
      rw [if_pos rfl]
      cases statusToCloseEvent s'.status with
      | none => exact iff_of_true (fun e h => by cases h) (fun _ h => absurd rfl h)
      | some event =>
          simp only [forall_const, ne_eq, reduceCtorEq, not_false_eq_true]
          rw [← noteStep_coordinator s s' c step,
            ← closeSignalLogged_uncut_iff cfg raises _ s' event
              (if step.emitTp1 then .tp1Hit else s.status)]
          generalize Service.closeSignalLogged cfg raises s' event
            (if step.emitTp1 then .tp1Hit else s.status) (clock s'.id)
            (st.noteStep s s' c step) = a
          obtain ⟨st', _ | e⟩ := a
          · exact iff_of_true (fun e h => by cases h) (fun e h => by cases h)
          · simp

theorem evaluateCandles_uncut_iff {cs : List Candle} :
    (∀ e, (st.evaluateCandlesLogged cfg p raises clock s cs).2 ≠
      some (.streak e)) ↔ CandlesSafe cfg p raises clock st s cs := by
  induction cs generalizing st s with
  | nil => exact iff_of_true (fun e h => by cases h) trivial
  | cons c cs ih =>
      rw [Service.evaluateCandlesLogged, CandlesSafe, ← evaluateSignal_uncut_iff raises]
      generalize st.evaluateSignalLogged cfg p raises clock s c = a
      obtain ⟨st', e | s'⟩ := a
      · simp
      · dsimp only
        split
        · next hopen => simp [hopen, ih]
        · next hopen => simp [hopen]

theorem evaluateSignals_uncut_iff {signals : List TradeSignal} :
    (∀ e, (st.evaluateSignalsLogged cfg profileOf raises clock candles signals).2 ≠
      some (.streak e)) ↔
      SignalsSafe cfg profileOf raises clock candles st signals := by
  induction signals generalizing st with
  | nil => exact iff_of_true (fun e h => by cases h) trivial
  | cons s rest ih =>
      rw [Service.evaluateSignalsLogged, SignalsSafe, ← evaluateCandles_uncut_iff]
      generalize st.evaluateCandlesLogged cfg
            (profileOf s.symbol s.htfInterval s.ltfInterval) raises clock s
            (newerCandles s candles) = a
      obtain ⟨st', _ | e⟩ := a
      · simp [ih]
      · simp

theorem evaluateGroup_uncut_iff {symbol : String} {ltfInterval : Interval} {fetch : FetchRange}
    {now : ℤ} :
    (∀ e, (st.evaluateGroupLogged cfg profileOf raises clock symbol ltfInterval fetch now).2 ≠
      some (.streak e)) ↔
      GroupSafe cfg profileOf raises clock symbol ltfInterval fetch now st := by
  unfold Service.evaluateGroupLogged GroupSafe
  cases ((st.group symbol ltfInterval).map TradeSignal.createdAt).min? with
  | none => exact iff_of_true (fun e h => by cases h) (fun ts h => by cases h)
  | some oldestTs =>
      simp only [Option.mem_def, Option.some.injEq, forall_eq']
      by_cases hfew : (fetchedClosed fetch ltfInterval oldestTs now).length < 2
      · rw [if_pos hfew]
        exact iff_of_true (fun e h => by cases h) (fun h => absurd hfew (not_lt.mpr h))
      · rw [if_neg hfew, evaluateSignals_uncut_iff]
        exact ⟨fun h _ => h, fun h => h (not_lt.mp hfew)⟩

/-! ## Safe calls are those of the service -/

/-- An error of the service, as the logged calls report it. -/
def asLogged {α : Type} (a : α × Option ServiceError) : α × Option WatchError :=
  (a.1, a.2.map .service)

theorem closeSignalLogged_of_safe (h : CloseSafe cfg st.coordinator s nowMs) :
    st.closeSignalLogged cfg raises s event prev nowMs =
      asLogged (st.closeSignal cfg raises s event prev nowMs) := by
  unfold Service.closeSignalLogged Service.closeSignal
  cases hr : s.realizedRr with
  | none => rfl
  | some r =>
      cases ho : s.outcome with
      | none => rfl
      | some o =>
          have hrec := recordOutcomeLogged_of_safe (h r hr o ho)
          unfold Coordinator.recordOutcomeLogged Coordinator.recordOutcome at hrec
          obtain ⟨hlogged, hquiet⟩ := hrec
          dsimp only [Service.recordOutcomeLogged, Service.recordOutcome, Service.tryStore]
          rw [hlogged]
          generalize (st.coordinator.closeRecord cfg (closedRecord s o r)).applyStreak cfg nowMs = a
            at hquiet ⊢
          obtain ⟨c', e⟩ := a
          dsimp only at hquiet
          rw [hquiet]
          rfl

theorem evaluateSignal_of_safe {c : Candle} (h : CandleSafe cfg p clock st s c) :
    st.evaluateSignalLogged cfg p raises clock s c =
      ((st.evaluateSignal cfg p raises clock s c).1,
        (st.evaluateSignal cfg p raises clock s c).2.mapError .service) := by
  unfold CandleSafe at h
  unfold Service.evaluateSignalLogged Service.evaluateSignal
  generalize stepSignalState s c p c.timestamp = moved at h ⊢
  obtain e | ⟨s', step⟩ := moved
  · rfl
  dsimp only at h ⊢
  cases hterm : step.terminal with
  | false =>
      rw [if_neg Bool.false_ne_true, if_neg Bool.false_ne_true]
      split <;> rfl
  | true =>
      rw [if_pos rfl, if_pos rfl]
      cases hevent : statusToCloseEvent s'.status with
      | none => rfl
      | some event =>
          have hsafe := h hterm (by rw [hevent]; exact Option.some_ne_none event)
          rw [← noteStep_coordinator s s' c step] at hsafe
          simp only [closeSignalLogged_of_safe hsafe]
          generalize Service.closeSignal cfg raises s' event
            (if step.emitTp1 then .tp1Hit else s.status) (clock s'.id)
            (st.noteStep s s' c step) = a
          obtain ⟨st', _ | e⟩ := a <;> rfl

theorem evaluateCandles_of_safe {cs : List Candle}
    (h : CandlesSafe cfg p raises clock st s cs) :
    st.evaluateCandlesLogged cfg p raises clock s cs =
      asLogged (st.evaluateCandles cfg p raises clock s cs) := by
  induction cs generalizing st s with
  | nil => rfl
  | cons c cs ih =>
      obtain ⟨hcandle, hrest⟩ := h
      rw [evaluateSignal_of_safe hcandle] at hrest
      rw [Service.evaluateCandlesLogged, evaluateSignal_of_safe hcandle, Service.evaluateCandles]
      generalize st.evaluateSignal cfg p raises clock s c = a at hrest ⊢
      obtain ⟨st', e | s'⟩ := a
      · rfl
      · dsimp only [Except.mapError] at hrest ⊢
        split
        · next hopen => exact ih (hrest hopen)
        · rfl

theorem evaluateSignals_of_safe {signals : List TradeSignal}
    (h : SignalsSafe cfg profileOf raises clock candles st signals) :
    st.evaluateSignalsLogged cfg profileOf raises clock candles signals =
      asLogged (st.evaluateSignals cfg profileOf raises clock candles signals) := by
  induction signals generalizing st with
  | nil => rfl
  | cons s rest ih =>
      obtain ⟨hcandles, hrest⟩ := h
      rw [evaluateCandles_of_safe hcandles] at hrest
      rw [Service.evaluateSignalsLogged, evaluateCandles_of_safe hcandles, Service.evaluateSignals]
      generalize st.evaluateCandles cfg (profileOf s.symbol s.htfInterval s.ltfInterval) raises
        clock s (newerCandles s candles) = a at hrest ⊢
      obtain ⟨st', _ | e⟩ := a
      · exact ih hrest
      · rfl

/-- A safe group does what the group of the service does. -/
theorem evaluateGroup_of_safe {symbol : String} {ltfInterval : Interval} {fetch : FetchRange}
    {now : ℤ} (h : GroupSafe cfg profileOf raises clock symbol ltfInterval fetch now st) :
    st.evaluateGroupLogged cfg profileOf raises clock symbol ltfInterval fetch now =
      asLogged (st.evaluateGroup cfg profileOf raises clock symbol ltfInterval fetch now) := by
  unfold Service.evaluateGroupLogged Service.evaluateGroup
  cases hmin : ((st.group symbol ltfInterval).map TradeSignal.createdAt).min? with
  | none => rfl
  | some oldestTs =>
      dsimp only
      by_cases hfew : (fetchedClosed fetch ltfInterval oldestTs now).length < 2
      · rw [if_pos hfew, if_pos hfew]
        rfl
      · rw [if_neg hfew, if_neg hfew]
        exact evaluateSignals_of_safe (h oldestTs hmin (not_lt.mp hfew))

/-! ## Settings -/

/-- No history makes `_check_streak` index an empty streak if and only if the limit is positive. -/
theorem never_indexError_iff (cfg : Settings) :
    (∀ (c : Coordinator) (rec : ClosedSignalRecord) (nowMs : ℤ),
      (c.recordOutcomeLogged cfg rec nowMs).2 ≠ some .indexError) ↔
      1 ≤ cfg.maxConsecutiveLosses := by
  constructor
  · intro h
    by_contra hmax
    refine h { sessionDay := 0 } { lateLoss with outcome := .winFull } 0 ?_
    unfold Coordinator.recordOutcomeLogged Coordinator.checkStreakLogged
    exact congrArg Prod.snd (if_neg (fun hlt => hmax hlt))
  · intro hmax c rec nowMs
    unfold Coordinator.recordOutcomeLogged Coordinator.checkStreakLogged consecutiveLosses
    split
    · exact fun h => by cases h
    next hlong =>
    cases hrec : streakRecords (c.closeRecord cfg rec).history.reverse with
    | nil =>
        rw [hrec, List.length_nil] at hlong
        exact absurd hmax hlong
    | cons last older =>
        dsimp only
        split
        · split <;> exact fun h => by cases h
        · exact fun h => by cases h

/-- **Outcome safety**: no index error exactly under a positive limit; and `record_outcome`
    raises nothing, `_close_signal` tells the end and a group goes on to its last candle exactly
    where the records are safe. -/
theorem outcomes_recorded_iff (cfg : Settings)
    (profileOf : String → Interval → Interval → AssetProfile) (raises : ℕ → Bool) :
    ((∀ (c : Coordinator) (rec : ClosedSignalRecord) (nowMs : ℤ),
        (c.recordOutcomeLogged cfg rec nowMs).2 ≠ some .indexError) ↔
      1 ≤ cfg.maxConsecutiveLosses) ∧
    (∀ (c : Coordinator) (rec : ClosedSignalRecord) (nowMs : ℤ),
      (c.recordOutcomeLogged cfg rec nowMs).2 = none ↔ RecordSafe cfg c rec nowMs) ∧
    (∀ (st : Service) (s : TradeSignal) (event : SignalEvent) (prev : SignalStatus) (nowMs : ℤ)
        (r : ℚ) (o : SignalOutcome), s.realizedRr = some r → s.outcome = some o →
      (((st.closeSignalLogged cfg raises s event prev nowMs).2 = none ∧
        (st.closeSignalLogged cfg raises s event prev nowMs).1.events =
          st.events ++ [.updated event prev s.closePrice s]) ↔
        RecordSafe cfg st.coordinator (closedRecord s o r) nowMs)) ∧
    ∀ (st : Service) (clock : SignalId → ℤ) (symbol : String) (ltfInterval : Interval)
        (fetch : FetchRange) (now : ℤ),
      (∀ e, (st.evaluateGroupLogged cfg profileOf raises clock symbol ltfInterval fetch now).2 ≠
        some (.streak e)) ↔
        GroupSafe cfg profileOf raises clock symbol ltfInterval fetch now st :=
  ⟨never_indexError_iff cfg, recordOutcomeLogged_eq_none_iff cfg,
    fun _ _ _ _ _ _ _ hr ho => closeSignalLogged_told_iff hr ho,
    fun _ _ _ _ _ _ => evaluateGroup_uncut_iff⟩

/-- A candle up to the second target. -/
def targetBar : Candle := ⟨7800000, 106, 131, 105, 130, 0⟩

/-- The sample signal after it. -/
def wonSignal : TradeSignal := (advance sampleSignal targetBar sampleProfile 7800000).1

theorem wonSignal_told :
    (Service.closeSignalLogged sampleSettings (fun _ => false) wonSignal .signalTp2Hit .triggered
        8100000 sampleService).2 = none ∧
      (Service.closeSignalLogged sampleSettings (fun _ => false) wonSignal .signalTp2Hit .triggered
        8100000 sampleService).1.events =
          sampleService.events ++ [.updated .signalTp2Hit .triggered wonSignal.closePrice
            wonSignal] :=
  ((outcomes_recorded_iff sampleSettings sampleProfiles (fun _ => false)).2.2.1 sampleService
    wonSignal _ _ _ (180 / 61) .winFull (by decide +kernel) (by decide +kernel)).mpr
      (by decide +kernel)

/-- A limit of zero, as if it switched the breaker off. -/
def noLimit : AppSettings where
  toSettings := { sampleSettings with maxConsecutiveLosses := 0 }

/-- It is accepted; then the first win leaves the watchlist, its group ends there, and no
    listener is told. -/
theorem firstWin_untold :
    noLimit.postInit id = .ok () ∧
      let after := sampleService.evaluateGroupLogged noLimit.toSettings
        (fun _ _ _ => sampleProfile) (fun _ => false) (fun _ => 8400000) "XAUUSD" fiveMin
        (fun _ _ => [targetBar, { targetBar with timestamp := 8100000 }]) 8400000
      after.2 = some (.streak .indexError) ∧ after.1.watchlist = [] ∧ after.1.events = [] :=
  ⟨by decide +kernel, by decide +kernel, by decide +kernel, by decide +kernel⟩

end SignalEngine
