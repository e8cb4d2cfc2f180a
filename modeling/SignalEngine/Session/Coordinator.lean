/-
  Coordinator: the in-memory half of `app/session/coordinator.py`.

  Model. `nowMs` is the wall clock `_check_streak` reads, `load` the records `_load_session`
  finds for a day; both are inputs of a call. `_check_streak` indexes the list of losses and
  raises on an empty one; a call that raises keeps the state it had reached. What
  `record_outcome` writes to the stores is modelled with the service.

  Proved: `shouldEmit_state`, what a call of `should_emit` leaves behind, and
  `shouldEmit_allowed`, what an allowed setup has passed.
-/
import SignalEngine.Config.Settings
import SignalEngine.Domain.Dedup

namespace SignalEngine

open Lib

structure Coordinator where
  sessionDay : ℤ
  state : DedupState := {}
  history : List ClosedSignalRecord := []
  pausedUntil : Option ℤ := none

/-- `list index out of range` in `_check_streak`. -/
inductive CoordinatorError where
  | indexError
  deriving DecidableEq, Repr

/-- `_to_date`: the UTC day of a timestamp. -/
def toDate (tsMs : ℤ) : ℤ := tsMs / 86400000

/-- `deque(maxlen=500).append`. -/
def pushHistory (history : List ClosedSignalRecord) (rec : ClosedSignalRecord) :
    List ClosedSignalRecord :=
  (history ++ [rec]).drop (history.length + 1 - 500)

/-! ## Circuit breaker -/

/-- The losses since the last win, newest first. -/
def streakRecords : List ClosedSignalRecord → List ClosedSignalRecord
  | [] => []
  | rec :: older =>
      if rec.outcome = .loss then rec :: streakRecords older
      else if rec.outcome.isWin then []
      else streakRecords older

def consecutiveLosses (history : List ClosedSignalRecord) : ℕ :=
  (streakRecords history.reverse).length

/-- The value `_check_streak` gives `_paused_until`. -/
def checkStreak (cfg : Settings) (history : List ClosedSignalRecord) (nowMs : ℤ) :
    Except CoordinatorError (Option ℤ) :=
  if (consecutiveLosses history : ℤ) < cfg.maxConsecutiveLosses then .ok none
  else
    match streakRecords history.reverse with
    | [] => .error .indexError
    | last :: _ =>
        let pauseUntil := last.closedAt + pyInt (cfg.pauseAfterStreakH * msPerHour)
        .ok (if nowMs < pauseUntil then some pauseUntil else none)

/-! ## Start and rollover -/

/-- `_load_session`; without records it leaves the streak alone. -/
def Coordinator.loadSession (cfg : Settings) (c : Coordinator)
    (records : List ClosedSignalRecord) (nowMs : ℤ) : Coordinator × Option CoordinatorError :=
  if records = [] then (c, none)
  else
    let history := records.foldl pushHistory c.history
    match checkStreak cfg history nowMs with
    | .error e => ({ c with history := history }, some e)
    | .ok paused => ({ c with history := history, pausedUntil := paused }, none)

/-- `__init__`: `_load_session`, then `_load_dedup_state` from the closed signals. -/
def Coordinator.start (cfg : Settings) (nowMs : ℤ) (records closed : List ClosedSignalRecord) :
    Coordinator × Option CoordinatorError :=
  match Coordinator.loadSession cfg { sessionDay := toDate nowMs } records nowMs with
  | (c, some e) => (c, some e)
  | (c, none) => ({ c with state := c.state.replay closed cfg.maxSignalCountPerZone }, none)

/-- `_maybe_rollover`. -/
def Coordinator.maybeRollover (cfg : Settings) (c : Coordinator) (now : ℤ)
    (load : ℤ → List ClosedSignalRecord) (nowMs : ℤ) :
    Coordinator × Option CoordinatorError :=
  if toDate now = c.sessionDay then (c, none)
  else
    Coordinator.loadSession cfg
      { c with
        sessionDay := toDate now
        state :=
          { deadZones := c.state.deadZones
            zoneSignalCounts := c.state.zoneSignalCounts
            openDir := c.state.openDir
            seenRej := c.state.seenRej }
        history := []
        pausedUntil := none }
      (load (toDate now)) nowMs

/-- `_release_expired_directions`. -/
def DedupState.releaseExpiredDirections (d : DedupState) (now : ℤ) : DedupState :=
  { d with
    openDir := d.openDir.filter (fun e => decide (∀ ts, e.2 = some ts → ¬ ts ≤ now)) }

/-! ## Public operations -/

/-- The minutes of `PAUSED after loss streak`, while the breaker holds. -/
def Coordinator.pausedMinutes (c : Coordinator) (now : ℤ) : Option ℤ :=
  match c.pausedUntil with
  | some until_ =>
      if until_ ≠ 0 ∧ now < until_ then some ((until_ - now) / 60000) else none
  | none => none

/-- `SessionCoordinator.should_emit`; `.ok none` is `True`. -/
def Coordinator.shouldEmit (cfg : Settings) (c : Coordinator) (x : Setup) (currentTs : ℤ)
    (load : ℤ → List ClosedSignalRecord) (nowMs : ℤ) :
    Coordinator × Except CoordinatorError (Option BlockReason) :=
  match c.maybeRollover cfg currentTs load nowMs with
  | (c, some e) => (c, .error e)
  | (c, none) =>
      let c := { c with state := c.state.releaseExpiredDirections currentTs }
      match c.pausedMinutes currentTs with
      | some mins => (c, .ok (some (.paused mins)))
      | none =>
          if c.state.isDirectionOpen (x.dirKey cfg.multiTfIndependentPositions) then
            (c, .ok (some (.positionOpen x.symbol x.direction)))
          else
            (c, .ok (SignalEngine.shouldEmit c.state x currentTs
              (rejectionStaleHours x.ltfInterval) cfg.maxSignalCountPerZone))

/-- `register_signal`, with the attempt it returns. -/
def Coordinator.registerSignal (cfg : Settings) (c : Coordinator) (x : Setup) :
    Coordinator × ℕ :=
  let r := c.state.register x cfg.multiTfIndependentPositions cfg.maxSignalCountPerZone
  ({ c with state := r.1 }, r.2)

/-- The lock `record_outcome` releases. -/
def recordKey (cfg : Settings) (rec : ClosedSignalRecord) : DirKey :=
  dirKey cfg.multiTfIndependentPositions rec.symbol rec.direction rec.htfInterval rec.ltfInterval

/-- `record_outcome` up to its writes: the lock and the history. -/
def Coordinator.closeRecord (cfg : Settings) (c : Coordinator) (rec : ClosedSignalRecord) :
    Coordinator :=
  { c with
    state := c.state.releaseDirection (recordKey cfg rec)
    history := pushHistory c.history rec }

/-- `_check_streak` after its writes. -/
def Coordinator.applyStreak (cfg : Settings) (c : Coordinator) (nowMs : ℤ) :
    Coordinator × Option CoordinatorError :=
  match checkStreak cfg c.history nowMs with
  | .error e => (c, some e)
  | .ok paused => ({ c with pausedUntil := paused }, none)

/-- `record_outcome`, in memory. -/
def Coordinator.recordOutcome (cfg : Settings) (c : Coordinator) (rec : ClosedSignalRecord)
    (nowMs : ℤ) : Coordinator × Option CoordinatorError :=
  (c.closeRecord cfg rec).applyStreak cfg nowMs

/-! ## What a call leaves behind -/

variable {cfg : Settings} {c : Coordinator} {x : Setup} {now nowMs : ℤ}
  {load : ℤ → List ClosedSignalRecord}

@[simp] theorem loadSession_state (cfg : Settings) (c : Coordinator)
    (records : List ClosedSignalRecord) (nowMs : ℤ) :
    (c.loadSession cfg records nowMs).1.state = c.state := by
  unfold Coordinator.loadSession
  split
  · rfl
  · dsimp only
    split <;> rfl

/-- A new coordinator holds no lock. -/
theorem start_openDir (cfg : Settings) (nowMs : ℤ) (records closed : List ClosedSignalRecord) :
    (Coordinator.start cfg nowMs records closed).1.state.openDir = [] := by
  have hload := loadSession_state cfg { sessionDay := toDate nowMs } records nowMs
  unfold Coordinator.start
  generalize Coordinator.loadSession cfg { sessionDay := toDate nowMs } records nowMs = r
    at hload ⊢
  obtain ⟨c, _ | e⟩ := r
  · dsimp only at hload ⊢
    rw [replay_openDir, hload]
  · dsimp only at hload ⊢
    rw [hload]

theorem registerSignal_state (cfg : Settings) (c : Coordinator) (x : Setup) :
    (c.registerSignal cfg x).1.state =
      (c.state.register x cfg.multiTfIndependentPositions cfg.maxSignalCountPerZone).1 := rfl

@[simp] theorem maybeRollover_state :
    (c.maybeRollover cfg now load nowMs).1.state = c.state := by
  unfold Coordinator.maybeRollover
  split
  · rfl
  · rw [loadSession_state]

@[simp] theorem applyStreak_state (cfg : Settings) (c : Coordinator) (nowMs : ℤ) :
    (c.applyStreak cfg nowMs).1.state = c.state := by
  unfold Coordinator.applyStreak
  split <;> rfl

/-- Locks without a release time outlive `_release_expired_directions`. -/
theorem releaseExpiredDirections_of_none {d : DedupState} (h : ∀ e ∈ d.openDir, e.2 = none) :
    d.releaseExpiredDirections now = d := by
  have hall : d.openDir.filter (fun e => decide (∀ ts, e.2 = some ts → ¬ ts ≤ now)) =
      d.openDir := by
    rw [List.filter_eq_self]
    intro e he
    simp [h e he]
  rw [DedupState.releaseExpiredDirections, hall]

/-- A call of `should_emit`, whatever it answers, leaves the dedup state alone but for locks
    that have run out. -/
theorem shouldEmit_state (cfg : Settings) (c : Coordinator) (x : Setup) (now : ℤ)
    (load : ℤ → List ClosedSignalRecord) (nowMs : ℤ) :
    (c.shouldEmit cfg x now load nowMs).1.state = c.state.releaseExpiredDirections now ∨
      (c.shouldEmit cfg x now load nowMs).1.state = c.state := by
  have hroll : (c.maybeRollover cfg now load nowMs).1.state = c.state := maybeRollover_state
  unfold Coordinator.shouldEmit
  generalize c.maybeRollover cfg now load nowMs = r at hroll ⊢
  obtain ⟨c', e⟩ := r
  cases e with
  | some e => exact Or.inr hroll
  | none =>
      refine Or.inl ?_
      dsimp only at hroll ⊢
      rw [← hroll]
      split
      · rfl
      · split <;> rfl

theorem shouldEmit_state_of_none (cfg : Settings) (h : ∀ e ∈ c.state.openDir, e.2 = none)
    (x : Setup) (now : ℤ) (load : ℤ → List ClosedSignalRecord) (nowMs : ℤ) :
    (c.shouldEmit cfg x now load nowMs).1.state = c.state := by
  rcases shouldEmit_state cfg c x now load nowMs with heq | heq
  · rw [heq, releaseExpiredDirections_of_none h]
  · exact heq

/-- An allowed setup is below its zone's limit, its rejection is new and its lock is free. -/
theorem shouldEmit_allowed (cfg : Settings) (c : Coordinator) (x : Setup) (now : ℤ)
    (load : ℤ → List ClosedSignalRecord) (nowMs : ℤ)
    (hall : (c.shouldEmit cfg x now load nowMs).2 = .ok none) :
    let d := (c.shouldEmit cfg x now load nowMs).1.state
    d.zoneSignalCounts x.zoneKey < cfg.maxSignalCountPerZone ∧ x.rejKey ∉ d.seenRej ∧
      x.dirKey cfg.multiTfIndependentPositions ∉ d.openKeys := by
  unfold Coordinator.shouldEmit at hall ⊢
  generalize c.maybeRollover cfg now load nowMs = r at hall ⊢
  obtain ⟨c', e⟩ := r
  cases e with
  | some e => cases hall
  | none =>
      dsimp only at hall ⊢
      split at hall
      · cases hall
      split at hall
      · cases hall
      next hopen =>
      rw [if_neg hopen]
      dsimp only at hall ⊢
      simp only [Except.ok.injEq] at hall
      have hrules := shouldEmit_eq_none hall
      refine ⟨hrules.1, hrules.2, fun hmem => hopen ?_⟩
      exact decide_eq_true hmem

end SignalEngine
