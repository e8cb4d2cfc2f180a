/-
  Circuit breaker: how long a pause after a loss streak lasts.

  Model. A run is a list of calls on one coordinator, `should_emit` with the clock and the
  records its rollover reads. The pause is due until `c + pause_after_streak_h`, a rational
  number of milliseconds; `_paused_until` is an integer.

  Proved: `pause_lasts`: while every call keeps the pause covered, no setup before its end is
  let through, by a step lemma for each call and the invariant rule of a run.
-/
import SignalEngine.Lib.Loop
import SignalEngine.Session.DedupSafety

namespace SignalEngine

open Lib

/-! ## What a streak pauses to -/

/-- The last loss of the streak. -/
def newestLoss (history : List ClosedSignalRecord) : Option ClosedSignalRecord :=
  (streakRecords history.reverse).head?

/-- `c + pause_after_streak_h`. -/
def pauseDue (cfg : Settings) (rec : ClosedSignalRecord) : ℚ :=
  rec.closedAt + cfg.pauseAfterStreakH * msPerHour

/-- `pause_until` for a streak that ends with the record. -/
def pauseEnd (cfg : Settings) (rec : ClosedSignalRecord) : ℤ :=
  rec.closedAt + pyInt (cfg.pauseAfterStreakH * msPerHour)

variable {cfg : Settings} {c : Coordinator} {due : ℚ} {history : List ClosedSignalRecord}
  {newest rec : ClosedSignalRecord} {nowMs : ℤ}

theorem checkStreak_of_newest (hstreak : cfg.maxConsecutiveLosses ≤ consecutiveLosses history)
    (hnewest : newest ∈ newestLoss history) (nowMs : ℤ) :
    checkStreak cfg history nowMs =
      .ok (if nowMs < pauseEnd cfg newest then some (pauseEnd cfg newest) else none) := by
  rw [checkStreak, if_neg (not_lt.mpr hstreak)]
  unfold newestLoss at hnewest
  cases hrec : streakRecords history.reverse with
  | nil => rw [hrec] at hnewest; cases hnewest
  | cons last older =>
      rw [hrec] at hnewest
      cases hnewest
      rfl

theorem newestLoss_isSome (h : 1 ≤ consecutiveLosses history) :
    ∃ newest, newest ∈ newestLoss history := by
  unfold consecutiveLosses at h
  unfold newestLoss
  cases hrec : streakRecords history.reverse with
  | nil => rw [hrec] at h; cases h
  | cons newest older => exact ⟨newest, rfl⟩

theorem newestLoss_eq_none (h : consecutiveLosses history = 0) : newestLoss history = none := by
  rw [newestLoss, List.eq_nil_of_length_eq_zero h, List.head?_nil]

/-- `_check_streak` raises on a limit below one without a loss only. -/
theorem checkStreak_ok_iff :
    (∃ paused, checkStreak cfg history nowMs = .ok paused) ↔
      (consecutiveLosses history : ℤ) < cfg.maxConsecutiveLosses ∨
        1 ≤ consecutiveLosses history := by
  constructor
  · rintro ⟨paused, h⟩
    by_contra hnot
    push Not at hnot
    have hnone := newestLoss_eq_none (Nat.lt_one_iff.mp hnot.2)
    rw [checkStreak, if_neg (not_lt.mpr hnot.1)] at h
    rw [newestLoss, List.head?_eq_none_iff] at hnone
    rw [hnone] at h
    cases h
  · rintro (hlt | hone)
    · exact ⟨none, if_pos hlt⟩
    · by_cases hlt : (consecutiveLosses history : ℤ) < cfg.maxConsecutiveLosses
      · exact ⟨none, if_pos hlt⟩
      · obtain ⟨newest, hnewest⟩ := newestLoss_isSome hone
        exact ⟨_, checkStreak_of_newest (not_lt.mp hlt) hnewest nowMs⟩

/-- The streak at the end of the history pauses to `due` at least, and is not over. -/
def Covers (cfg : Settings) (due : ℚ) (history : List ClosedSignalRecord) (nowMs : ℤ) : Prop :=
  cfg.maxConsecutiveLosses ≤ consecutiveLosses history ∧
    ∃ newest ∈ newestLoss history,
      due ≤ pauseEnd cfg newest ∧ nowMs < pauseEnd cfg newest ∧ pauseEnd cfg newest ≠ 0

instance (cfg : Settings) (due : ℚ) (history : List ClosedSignalRecord) (nowMs : ℤ) :
    Decidable (Covers cfg due history nowMs) :=
  inferInstanceAs (Decidable (_ ∧ ∃ newest ∈ newestLoss history, _))

/-- The breaker is set, and not to an end before `due`. -/
def PausedTo (due : ℚ) (c : Coordinator) : Prop :=
  ∃ until_ ∈ c.pausedUntil, due ≤ until_ ∧ until_ ≠ 0

theorem Covers.checkStreak (h : Covers cfg due history nowMs) :
    ∃ until_ : ℤ, checkStreak cfg history nowMs = .ok (some until_) ∧ due ≤ until_ ∧
      until_ ≠ 0 := by
  obtain ⟨hstreak, newest, hnewest, hdue, hnow, hne⟩ := h
  refine ⟨pauseEnd cfg newest, ?_, hdue, hne⟩
  rw [checkStreak_of_newest hstreak hnewest, if_pos hnow]

/-! ## Calls -/

inductive BreakerCall where
  | recordOutcome (rec : ClosedSignalRecord) (nowMs : ℤ)
  | shouldEmit (x : Setup) (currentTs : ℤ) (load : ℤ → List ClosedSignalRecord) (nowMs : ℤ)

def Coordinator.runCall (cfg : Settings) (c : Coordinator) : BreakerCall → Coordinator
  | .recordOutcome rec nowMs => (c.recordOutcome cfg rec nowMs).1
  | .shouldEmit x currentTs load nowMs => (c.shouldEmit cfg x currentTs load nowMs).1

def Coordinator.runCalls (cfg : Settings) (c : Coordinator) (calls : List BreakerCall) :
    Coordinator :=
  calls.foldl (Coordinator.runCall cfg) c

/-- The history `_check_streak` reads in the call, if it runs, covers the pause. -/
def KeepsPause (cfg : Settings) (due : ℚ) (c : Coordinator) : BreakerCall → Prop
  | .recordOutcome rec nowMs => Covers cfg due (pushHistory c.history rec) nowMs
  | .shouldEmit _ currentTs load nowMs =>
      toDate currentTs = c.sessionDay ∨
        Covers cfg due ((load (toDate currentTs)).foldl pushHistory []) nowMs

instance (cfg : Settings) (due : ℚ) (c : Coordinator) :
    (call : BreakerCall) → Decidable (KeepsPause cfg due c call)
  | .recordOutcome rec nowMs =>
      inferInstanceAs (Decidable (Covers cfg due (pushHistory c.history rec) nowMs))
  | .shouldEmit _ currentTs load nowMs =>
      inferInstanceAs (Decidable (toDate currentTs = c.sessionDay ∨
        Covers cfg due ((load (toDate currentTs)).foldl pushHistory []) nowMs))

/-- Every call of the run keeps the pause. -/
def PauseKept (cfg : Settings) (due : ℚ) (c : Coordinator) (calls : List BreakerCall) : Prop :=
  ∀ n, (hn : n < calls.length) → KeepsPause cfg due (c.runCalls cfg (calls.take n)) calls[n]

instance (cfg : Settings) (due : ℚ) (c : Coordinator) (calls : List BreakerCall) :
    Decidable (PauseKept cfg due c calls) :=
  inferInstanceAs (Decidable (∀ n, (hn : n < calls.length) →
    KeepsPause cfg due (c.runCalls cfg (calls.take n)) calls[n]))

/-! ## What each call leaves of the pause -/

@[simp] theorem recordOutcome_history (cfg : Settings) (c : Coordinator)
    (rec : ClosedSignalRecord) (nowMs : ℤ) :
    (c.recordOutcome cfg rec nowMs).1.history = pushHistory c.history rec := by
  unfold Coordinator.recordOutcome Coordinator.applyStreak
  split <;> rw [Coordinator.closeRecord]

theorem pausedTo_recordOutcome (h : Covers cfg due (pushHistory c.history rec) nowMs) :
    PausedTo due (c.recordOutcome cfg rec nowMs).1 := by
  obtain ⟨until_, hcheck, hdue, hne⟩ := h.checkStreak
  refine ⟨until_, ?_, hdue, hne⟩
  have hhistory : (c.closeRecord cfg rec).history = pushHistory c.history rec := by
    rw [Coordinator.closeRecord]
  rw [Coordinator.recordOutcome, Coordinator.applyStreak, hhistory, hcheck]
  rfl

theorem pausedTo_loadSession {records : List ClosedSignalRecord}
    (h : Covers cfg due (records.foldl pushHistory c.history) nowMs) (hrecords : records ≠ []) :
    PausedTo due (c.loadSession cfg records nowMs).1 ∧
      (c.loadSession cfg records nowMs).2 = none := by
  obtain ⟨until_, hcheck, hdue, hne⟩ := h.checkStreak
  rw [Coordinator.loadSession, if_neg hrecords]
  dsimp only
  rw [hcheck]
  exact ⟨⟨until_, rfl, hdue, hne⟩, rfl⟩

/-- A rollover forgets the pause; the records of the new day have to bring it back. -/
theorem PausedTo.maybeRollover (h : PausedTo due c) {now : ℤ} {load : ℤ → List ClosedSignalRecord}
    (hkeeps : toDate now = c.sessionDay ∨
      Covers cfg due ((load (toDate now)).foldl pushHistory []) nowMs) :
    PausedTo due (c.maybeRollover cfg now load nowMs).1 ∧
      (c.maybeRollover cfg now load nowMs).2 = none := by
  unfold Coordinator.maybeRollover
  split
  · exact ⟨h, rfl⟩
  · next hday =>
      have hcovers := hkeeps.resolve_left hday
      refine pausedTo_loadSession hcovers ?_
      intro hnil
      rw [hnil] at hcovers
      obtain ⟨_, newest, hnewest, _⟩ := hcovers
      cases hnewest

/-- A covered `should_emit` before the end answers `PAUSED`, and stays paused. -/
theorem PausedTo.shouldEmit (h : PausedTo due c) {x : Setup} {now : ℤ}
    {load : ℤ → List ClosedSignalRecord}
    (hkeeps : KeepsPause cfg due c (.shouldEmit x now load nowMs)) :
    PausedTo due (c.shouldEmit cfg x now load nowMs).1 ∧
      ((now : ℚ) < due →
        ∃ mins, (c.shouldEmit cfg x now load nowMs).2 = .ok (some (.paused mins))) := by
  obtain ⟨hpaused, hnone⟩ := h.maybeRollover hkeeps
  unfold Coordinator.shouldEmit
  generalize c.maybeRollover cfg now load nowMs = r at hpaused hnone ⊢
  obtain ⟨c', e⟩ := r
  dsimp only at hpaused hnone ⊢
  subst hnone
  obtain ⟨until_, huntil, hdue, hne⟩ := hpaused
  constructor
  · refine ⟨until_, ?_, hdue, hne⟩
    dsimp only
    split
    · exact huntil
    · split <;> exact huntil
  · intro hnow
    have hlt : now < until_ := by exact_mod_cast hnow.trans_le hdue
    refine ⟨(until_ - now) / 60000, ?_⟩
    simp [Coordinator.pausedMinutes, Option.mem_def.mp huntil, hne, hlt]

theorem PausedTo.runCall (h : PausedTo due c) {call : BreakerCall}
    (hkeeps : KeepsPause cfg due c call) : PausedTo due (c.runCall cfg call) := by
  cases call with
  | recordOutcome rec nowMs => exact pausedTo_recordOutcome hkeeps
  | shouldEmit x currentTs load nowMs => exact (h.shouldEmit hkeeps).1

/-! ## Runs -/

/-- **A pause lasts**: once a record completes a streak whose pause is not over, no `should_emit`
    before the end of the pause lets a setup through, in every run whose calls all keep the
    pause. -/
theorem pause_lasts {calls : List BreakerCall}
    (hstreak : cfg.maxConsecutiveLosses ≤
      consecutiveLosses (c.recordOutcome cfg rec nowMs).1.history)
    (hnewest : newest ∈ newestLoss (c.recordOutcome cfg rec nowMs).1.history)
    (hwhole : pauseDue cfg newest ≤ pauseEnd cfg newest) (hclock : nowMs < pauseEnd cfg newest)
    (hset : pauseEnd cfg newest ≠ 0)
    (hkept : PauseKept cfg (pauseDue cfg newest) (c.recordOutcome cfg rec nowMs).1 calls)
    {n : ℕ} (hn : n < calls.length) {x : Setup} {currentTs now : ℤ}
    {load : ℤ → List ClosedSignalRecord} (hcall : calls[n] = .shouldEmit x currentTs load now)
    (hbefore : (currentTs : ℚ) < pauseDue cfg newest) :
    ∃ mins, (((c.recordOutcome cfg rec nowMs).1.runCalls cfg (calls.take n)).shouldEmit cfg x
      currentTs load now).2 = .ok (some (.paused mins)) := by
  rw [recordOutcome_history] at hstreak hnewest
  have hstart : PausedTo (pauseDue cfg newest) (c.recordOutcome cfg rec nowMs).1 :=
    pausedTo_recordOutcome ⟨hstreak, newest, hnewest, hwhole, hclock, hset⟩
  have hpaused : PausedTo (pauseDue cfg newest)
      ((c.recordOutcome cfg rec nowMs).1.runCalls cfg (calls.take n)) :=
    foldl_take_invariant (PausedTo (pauseDue cfg newest)) (fun _ _ h hkeeps => h.runCall hkeeps)
      hstart hkept n
  have hkeeps := hkept n hn
  rw [hcall] at hkeeps
  exact (hpaused.shouldEmit hkeeps).2 hbefore

/-- A loss closed at 23:00, with the breaker set to trip at the first loss. -/
def lateLoss : ClosedSignalRecord where
  signalId := ⟨"XAUUSD", oneHour, fiveMin, 79200000, .long⟩
  symbol := "XAUUSD"
  direction := .long
  outcome := .loss
  realizedRr := -1
  closedAt := 82800000
  htfInterval := oneHour
  ltfInterval := fiveMin

def tripAtOnce : Settings := { sampleSettings with maxConsecutiveLosses := 1 }

/-- Half an hour later the same day, with a void record in between. -/
def sameEvening : List BreakerCall :=
  [.recordOutcome { lateLoss with outcome := .expired, closedAt := 83100000 } 83100000,
    .shouldEmit sampleSetup 84600000 (fun _ => []) 84600000]

theorem sameEvening_paused :
    ∃ mins, (((Coordinator.recordOutcome tripAtOnce { sessionDay := 0 } lateLoss
      82800000).1.runCalls tripAtOnce (sameEvening.take 1)).shouldEmit tripAtOnce sampleSetup
        84600000 (fun _ => []) 84600000).2 = .ok (some (.paused mins)) :=
  pause_lasts (by decide +kernel)
    (show lateLoss ∈ newestLoss (Coordinator.recordOutcome tripAtOnce { sessionDay := 0 } lateLoss
      82800000).1.history by decide +kernel)
    (by decide +kernel) (by decide +kernel) (by decide +kernel) (by decide +kernel) (by decide) rfl
    (by decide +kernel)

/-- A setup of the next day, five minutes after midnight. -/
def morningSetup : Setup :=
  { sampleSetup with rejection := { sampleRejection with timestamp := 86400000 } }

/-- It is let through: the rollover has dropped the pause, and the new day has no records. -/
theorem pause_lost_at_midnight :
    ¬ ∀ (cfg : Settings) (c : Coordinator) (rec newest : ClosedSignalRecord) (nowMs : ℤ)
        (calls : List BreakerCall) (n : ℕ) (hn : n < calls.length) (x : Setup)
        (currentTs now : ℤ) (load : ℤ → List ClosedSignalRecord),
      cfg.maxConsecutiveLosses ≤ consecutiveLosses (c.recordOutcome cfg rec nowMs).1.history →
      newest ∈ newestLoss (c.recordOutcome cfg rec nowMs).1.history →
      (∀ r time, .recordOutcome r time ∈ calls → r.outcome.isWin = false) →
      calls[n] = .shouldEmit x currentTs load now →
      (currentTs : ℚ) < pauseDue cfg newest →
      (((c.recordOutcome cfg rec nowMs).1.runCalls cfg (calls.take n)).shouldEmit cfg x currentTs
        load now).2 ≠ .ok none := by
  intro h
  have hrefused := h tripAtOnce { sessionDay := 0 } lateLoss lateLoss 82800000
    [.shouldEmit morningSetup 86700000 (fun _ => []) 86700000] 0 (by decide) morningSetup 86700000
    86700000 (fun _ => []) (by decide +kernel) (by decide +kernel) (by simp) rfl
    (by decide +kernel)
  revert hrefused
  decide +kernel

end SignalEngine
