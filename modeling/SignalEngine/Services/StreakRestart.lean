/-
  Streak restart: the session figures of a coordinator built anew within its own day.

  Model. A `RunningSession` is the coordinator with what its records have left on disk, the
  tables and the JSON of the day. The running instance reads the records in the order they
  came, the new one in the order of `closed_at`.

  Proved: `streakKept_iff`: the new coordinator has the same streak, R and pause exactly when
  the two orders do no harm (`OrderHarmless`). The streak of either order is a count over the
  numbered records (`consecutiveLosses_eq_countP`), so only the losses that one order puts
  behind every win and the other does not can tell them apart.
-/
import SignalEngine.Lib.Sorted
import SignalEngine.Services.Restart
import SignalEngine.Session.CircuitBreaker

namespace SignalEngine

open Lib

/-! ## A session and its restart -/

/-- `CLOSED_OUTCOMES`. -/
def SignalOutcome.isClosed (o : SignalOutcome) : Bool := o.isWin || decide (o = .loss)

/-- `session_r`. -/
def sessionR (history : List ClosedSignalRecord) : ℚ :=
  ((history.filter (fun rec => rec.outcome.isClosed)).map ClosedSignalRecord.realizedRr).sum

structure RunningSession where
  coordinator : Coordinator
  tables : Tables
  json : List ClosedSignalRecord

/-- `record_outcome` with its writes. -/
def RunningSession.recordOutcome (cfg : Settings) (s : RunningSession)
    (call : ClosedSignalRecord × ℤ) : RunningSession where
  coordinator := (s.coordinator.recordOutcome cfg call.1 call.2).1
  tables := s.tables.insertClosed call.1 s.coordinator.sessionDay
  json := s.json ++ [call.1]

def RunningSession.recordAll (cfg : Settings) (s : RunningSession)
    (calls : List (ClosedSignalRecord × ℤ)) : RunningSession :=
  calls.foldl (RunningSession.recordOutcome cfg) s

/-- A `SessionCoordinator` built from the database the session has written. -/
def RunningSession.rebuild (cfg : Settings) (s : RunningSession) (nowMs : ℤ) :
    Coordinator × Option CoordinatorError :=
  Coordinator.start cfg nowMs (s.tables.sessionRecords s.json (toDate nowMs))
    s.tables.loadClosedForDedup

/-- The session day has just begun. -/
structure FreshSession (s : RunningSession) : Prop where
  history_eq : s.coordinator.history = []
  paused_eq : s.coordinator.pausedUntil = none
  rows_none : ∀ r ∈ s.tables.closedSignals, r.sessionDay ≠ s.coordinator.sessionDay
  json_eq : s.json = []

/-- No record meets an id that is in the table, so `INSERT OR IGNORE` stores each. -/
structure EachStored (s : RunningSession) (recs : List ClosedSignalRecord) : Prop where
  nodup : (recs.map ClosedSignalRecord.signalId).Nodup
  fresh : ∀ rec ∈ recs, rec.signalId ∉ s.tables.closedIds

/-- The restart succeeds, with the streak, the R and the pause of the running coordinator. -/
structure StreakKept (cfg : Settings) (s : RunningSession) (nowMs : ℤ) : Prop where
  succeeds : (s.rebuild cfg nowMs).2 = none
  losses_eq : consecutiveLosses (s.rebuild cfg nowMs).1.history =
    consecutiveLosses s.coordinator.history
  sessionR_eq : sessionR (s.rebuild cfg nowMs).1.history = sessionR s.coordinator.history
  paused_eq : (s.rebuild cfg nowMs).1.pausedUntil = s.coordinator.pausedUntil

/-! ## Two orders of the records -/

/-- In the order of arrival. -/
def arrivedBefore (q p : ClosedSignalRecord × ℕ) : Bool := decide (q.2 < p.2)

/-- In the order of closing, and of arrival at equal times. -/
def closedBefore (q p : ClosedSignalRecord × ℕ) : Bool :=
  decide (q.1.closedAt < p.1.closedAt ∨ q.1.closedAt = p.1.closedAt ∧ q.2 < p.2)

/-- A loss with every win of the numbered records before it. -/
def lossAfterWins (before : ClosedSignalRecord × ℕ → ClosedSignalRecord × ℕ → Bool)
    (numbered : List (ClosedSignalRecord × ℕ)) (p : ClosedSignalRecord × ℕ) : Bool :=
  decide (p.1.outcome = .loss) && numbered.all (fun q => !q.1.outcome.isWin || before q p)

/-- Of the records in the order they came: as many losses closed after every win but came before
    one, as came after every win but closed before one; and once the streak reaches the limit,
    its last loss is the last to have closed, or no loss pauses any more. -/
structure OrderHarmless (cfg : Settings) (recs : List ClosedSignalRecord) (nowMs : ℤ) : Prop where
  moved_eq :
    recs.zipIdx.countP (fun p => lossAfterWins closedBefore recs.zipIdx p &&
        !lossAfterWins arrivedBefore recs.zipIdx p) =
      recs.zipIdx.countP (fun p => lossAfterWins arrivedBefore recs.zipIdx p &&
        !lossAfterWins closedBefore recs.zipIdx p)
  newest_last : recs ≠ [] → cfg.maxConsecutiveLosses ≤ consecutiveLosses recs →
    ∃ newest ∈ newestLoss recs,
      (∀ rec ∈ recs, rec.outcome = .loss → rec.closedAt ≤ newest.closedAt) ∨
        ∀ rec ∈ recs, rec.outcome = .loss → pauseEnd cfg rec ≤ nowMs

variable {cfg : Settings} {s : RunningSession} {recs history : List ClosedSignalRecord}
  {rec newest : ClosedSignalRecord} {calls : List (ClosedSignalRecord × ℤ)} {nowMs : ℤ}

/-! ## The streak as a count -/

theorem consecutiveLosses_loss (history : List ClosedSignalRecord) (h : rec.outcome = .loss) :
    consecutiveLosses (history ++ [rec]) = consecutiveLosses history + 1 := by
  rw [consecutiveLosses, List.reverse_concat, streakRecords, if_pos h]
  rfl

theorem consecutiveLosses_win (history : List ClosedSignalRecord) (h : rec.outcome.isWin = true) :
    consecutiveLosses (history ++ [rec]) = 0 := by
  have hloss : rec.outcome ≠ .loss := by
    intro hloss
    rw [hloss] at h
    cases h
  rw [consecutiveLosses, List.reverse_concat, streakRecords, if_neg hloss, if_pos h]
  rfl

theorem consecutiveLosses_void (history : List ClosedSignalRecord) (hloss : rec.outcome ≠ .loss)
    (hwin : rec.outcome.isWin = false) :
    consecutiveLosses (history ++ [rec]) = consecutiveLosses history := by
  rw [consecutiveLosses, List.reverse_concat, streakRecords, if_neg hloss, hwin]
  rfl

variable {before : ClosedSignalRecord × ℕ → ClosedSignalRecord × ℕ → Bool}
  {numbered : List (ClosedSignalRecord × ℕ)} {p q : ClosedSignalRecord × ℕ}

theorem lossAfterWins_append_win (hq : q.1.outcome.isWin = true) :
    lossAfterWins before (numbered ++ [q]) p = (lossAfterWins before numbered p && before q p) := by
  simp [lossAfterWins, hq, Bool.and_assoc]

theorem lossAfterWins_append_other (hq : q.1.outcome.isWin = false) :
    lossAfterWins before (numbered ++ [q]) p = lossAfterWins before numbered p := by
  simp [lossAfterWins, hq]

/-- The streak of a list in the order `before` is the number of losses after every win, by
    induction on the last record. -/
theorem consecutiveLosses_eq_countP
    (hsorted : numbered.Pairwise (fun q p => before q p = true ∧ before p q = false)) :
    consecutiveLosses (numbered.map Prod.fst) =
      numbered.countP (lossAfterWins before numbered) := by
  induction numbered using List.reverseRecOn with
  | nil => rfl
  | append_singleton numbered p ih =>
      obtain ⟨hnumbered, -, hlast⟩ := List.pairwise_append.mp hsorted
      have hbefore : ∀ q ∈ numbered, before q p = true ∧ before p q = false := fun q hq =>
        hlast q hq p (List.mem_singleton.mpr rfl)
      rw [List.map_append, List.map_singleton, List.countP_append, List.countP_singleton]
      by_cases hloss : p.1.outcome = .loss
      · have hwin : p.1.outcome.isWin = false := by rw [hloss]; rfl
        have hp : lossAfterWins before numbered p = true := by
          simp only [lossAfterWins, hloss, decide_true, Bool.true_and, List.all_eq_true]
          intro q hq
          rw [(hbefore q hq).1, Bool.or_true]
        rw [consecutiveLosses_loss _ hloss, ih hnumbered, lossAfterWins_append_other hwin, hp,
          if_pos rfl]
        congr 1
        refine List.countP_congr fun q _ => ?_
        rw [lossAfterWins_append_other hwin]
      · have hp : lossAfterWins before (numbered ++ [p]) p = false := by
          simp [lossAfterWins, hloss]
        rw [hp]
        cases hwin : p.1.outcome.isWin with
        | true =>
            rw [consecutiveLosses_win _ hwin, eq_comm, Nat.add_eq_zero_iff, List.countP_eq_zero]
            refine ⟨fun q hq => ?_, rfl⟩
            rw [lossAfterWins_append_win hwin, (hbefore q hq).2, Bool.and_false]
            exact Bool.false_ne_true
        | false =>
            rw [consecutiveLosses_void _ hloss hwin, ih hnumbered]
            refine List.countP_congr fun q _ => ?_
            rw [lossAfterWins_append_other hwin]

/-- The count does not depend on the order the numbered records are listed in. -/
theorem countP_lossAfterWins_perm {numbered' : List (ClosedSignalRecord × ℕ)}
    (h : numbered'.Perm numbered) :
    numbered'.countP (lossAfterWins before numbered') =
      numbered.countP (lossAfterWins before numbered) := by
  rw [h.countP_eq]
  refine List.countP_congr fun p _ => ?_
  rw [lossAfterWins, lossAfterWins, h.all_eq]

theorem countP_eq_countP_iff {α : Type} {f g : α → Bool} {l : List α} :
    l.countP f = l.countP g ↔
      l.countP (fun a => f a && !g a) = l.countP (fun a => g a && !f a) := by
  have hf := List.countP_eq_countP_filter_add l f g
  have hg := List.countP_eq_countP_filter_add l g f
  have hboth : l.countP (fun a => f a && g a) = l.countP (fun a => g a && f a) :=
    List.countP_congr fun a _ => by rw [Bool.and_comm]
  simp only [List.countP_filter] at hf hg
  omega

theorem pairwise_arrivedBefore (recs : List ClosedSignalRecord) :
    recs.zipIdx.Pairwise (fun q p => q.2 < p.2) := by
  rw [← List.pairwise_map (f := Prod.snd) (R := (· < ·)), List.zipIdx_map_snd]
  exact List.pairwise_lt_range'

theorem consecutiveLosses_arrived (recs : List ClosedSignalRecord) :
    consecutiveLosses recs = recs.zipIdx.countP (lossAfterWins arrivedBefore recs.zipIdx) := by
  rw [← consecutiveLosses_eq_countP, List.zipIdx_map_fst]
  refine (pairwise_arrivedBefore recs).imp fun h => ?_
  simp only [arrivedBefore, decide_eq_true_eq, decide_eq_false_iff_not]
  exact ⟨h, by omega⟩

/-- Sorting keeps records closed at the same time in the order they came. -/
theorem consecutiveLosses_closed (recs : List ClosedSignalRecord) :
    consecutiveLosses (orderBy ClosedSignalRecord.closedAt recs) =
      recs.zipIdx.countP (lossAfterWins closedBefore recs.zipIdx) := by
  have hsorted : SortedThen (fun p => p.1.closedAt) (fun q p => q.2 < p.2)
      (orderBy (fun p => p.1.closedAt) recs.zipIdx) :=
    pairwise_insertionSort_stable (pairwise_arrivedBefore recs)
  have hmap := map_orderBy Prod.fst ClosedSignalRecord.closedAt recs.zipIdx
  rw [List.zipIdx_map_fst] at hmap
  have hperm : (orderBy (fun p => p.1.closedAt) recs.zipIdx).Perm recs.zipIdx :=
    List.perm_insertionSort _ _
  rw [← hmap, consecutiveLosses_eq_countP, countP_lossAfterWins_perm hperm]
  refine hsorted.imp fun h => ?_
  simp only [closedBefore, decide_eq_true_eq, decide_eq_false_iff_not] at h ⊢
  omega

/-! ## The last loss -/

theorem mem_streakRecords {l : List ClosedSignalRecord} (h : rec ∈ streakRecords l) :
    rec ∈ l ∧ rec.outcome = .loss := by
  induction l with
  | nil => cases h
  | cons newer l ih =>
      rw [streakRecords] at h
      split at h
      · next hloss =>
          rcases List.mem_cons.mp h with rfl | h
          · exact ⟨List.mem_cons_self, hloss⟩
          · exact ⟨List.mem_cons_of_mem _ (ih h).1, (ih h).2⟩
      · split at h
        · cases h
        · exact ⟨List.mem_cons_of_mem _ (ih h).1, (ih h).2⟩

theorem newestLoss_spec (h : newest ∈ newestLoss history) :
    newest ∈ history ∧ newest.outcome = .loss := by
  have hmem := mem_streakRecords (List.mem_of_mem_head? h)
  exact ⟨List.mem_reverse.mp hmem.1, hmem.2⟩

/-- In closing order the last loss of the streak is the last to have closed. -/
theorem closedAt_le_newestLoss (hsorted : history.Pairwise (fun a b => a.closedAt ≤ b.closedAt))
    (h : newest ∈ newestLoss history) (hrec : rec ∈ history) (hloss : rec.outcome = .loss) :
    rec.closedAt ≤ newest.closedAt := by
  have hback : history.reverse.Pairwise (fun a b => b.closedAt ≤ a.closedAt) :=
    List.pairwise_reverse.mpr hsorted
  rw [newestLoss] at h
  have hmem := List.mem_reverse.mpr hrec
  generalize history.reverse = l at hback h hmem
  induction l with
  | nil => cases hmem
  | cons newer l ih =>
      obtain ⟨hnewer, hl⟩ := List.pairwise_cons.mp hback
      rw [streakRecords] at h
      split at h
      · cases h
        rcases List.mem_cons.mp hmem with rfl | hmem
        · exact le_refl _
        · exact hnewer rec hmem
      · next hne =>
          split at h
          · cases h
          · rcases List.mem_cons.mp hmem with rfl | hmem
            · exact absurd hloss hne
            · exact ih hl h hmem

/-! ## What the session leaves -/

/-- The row of `closed_signals` a record becomes. -/
def ClosedSignalRecord.stored (rec : ClosedSignalRecord) : ClosedSignalRecord :=
  { rec with zoneAttempt := 1 }

/-- The records of a session as a new coordinator reads them back. -/
def reloaded (recs : List ClosedSignalRecord) : List ClosedSignalRecord :=
  (orderBy ClosedSignalRecord.closedAt recs).map ClosedSignalRecord.stored

@[simp] theorem length_reloaded (recs : List ClosedSignalRecord) :
    (reloaded recs).length = recs.length := by
  rw [reloaded, List.length_map, orderBy, List.length_insertionSort]

theorem reloaded_eq_nil_iff : reloaded recs = [] ↔ recs = [] := by
  rw [← List.length_eq_zero_iff, length_reloaded, List.length_eq_zero_iff]

theorem streakRecords_stored (l : List ClosedSignalRecord) :
    streakRecords (l.map ClosedSignalRecord.stored) =
      (streakRecords l).map ClosedSignalRecord.stored := by
  induction l with
  | nil => rfl
  | cons rec l ih =>
      have houtcome : rec.stored.outcome = rec.outcome := rfl
      rw [List.map_cons, streakRecords, streakRecords, houtcome, ih]
      split
      · rfl
      · split <;> rfl

theorem consecutiveLosses_reloaded (recs : List ClosedSignalRecord) :
    consecutiveLosses (reloaded recs) =
      recs.zipIdx.countP (lossAfterWins closedBefore recs.zipIdx) := by
  rw [← consecutiveLosses_closed, consecutiveLosses, reloaded, ← List.map_reverse,
    streakRecords_stored, List.length_map, consecutiveLosses]

theorem consecutiveLosses_eq_iff :
    consecutiveLosses (reloaded recs) = consecutiveLosses recs ↔
      recs.zipIdx.countP (fun p => lossAfterWins closedBefore recs.zipIdx p &&
          !lossAfterWins arrivedBefore recs.zipIdx p) =
        recs.zipIdx.countP (fun p => lossAfterWins arrivedBefore recs.zipIdx p &&
          !lossAfterWins closedBefore recs.zipIdx p) := by
  rw [consecutiveLosses_reloaded, consecutiveLosses_arrived, countP_eq_countP_iff]

/-- The last loss read back is the stored form of the last loss to close. -/
theorem newestLoss_reloaded (h : newest ∈ newestLoss (reloaded recs)) :
    ∃ latest ∈ recs, latest.outcome = .loss ∧
      (∀ rec ∈ recs, rec.outcome = .loss → rec.closedAt ≤ latest.closedAt) ∧
      newest = latest.stored := by
  rw [newestLoss, reloaded, ← List.map_reverse, streakRecords_stored, List.head?_map,
    Option.mem_map] at h
  obtain ⟨latest, hlatest, rfl⟩ := h
  have hmem := newestLoss_spec hlatest
  rw [orderBy, List.mem_insertionSort] at hmem
  refine ⟨latest, hmem.1, hmem.2, fun rec hrec => ?_, rfl⟩
  refine closedAt_le_newestLoss (List.pairwise_insertionSort _ _) hlatest ?_
  exact (List.mem_insertionSort _).mpr hrec

/-- The R of a session is the same in any order. -/
theorem sessionR_reloaded (recs : List ClosedSignalRecord) :
    sessionR (reloaded recs) = sessionR recs := by
  have hstored : sessionR (reloaded recs) =
      sessionR (orderBy ClosedSignalRecord.closedAt recs) := by
    rw [sessionR, reloaded, List.filter_map, List.map_map]
    rfl
  have hperm : (orderBy ClosedSignalRecord.closedAt recs).Perm recs := List.perm_insertionSort _ _
  rw [hstored]
  exact ((hperm.filter _).map _).sum_eq

theorem foldl_pushHistory (h : history.length + recs.length ≤ 500) :
    recs.foldl pushHistory history = history ++ recs := by
  induction recs generalizing history with
  | nil => rw [List.foldl_nil, List.append_nil]
  | cons rec recs ih =>
      rw [List.length_cons] at h
      have hpush : pushHistory history rec = history ++ [rec] := by
        rw [pushHistory, Nat.sub_eq_zero_of_le (by omega), List.drop_zero]
      rw [List.foldl_cons, hpush, ih, List.append_assoc, List.singleton_append]
      rw [List.length_append, List.length_singleton]
      omega

theorem insertClosed_fresh {t : Tables} {sessionDay : ℤ} (h : rec.signalId ∉ t.closedIds) :
    (t.insertClosed rec sessionDay).closedSignals = t.closedSignals ++ [⟨rec.stored, sessionDay⟩] :=
  if_neg h

@[simp] theorem recordOutcome_sessionDay (cfg : Settings) (c : Coordinator)
    (rec : ClosedSignalRecord) (nowMs : ℤ) :
    (c.recordOutcome cfg rec nowMs).1.sessionDay = c.sessionDay := by
  unfold Coordinator.recordOutcome Coordinator.applyStreak
  split <;> rfl

/-- What a run of `record_outcome` has left in memory and on disk. -/
structure Recorded (s s' : RunningSession) (recs : List ClosedSignalRecord) : Prop where
  sessionDay_eq : s'.coordinator.sessionDay = s.coordinator.sessionDay
  history_eq : s'.coordinator.history = recs.foldl pushHistory s.coordinator.history
  closedSignals_eq : s'.tables.closedSignals = s.tables.closedSignals ++
    recs.map (fun rec => ⟨rec.stored, s.coordinator.sessionDay⟩)
  json_eq : s'.json = s.json ++ recs

theorem recorded_recordAll (h : EachStored s (calls.map Prod.fst)) :
    Recorded s (s.recordAll cfg calls) (calls.map Prod.fst) := by
  induction calls generalizing s with
  | nil => exact ⟨rfl, rfl, (List.append_nil _).symm, (List.append_nil _).symm⟩
  | cons call calls ih =>
      obtain ⟨hnodup, hfresh⟩ := h
      rw [List.map_cons, List.map_cons, List.nodup_cons] at hnodup
      have hnew := hfresh call.1 List.mem_cons_self
      have hstored : EachStored (s.recordOutcome cfg call) (calls.map Prod.fst) := by
        refine ⟨hnodup.2, fun rec hrec hmem => ?_⟩
        rcases mem_closedIds_insertClosed.mp hmem with heq | hmem
        · exact hnodup.1 (heq ▸ List.mem_map_of_mem hrec)
        · exact hfresh rec (List.mem_cons_of_mem _ hrec) hmem
      obtain ⟨hday, hhistory, hclosed, hjson⟩ := ih hstored
      have hday' : (s.recordOutcome cfg call).coordinator.sessionDay = s.coordinator.sessionDay :=
        recordOutcome_sessionDay cfg _ _ _
      rw [hday'] at hday hclosed
      refine ⟨hday, ?_, ?_, ?_⟩
      · rw [List.map_cons, List.foldl_cons, ← recordOutcome_history cfg _ call.1 call.2]
        exact hhistory
      · rw [List.map_cons, List.map_cons, List.append_cons, ← insertClosed_fresh hnew]
        exact hclosed
      · rw [List.map_cons, List.append_cons]
        exact hjson

/-- The rows of the day, in the order of their closing. -/
theorem sessionRecords_recorded {s' : RunningSession} (hfresh : FreshSession s)
    (h : Recorded s s' recs) :
    s'.tables.sessionRecords s'.json s.coordinator.sessionDay = reloaded recs := by
  have hrows : s'.tables.closedSignals.filter
      (fun r => decide (r.sessionDay = s.coordinator.sessionDay)) =
        recs.map (fun rec => ⟨rec.stored, s.coordinator.sessionDay⟩) := by
    rw [h.closedSignals_eq, List.filter_append, List.filter_eq_nil_iff.mpr, List.nil_append,
      List.filter_eq_self.mpr]
    · intro r hr
      obtain ⟨rec, _, rfl⟩ := List.mem_map.mp hr
      exact decide_eq_true rfl
    · intro r hr
      simpa using hfresh.rows_none r hr
  have hload : s'.tables.loadClosedForSession s.coordinator.sessionDay = reloaded recs := by
    rw [Tables.loadClosedForSession, hrows, ← map_orderBy, List.map_map]
    rfl
  rw [Tables.sessionRecords, hload, h.json_eq, hfresh.json_eq, List.nil_append]
  split
  · next hnil => rw [hnil, reloaded_eq_nil_iff.mp hnil]
  · rfl

/-! ## Starting from the records -/

/-- A history that is not full keeps every record. -/
theorem foldl_pushHistory_nil {records : List ClosedSignalRecord} (h : records.length ≤ 500) :
    records.foldl pushHistory [] = records :=
  foldl_pushHistory (by rw [List.length_nil, Nat.zero_add]; exact h)

theorem start_nil (cfg : Settings) (nowMs : ℤ) (closed : List ClosedSignalRecord) :
    (Coordinator.start cfg nowMs [] closed).2 = none ∧
      (Coordinator.start cfg nowMs [] closed).1.history = [] ∧
      (Coordinator.start cfg nowMs [] closed).1.pausedUntil = none :=
  ⟨rfl, rfl, rfl⟩

theorem start_of_checkStreak {records : List ClosedSignalRecord} {paused : Option ℤ}
    (hrecords : records ≠ []) (hlength : records.length ≤ 500)
    (h : checkStreak cfg records nowMs = .ok paused) (closed : List ClosedSignalRecord) :
    (Coordinator.start cfg nowMs records closed).2 = none ∧
      (Coordinator.start cfg nowMs records closed).1.history = records ∧
      (Coordinator.start cfg nowMs records closed).1.pausedUntil = paused := by
  rw [Coordinator.start, Coordinator.loadSession, if_neg hrecords]
  dsimp only
  rw [foldl_pushHistory_nil hlength, h]
  exact ⟨rfl, rfl, rfl⟩

theorem start_of_checkStreak_error {records : List ClosedSignalRecord} {e : CoordinatorError}
    (hrecords : records ≠ []) (hlength : records.length ≤ 500)
    (h : checkStreak cfg records nowMs = .error e) (closed : List ClosedSignalRecord) :
    (Coordinator.start cfg nowMs records closed).2 = some e := by
  rw [Coordinator.start, Coordinator.loadSession, if_neg hrecords]
  dsimp only
  rw [foldl_pushHistory_nil hlength, h]

/-- The pause the last call leaves is the one of the whole history. -/
theorem recordAll_pausedUntil (hlast : ∀ call ∈ calls.getLast?, call.2 = nowMs)
    (hcalls : calls ≠ []) {paused : Option ℤ}
    (h : checkStreak cfg (s.recordAll cfg calls).coordinator.history nowMs = .ok paused) :
    (s.recordAll cfg calls).coordinator.pausedUntil = paused := by
  rcases List.eq_nil_or_concat calls with rfl | ⟨earlier, call, rfl⟩
  · exact absurd rfl hcalls
  · have hclock : call.2 = nowMs := hlast call (by rw [List.concat_eq_append]; simp)
    rw [List.concat_eq_append, RunningSession.recordAll, List.foldl_append] at h ⊢
    generalize earlier.foldl (RunningSession.recordOutcome cfg) s = s' at h ⊢
    rw [← hclock] at h
    simp only [List.foldl_cons, List.foldl_nil, RunningSession.recordOutcome] at h ⊢
    rw [recordOutcome_history] at h
    have hhistory : (s'.coordinator.closeRecord cfg call.1).history =
        pushHistory s'.coordinator.history call.1 := by rw [Coordinator.closeRecord]
    rw [Coordinator.recordOutcome, Coordinator.applyStreak, hhistory, h]

/-! ## When the two coordinators agree -/

theorem pause_eq_iff (a b now : ℤ) :
    ((if now < a then some a else none) = if now < b then some b else none) ↔
      a = b ∨ a ≤ now ∧ b ≤ now := by
  split_ifs <;> simp only [Option.some.injEq, false_iff, true_iff] <;> omega

theorem sameEnd_iff (cfg : Settings) (nowMs : ℤ) {latest : ClosedSignalRecord}
    (hlatest : latest ∈ recs ∧ latest.outcome = .loss)
    (hmax : ∀ rec ∈ recs, rec.outcome = .loss → rec.closedAt ≤ latest.closedAt)
    (hnewest : newest ∈ recs ∧ newest.outcome = .loss) :
    (pauseEnd cfg latest = pauseEnd cfg newest ∨
        pauseEnd cfg latest ≤ nowMs ∧ pauseEnd cfg newest ≤ nowMs) ↔
      (∀ rec ∈ recs, rec.outcome = .loss → rec.closedAt ≤ newest.closedAt) ∨
        ∀ rec ∈ recs, rec.outcome = .loss → pauseEnd cfg rec ≤ nowMs := by
  have hle := hmax newest hnewest.1 hnewest.2
  unfold pauseEnd
  constructor
  · rintro (heq | ⟨hover, -⟩)
    · refine Or.inl fun rec hrec hloss => ?_
      have hrec' := hmax rec hrec hloss
      omega
    · refine Or.inr fun rec hrec hloss => ?_
      have hrec' := hmax rec hrec hloss
      omega
  · rintro (hlast | hover)
    · have hge := hlast latest hlatest.1 hlatest.2
      exact Or.inl (by omega)
    · exact Or.inr ⟨hover latest hlatest.1 hlatest.2, hover newest hnewest.1 hnewest.2⟩

/-- Over one number of losses, the two orders pause alike exactly when the last loss to come was
    the last to close or no loss pauses any more. -/
theorem samePause_iff (heq : consecutiveLosses (reloaded recs) = consecutiveLosses recs) :
    (∃ paused, checkStreak cfg (reloaded recs) nowMs = .ok paused ∧
        checkStreak cfg recs nowMs = .ok paused) ↔
      (cfg.maxConsecutiveLosses ≤ consecutiveLosses recs →
        ∃ newest ∈ newestLoss recs,
          (∀ rec ∈ recs, rec.outcome = .loss → rec.closedAt ≤ newest.closedAt) ∨
            ∀ rec ∈ recs, rec.outcome = .loss → pauseEnd cfg rec ≤ nowMs) := by
  by_cases hlt : (consecutiveLosses recs : ℤ) < cfg.maxConsecutiveLosses
  · have hlt' := hlt
    rw [← heq] at hlt'
    exact iff_of_true ⟨none, if_pos hlt', if_pos hlt⟩ (fun h => absurd hlt (not_lt.mpr h))
  have hlimit := not_lt.mp hlt
  rw [forall_prop_of_true hlimit]
  by_cases hone : 1 ≤ consecutiveLosses recs
  · obtain ⟨newest, hnewest⟩ := newestLoss_isSome hone
    obtain ⟨last, hlast⟩ := newestLoss_isSome (heq.symm ▸ hone)
    have hclosed := checkStreak_of_newest (heq.symm ▸ hlimit) hlast nowMs
    obtain ⟨latest, hmem, hloss, hmax, rfl⟩ := newestLoss_reloaded hlast
    have hends := sameEnd_iff cfg nowMs ⟨hmem, hloss⟩ hmax (newestLoss_spec hnewest)
    rw [← pause_eq_iff] at hends
    rw [checkStreak_of_newest hlimit hnewest, hclosed]
    constructor
    · rintro ⟨paused, hclosed, harrived⟩
      refine ⟨newest, hnewest, hends.mp ?_⟩
      exact Except.ok.inj (hclosed.trans harrived.symm)
    · rintro ⟨newest', hnewest', h⟩
      cases Option.mem_unique hnewest hnewest'
      exact ⟨_, congrArg Except.ok (hends.mpr h), rfl⟩
  · constructor
    · rintro ⟨paused, -, harrived⟩
      have hok := checkStreak_ok_iff.mp ⟨paused, harrived⟩
      exact absurd (hok.resolve_left hlt) hone
    · rintro ⟨newest, hnewest, -⟩
      rw [newestLoss_eq_none (by omega)] at hnewest
      cases hnewest

theorem streakKept_iff_checkStreak (hfresh : FreshSession s) (hlength : calls.length < 500)
    (hstored : EachStored s (calls.map Prod.fst)) (hday : toDate nowMs = s.coordinator.sessionDay)
    (hlast : ∀ call ∈ calls.getLast?, call.2 = nowMs) (hcalls : calls ≠ []) :
    StreakKept cfg (s.recordAll cfg calls) nowMs ↔
      consecutiveLosses (reloaded (calls.map Prod.fst)) =
          consecutiveLosses (calls.map Prod.fst) ∧
        ∃ paused, checkStreak cfg (reloaded (calls.map Prod.fst)) nowMs = .ok paused ∧
          checkStreak cfg (calls.map Prod.fst) nowMs = .ok paused := by
  have hrecorded : Recorded s (s.recordAll cfg calls) (calls.map Prod.fst) :=
    recorded_recordAll hstored
  have hhistory : (s.recordAll cfg calls).coordinator.history = calls.map Prod.fst := by
    rw [hrecorded.history_eq, hfresh.history_eq, foldl_pushHistory_nil]
    rw [List.length_map]
    omega
  have hpaused : ∀ paused, checkStreak cfg (calls.map Prod.fst) nowMs = .ok paused →
      (s.recordAll cfg calls).coordinator.pausedUntil = paused := by
    rw [← hhistory]
    exact fun paused h => recordAll_pausedUntil hlast hcalls h
  have hne : reloaded (calls.map Prod.fst) ≠ [] := fun h =>
    hcalls (List.map_eq_nil_iff.mp (reloaded_eq_nil_iff.mp h))
  have hle : (reloaded (calls.map Prod.fst)).length ≤ 500 := by
    rw [length_reloaded, List.length_map]
    omega
  have hrebuild : (s.recordAll cfg calls).rebuild cfg nowMs = Coordinator.start cfg nowMs
      (reloaded (calls.map Prod.fst)) (s.recordAll cfg calls).tables.loadClosedForDedup := by
    rw [RunningSession.rebuild, hday, sessionRecords_recorded hfresh hrecorded]
  constructor
  · rintro ⟨hsucceeds, hlosses, -, hsame⟩
    rw [hrebuild] at hsucceeds hlosses hsame
    cases hclosed : checkStreak cfg (reloaded (calls.map Prod.fst)) nowMs with
    | error e =>
        rw [start_of_checkStreak_error hne hle hclosed] at hsucceeds
        cases hsucceeds
    | ok paused =>
        obtain ⟨-, hhist, hpause⟩ := start_of_checkStreak hne hle hclosed
          (s.recordAll cfg calls).tables.loadClosedForDedup
        rw [hhist, hhistory] at hlosses
        have hok := checkStreak_ok_iff.mp ⟨paused, hclosed⟩
        rw [hlosses] at hok
        obtain ⟨paused', harrived⟩ := checkStreak_ok_iff.mpr hok
        rw [hpause, hpaused paused' harrived] at hsame
        exact ⟨hlosses, paused, rfl, hsame ▸ harrived⟩
  · rintro ⟨hlosses, paused, hclosed, harrived⟩
    obtain ⟨hnone, hhist, hpause⟩ := start_of_checkStreak hne hle hclosed
      (s.recordAll cfg calls).tables.loadClosedForDedup
    refine ⟨?_, ?_, ?_, ?_⟩
    · rw [hrebuild, hnone]
    · rw [hrebuild, hhist, hhistory, hlosses]
    · rw [hrebuild, hhist, hhistory, sessionR_reloaded]
    · rw [hrebuild, hpause, hpaused paused harrived]

/-- Without a record there is nothing to disagree on. -/
theorem streakKept_of_no_call (cfg : Settings) (hfresh : FreshSession s)
    (hday : toDate nowMs = s.coordinator.sessionDay) : StreakKept cfg s nowMs := by
  have hrebuild : s.rebuild cfg nowMs =
      Coordinator.start cfg nowMs [] s.tables.loadClosedForDedup := by
    rw [RunningSession.rebuild, hday, sessionRecords_recorded hfresh
      ⟨rfl, rfl, (List.append_nil _).symm, (List.append_nil _).symm⟩]
    rfl
  obtain ⟨hnone, hhist, hpause⟩ := start_nil cfg nowMs s.tables.loadClosedForDedup
  refine ⟨?_, ?_, ?_, ?_⟩
  · rw [hrebuild, hnone]
  · rw [hrebuild, hhist, hfresh.history_eq]
  · rw [hrebuild, hhist, hfresh.history_eq]
  · rw [hrebuild, hpause, hfresh.paused_eq]

/-- **When a restart keeps the circuit breaker**: exactly when the order in which the records came
    and the order in which they closed do no harm. -/
theorem streakKept_iff (hfresh : FreshSession s) (hlength : calls.length < 500)
    (hstored : EachStored s (calls.map Prod.fst)) (hday : toDate nowMs = s.coordinator.sessionDay)
    (hlast : ∀ call ∈ calls.getLast?, call.2 = nowMs) :
    StreakKept cfg (s.recordAll cfg calls) nowMs ↔
      OrderHarmless cfg (calls.map Prod.fst) nowMs := by
  by_cases hcalls : calls = []
  · subst hcalls
    exact iff_of_true (streakKept_of_no_call cfg hfresh hday) ⟨rfl, fun h => absurd rfl h⟩
  · rw [streakKept_iff_checkStreak hfresh hlength hstored hday hlast hcalls,
      consecutiveLosses_eq_iff]
    have hne : calls.map Prod.fst ≠ [] := fun h => hcalls (List.map_eq_nil_iff.mp h)
    constructor
    · rintro ⟨hmoved, hpaused⟩
      exact ⟨hmoved, fun _ => (samePause_iff (consecutiveLosses_eq_iff.mpr hmoved)).mp hpaused⟩
    · rintro ⟨hmoved, hnewest⟩
      exact ⟨hmoved,
        (samePause_iff (consecutiveLosses_eq_iff.mpr hmoved)).mpr (hnewest hne)⟩

/-- A session on an empty database, on day 0. -/
def emptySession : RunningSession := ⟨{ sessionDay := 0 }, Tables.empty, []⟩

theorem emptySession_fresh : FreshSession emptySession := by
  refine ⟨rfl, rfl, ?_, rfl⟩
  intro r hr
  cases hr

/-- A win of a slower pair, on an earlier candle than the loss. -/
def earlierWin : ClosedSignalRecord where
  signalId := ⟨"XAUUSD", oneHour, fifteenMin, 72000000, .short⟩
  symbol := "XAUUSD"
  direction := .short
  outcome := .winFull
  realizedRr := 2
  closedAt := 81900000
  htfInterval := oneHour
  ltfInterval := fifteenMin

theorem winFirst_kept :
    StreakKept tripAtOnce (emptySession.recordAll tripAtOnce
      [(earlierWin, 79500000), (lateLoss, 83100000)]) 83100000 := by
  refine (streakKept_iff emptySession_fresh (by decide) ⟨by decide +kernel, ?_⟩ (by decide)
    (by decide)).mpr ⟨by decide +kernel, fun _ _ => ⟨lateLoss, by decide +kernel, Or.inl ?_⟩⟩
  · intro rec _ hmem
    cases hmem
  · decide +kernel

/-- Reported after the loss, the win ends the streak; read back, the loss comes last. -/
theorem lateWin_misplaced :
    ¬ ∀ (cfg : Settings) (s : RunningSession) (calls : List (ClosedSignalRecord × ℤ)) (nowMs : ℤ),
      FreshSession s → calls.length < 500 → EachStored s (calls.map Prod.fst) →
      toDate nowMs = s.coordinator.sessionDay → (∀ call ∈ calls.getLast?, call.2 = nowMs) →
      StreakKept cfg (s.recordAll cfg calls) nowMs := by
  intro h
  have hkept := h tripAtOnce emptySession [(lateLoss, 83100000), (earlierWin, 83100000)] 83100000
    emptySession_fresh (by decide) ⟨by decide +kernel, by simp [emptySession, Tables.empty,
      Tables.closedIds, keys]⟩ (by decide) (by decide)
  have hlosses := hkept.losses_eq
  revert hlosses
  decide +kernel

end SignalEngine
