/-
  Session stats: the figures a coordinator reports, and the rows they can be told from.

  Model. `Coordinator.stats` is the dict of `stats()`, with exact rationals for floats and
  milliseconds for the ISO text of `paused_until`. Of its entries, `Figures` are those that no
  order of the records can change. The world is the one of the session filing: one process after
  the other on one database, restarts, rollovers and closes in any order.

  Proved: `figures_of_rows`: as long as no day has more than the 500 records a history keeps, the
  figures are at every moment those of the rows stored under the session day, so a restart within
  the day reports the same.
-/
import SignalEngine.Services.SessionFiling

namespace SignalEngine

open Lib

/-! ## The report -/

/-- `VOID_OUTCOMES`. -/
def SignalOutcome.isVoid : SignalOutcome → Bool
  | .invalidated | .expired => true
  | _ => false

/-- `win_rate`. -/
def winRate (history : List ClosedSignalRecord) : Option ℚ :=
  let closed := history.filter (fun rec => rec.outcome.isClosed)
  if closed = [] then none
  else some (closed.countP (fun rec => rec.outcome.isWin) / closed.length)

/-- The entries of `stats` that sum up the history. -/
structure Figures where
  sessionR : ℚ
  totalSignals : ℕ
  wins : ℕ
  losses : ℕ
  voids : ℕ
  winRate : Option ℚ
  deriving DecidableEq, Repr

def figuresOf (history : List ClosedSignalRecord) : Figures :=
  let closed := history.filter (fun rec => rec.outcome.isClosed)
  { sessionR := pyRoundTo (sessionR history) 2
    totalSignals := history.length
    wins := closed.countP (fun rec => rec.outcome.isWin)
    losses := closed.countP (fun rec => decide (rec.outcome = .loss))
    voids := history.countP (fun rec => rec.outcome.isVoid)
    winRate := (winRate history).map (fun rate => pyRoundTo (rate * 100) 1) }

structure SessionStats where
  sessionDay : ℤ
  figures : Figures
  consecutiveLosses : ℕ
  paused : Bool
  pausedUntil : Option ℤ
  deadZones : ℕ
  openPositions : List DirKey
  deriving DecidableEq, Repr

/-- `stats`. -/
def Coordinator.stats (c : Coordinator) (nowMs : ℤ) : SessionStats :=
  let paused := c.pausedUntil.any (fun until_ => decide (until_ ≠ 0 ∧ nowMs < until_))
  { sessionDay := c.sessionDay
    figures := figuresOf c.history
    consecutiveLosses := SignalEngine.consecutiveLosses c.history
    paused := paused
    pausedUntil := if paused then c.pausedUntil else none
    deadZones := c.state.deadZones.card
    openPositions := c.state.openKeys }

/-- The rows stored under a day. -/
def Tables.dayRecords (t : Tables) (day : ℤ) : List ClosedSignalRecord :=
  (t.closedSignals.filter (fun r => decide (r.sessionDay = day))).map ClosedRow.record

variable {cfg : Settings} {c : Coordinator} {w : SessionWorld} {calls : List SessionCall}
  {call : SessionCall} {rec : ClosedSignalRecord} {now nowMs day : ℤ} {t : Tables}
  {history history' : List ClosedSignalRecord}

/-! ## What figures do not see -/

theorem figuresOf_stored (history : List ClosedSignalRecord) :
    figuresOf (history.map ClosedSignalRecord.stored) = figuresOf history := by
  have hfilter : (history.map ClosedSignalRecord.stored).filter (fun rec => rec.outcome.isClosed) =
      (history.filter (fun rec => rec.outcome.isClosed)).map ClosedSignalRecord.stored := by
    rw [List.filter_map]
    rfl
  have hsum : sessionR (history.map ClosedSignalRecord.stored) = sessionR history := by
    rw [sessionR, hfilter, List.map_map]
    rfl
  have hrate : winRate (history.map ClosedSignalRecord.stored) = winRate history := by
    rw [winRate, winRate, hfilter, List.countP_map, List.length_map]
    simp only [List.map_eq_nil_iff]
    rfl
  rw [figuresOf, figuresOf, hsum, hrate, hfilter, List.countP_map, List.countP_map,
    List.countP_map, List.length_map]
  rfl

theorem figuresOf_perm (h : history.Perm history') : figuresOf history = figuresOf history' := by
  have hclosed := h.filter (fun rec => rec.outcome.isClosed)
  have hsum : sessionR history = sessionR history' := (hclosed.map _).sum_eq
  have hrate : winRate history = winRate history' := by
    rw [winRate, winRate, hclosed.countP_eq, hclosed.length_eq]
    simp only [← List.length_eq_zero_iff, hclosed.length_eq]
  rw [figuresOf, figuresOf, hsum, hrate, hclosed.countP_eq, hclosed.countP_eq, h.countP_eq,
    h.length_eq]

/-! ## What a call leaves of the history -/

theorem loadSession_history (cfg : Settings) (c : Coordinator)
    (records : List ClosedSignalRecord) (nowMs : ℤ) :
    (c.loadSession cfg records nowMs).1.history = records.foldl pushHistory c.history := by
  unfold Coordinator.loadSession
  split
  · next hnil => rw [hnil, List.foldl_nil]
  · dsimp only
    split <;> rfl

theorem start_history (cfg : Settings) (nowMs : ℤ) (records closed : List ClosedSignalRecord) :
    (Coordinator.start cfg nowMs records closed).1.history = records.foldl pushHistory [] := by
  have hload := loadSession_history cfg { sessionDay := toDate nowMs } records nowMs
  unfold Coordinator.start
  generalize Coordinator.loadSession cfg { sessionDay := toDate nowMs } records nowMs = r
    at hload ⊢
  obtain ⟨c, _ | e⟩ := r <;> exact hload

/-- A call of `should_emit` on another day loads that day. -/
theorem shouldEmit_history (cfg : Settings) (c : Coordinator) (x : Setup) (now : ℤ)
    (load : ℤ → List ClosedSignalRecord) (nowMs : ℤ) :
    (c.shouldEmit cfg x now load nowMs).1.history =
      if toDate now = c.sessionDay then c.history
      else (load (toDate now)).foldl pushHistory [] := by
  have hroll : (c.maybeRollover cfg now load nowMs).1.history =
      if toDate now = c.sessionDay then c.history
      else (load (toDate now)).foldl pushHistory [] := by
    unfold Coordinator.maybeRollover
    split
    · rfl
    · rw [loadSession_history]
  unfold Coordinator.shouldEmit
  generalize c.maybeRollover cfg now load nowMs = r at hroll ⊢
  obtain ⟨c', _ | e⟩ := r
  · dsimp only at hroll ⊢
    split
    · exact hroll
    · split <;> exact hroll
  · exact hroll

/-! ## The history and the rows of its day -/

/-- What the world holds of each day, and of the day of a running coordinator. -/
structure FiledRows (calls : List SessionCall) (w : SessionWorld) : Prop where
  ids_mem : ∀ id ∈ w.tables.closedIds,
    id ∈ (calls.filterMap SessionCall.record).map ClosedSignalRecord.signalId
  rows_stored : ∀ r ∈ w.tables.closedSignals, r.record.stored = r.record
  files_perm : ∀ day,
    ((w.files day).map ClosedSignalRecord.stored).Perm (w.tables.dayRecords day)
  history_perm : ∀ c ∈ w.coordinator,
    (c.history.map ClosedSignalRecord.stored).Perm (w.tables.dayRecords c.sessionDay)

theorem loadClosedForSession_perm (t : Tables) (day : ℤ) :
    (t.loadClosedForSession day).Perm (t.dayRecords day) :=
  (List.perm_insertionSort _ _).map _

theorem stored_dayRecords (h : ∀ r ∈ t.closedSignals, r.record.stored = r.record) (day : ℤ) :
    (t.dayRecords day).map ClosedSignalRecord.stored = t.dayRecords day := by
  rw [Tables.dayRecords, List.map_map]
  exact List.map_congr_left fun r hr => h r (List.mem_of_mem_filter hr)

/-- What a load finds for a day is what the rows say. -/
theorem FiledRows.load_perm (h : FiledRows calls w) (day : ℤ) :
    ((w.load day).map ClosedSignalRecord.stored).Perm (w.tables.dayRecords day) := by
  rw [SessionWorld.load, Tables.sessionRecords]
  split
  · exact h.files_perm day
  · rw [← stored_dayRecords h.rows_stored day]
    exact (loadClosedForSession_perm w.tables day).map _

/-- A coordinator that has just loaded its day holds what was stored under it. -/
theorem FiledRows.loaded (h : FiledRows calls w) (hle : (w.tables.dayRecords day).length ≤ 500) :
    (((w.load day).foldl pushHistory []).map ClosedSignalRecord.stored).Perm
      (w.tables.dayRecords day) := by
  have hload := h.load_perm day
  have hlength := hload.length_eq
  rw [List.length_map] at hlength
  rw [foldl_pushHistory_nil (hlength.trans_le hle)]
  exact hload

theorem dayRecords_insertClosed (h : rec.signalId ∉ t.closedIds) (filed day : ℤ) :
    (t.insertClosed rec filed).dayRecords day =
      t.dayRecords day ++ if filed = day then [rec.stored] else [] := by
  rw [Tables.dayRecords, insertClosed_fresh h, List.filter_append, List.map_append,
    ← Tables.dayRecords]
  congr 1
  by_cases heq : filed = day <;> simp [heq]

theorem FiledRows.recordOutcome (h : FiledRows calls w) (hc : w.coordinator = some c)
    (hnew : rec.signalId ∉ (calls.filterMap SessionCall.record).map ClosedSignalRecord.signalId)
    (hle : ((w.call cfg (.recordOutcome rec nowMs)).tables.dayRecords c.sessionDay).length ≤ 500) :
    FiledRows (calls ++ [.recordOutcome rec nowMs]) (w.call cfg (.recordOutcome rec nowMs)) := by
  have hfresh : rec.signalId ∉ w.tables.closedIds := fun hmem => hnew (h.ids_mem _ hmem)
  rw [call_recordOutcome cfg hc] at hle ⊢
  dsimp only at hle
  have hhistory := h.history_perm c hc
  have hpush : pushHistory c.history rec = c.history ++ [rec] := by
    have hlength := hhistory.length_eq
    rw [dayRecords_insertClosed hfresh, if_pos rfl, List.length_append, List.length_singleton]
      at hle
    rw [List.length_map] at hlength
    rw [pushHistory, Nat.sub_eq_zero_of_le (by omega), List.drop_zero]
  refine ⟨fun id hid => ?_, fun r hr => ?_, fun day => ?_, fun c' hc' => ?_⟩
  · rw [List.filterMap_append, List.map_append, List.mem_append]
    rcases mem_closedIds_insertClosed.mp hid with rfl | hid
    · exact Or.inr (List.mem_singleton_self _)
    · exact Or.inl (h.ids_mem id hid)
  · dsimp only at hr
    rw [insertClosed_fresh hfresh] at hr
    rcases List.mem_append.mp hr with hr | hr
    · exact h.rows_stored r hr
    · rw [List.mem_singleton.mp hr]
      rfl
  · dsimp only
    rw [dayRecords_insertClosed hfresh]
    by_cases hday : day = c.sessionDay
    · subst hday
      rw [Function.update_self, if_pos rfl, List.map_append]
      exact (h.files_perm _).append_right _
    · rw [Function.update_of_ne hday, if_neg (Ne.symm hday), List.append_nil]
      exact h.files_perm day
  · obtain rfl := Option.some.inj hc'
    rw [recordOutcome_history, recordOutcome_sessionDay, hpush, List.map_append]
    dsimp only
    rw [dayRecords_insertClosed hfresh, if_pos rfl]
    exact hhistory.append_right _

/-- The other calls change no row. -/
theorem FiledRows.of_history {w' : SessionWorld} (h : FiledRows calls w) (call : SessionCall)
    (htables : w'.tables = w.tables) (hfiles : w'.files = w.files)
    (hhistory : ∀ c ∈ w'.coordinator,
      (c.history.map ClosedSignalRecord.stored).Perm (w.tables.dayRecords c.sessionDay)) :
    FiledRows (calls ++ [call]) w' where
  ids_mem := by
    intro id hid
    rw [htables] at hid
    rw [List.filterMap_append, List.map_append]
    exact List.mem_append_left _ (h.ids_mem id hid)
  rows_stored := by rw [htables]; exact h.rows_stored
  files_perm := by rw [htables, hfiles]; exact h.files_perm
  history_perm := by rw [htables]; exact hhistory

theorem FiledRows.start (h : FiledRows calls w)
    (hle : ∀ day, (w.tables.dayRecords day).length ≤ 500) :
    FiledRows (calls ++ [.start nowMs]) (w.call cfg (.start nowMs)) := by
  have hday := start_sessionDay cfg nowMs (w.load (toDate nowMs)) w.tables.loadClosedForDedup
  have hhistory := start_history cfg nowMs (w.load (toDate nowMs)) w.tables.loadClosedForDedup
  unfold SessionWorld.call
  dsimp only
  generalize Coordinator.start cfg nowMs (w.load (toDate nowMs)) w.tables.loadClosedForDedup =
    r at hday hhistory ⊢
  obtain ⟨c, _ | e⟩ := r
  · refine h.of_history _ rfl rfl fun c' hc' => ?_
    obtain rfl := Option.some.inj hc'
    dsimp only at hday hhistory
    rw [hday, hhistory]
    exact h.loaded (hle _)
  · exact h.of_history _ rfl rfl fun c' hc' => by cases hc'

theorem FiledRows.shouldEmit (h : FiledRows calls w) (x : Setup)
    (hle : ∀ day, (w.tables.dayRecords day).length ≤ 500) :
    FiledRows (calls ++ [.shouldEmit x now nowMs]) (w.call cfg (.shouldEmit x now nowMs)) := by
  refine h.of_history _ rfl rfl fun c' hc' => ?_
  obtain ⟨c, hc, rfl⟩ := Option.map_eq_some_iff.mp hc'
  rw [shouldEmit_sessionDay, shouldEmit_history]
  split
  · next hsame =>
      rw [hsame]
      exact h.history_perm c hc
  · exact h.loaded (hle _)

/-! ## Runs -/

theorem rows_prefix_call (cfg : Settings) (w : SessionWorld) (call : SessionCall) :
    w.tables.closedSignals <+: (w.call cfg call).tables.closedSignals := by
  cases call with
  | start nowMs =>
      rw [SessionWorld.call]
      split <;> exact List.prefix_refl _
  | shouldEmit x currentTs nowMs => exact List.prefix_refl _
  | recordOutcome rec nowMs =>
      rw [SessionWorld.call]
      split
      · exact List.prefix_refl _
      · dsimp only
        rw [Tables.insertClosed]
        dsimp only
        rw [insertIgnore]
        split
        · exact List.prefix_refl _
        · exact List.prefix_append _ _

theorem length_dayRecords_call (cfg : Settings) (w : SessionWorld) (call : SessionCall) (day : ℤ) :
    (w.tables.dayRecords day).length ≤ ((w.call cfg call).tables.dayRecords day).length := by
  rw [Tables.dayRecords, Tables.dayRecords, List.length_map, List.length_map]
  exact ((rows_prefix_call cfg w call).sublist.filter _).length_le

theorem filedRows_run
    (hids : ((calls.filterMap SessionCall.record).map ClosedSignalRecord.signalId).Nodup)
    (hfull : ∀ day, ((SessionWorld.run cfg calls).tables.dayRecords day).length ≤ 500) :
    FiledRows calls (SessionWorld.run cfg calls) := by
  induction calls using List.reverseRecOn with
  | nil =>
      exact ⟨(fun _ hid => absurd hid List.not_mem_nil), (fun _ hr => absurd hr List.not_mem_nil),
        (fun day => List.Perm.refl _), fun c hc => by cases hc⟩
  | append_singleton calls call ih =>
      rw [SessionWorld.run, List.foldl_append, ← SessionWorld.run, List.foldl_cons,
        List.foldl_nil] at hfull ⊢
      rw [List.filterMap_append, List.map_append, List.nodup_append] at hids
      have hle : ∀ day, ((SessionWorld.run cfg calls).tables.dayRecords day).length ≤ 500 :=
        fun day => (length_dayRecords_call cfg _ call day).trans (hfull day)
      have hfilled := ih hids.1 hle
      cases call with
      | start nowMs => exact hfilled.start hle
      | shouldEmit x currentTs nowMs => exact hfilled.shouldEmit x hle
      | recordOutcome rec nowMs =>
          have hnew : rec.signalId ∉
              (calls.filterMap SessionCall.record).map ClosedSignalRecord.signalId :=
            fun hmem => hids.2.2 _ hmem _ (List.mem_singleton_self _) rfl
          generalize SessionWorld.run cfg calls = w at hfull hle hfilled ⊢
          cases hc : w.coordinator with
          | some c => exact hfilled.recordOutcome hc hnew (hfull _)
          | none =>
              have hsame : w.call cfg (.recordOutcome rec nowMs) = w := by
                rw [SessionWorld.call, hc]
              rw [hsame]
              refine hfilled.of_history _ rfl rfl fun c hc' => ?_
              rw [hc] at hc'
              cases hc'

theorem FiledRows.figures_eq (h : FiledRows calls w) (hc : c ∈ w.coordinator) (nowMs : ℤ) :
    (c.stats nowMs).figures = figuresOf (w.tables.loadClosedForSession c.sessionDay) := by
  rw [Coordinator.stats]
  dsimp only
  rw [← figuresOf_stored]
  refine figuresOf_perm ((h.history_perm c hc).trans ?_)
  exact (loadClosedForSession_perm w.tables c.sessionDay).symm

/-- **Session figures**: in every run in which each record has an id of its own and no day has more
    than 500 of them, what a coordinator reports of its session is what the rows stored under its
    day come to; a restart within that day reports the same. -/
theorem figures_of_rows
    (hids : ((calls.filterMap SessionCall.record).map ClosedSignalRecord.signalId).Nodup)
    (hfull : ∀ day, ((SessionWorld.run cfg calls).tables.dayRecords day).length ≤ 500)
    (hc : c ∈ (SessionWorld.run cfg calls).coordinator) (nowMs : ℤ) :
    (c.stats nowMs).figures =
        figuresOf ((SessionWorld.run cfg calls).tables.loadClosedForSession c.sessionDay) ∧
      (toDate nowMs = c.sessionDay →
        ∀ c' ∈ ((SessionWorld.run cfg calls).call cfg (.start nowMs)).coordinator,
          (c'.stats nowMs).figures = (c.stats nowMs).figures) := by
  have hfilled := filedRows_run hids hfull
  generalize SessionWorld.run cfg calls = w at hfull hc hfilled ⊢
  refine ⟨hfilled.figures_eq hc nowMs, fun hday c' hc' => ?_⟩
  have hrestarted : FiledRows (calls ++ [.start nowMs]) (w.call cfg (.start nowMs)) :=
    hfilled.start hfull
  have hstart := start_sessionDay cfg nowMs (w.load (toDate nowMs)) w.tables.loadClosedForDedup
  have hsame : (w.call cfg (.start nowMs)).tables = w.tables := by
    rw [SessionWorld.call]
    split <;> rfl
  have hday' : c'.sessionDay = c.sessionDay := by
    rw [SessionWorld.call] at hc'
    generalize Coordinator.start cfg nowMs (w.load (toDate nowMs)) w.tables.loadClosedForDedup =
      r at hc' hstart
    obtain ⟨c₁, _ | e⟩ := r
    · obtain rfl := Option.some.inj hc'
      exact hstart.trans hday
    · cases hc'
  rw [hrestarted.figures_eq hc' nowMs, hfilled.figures_eq hc nowMs, hsame, hday']

/-- The loss before midnight and the one after it, each in the figures of its own day. -/
theorem askedAtMidnight_figures :
    ∃ c ∈ (SessionWorld.run sampleSettings askedAtMidnight).coordinator,
      (c.stats 87000000).figures = figuresOf ((SessionWorld.run sampleSettings
        askedAtMidnight).tables.loadClosedForSession c.sessionDay) := by
  have hids : ((askedAtMidnight.filterMap SessionCall.record).map
      ClosedSignalRecord.signalId).Nodup := by decide
  have hfull : ∀ day, ((SessionWorld.run sampleSettings askedAtMidnight).tables.dayRecords
      day).length ≤ 500 := by
    intro day
    rw [Tables.dayRecords, List.length_map]
    refine (List.length_filter_le _ _).trans ?_
    decide +kernel
  have hsome : (SessionWorld.run sampleSettings askedAtMidnight).coordinator.isSome = true := by
    decide +kernel
  obtain ⟨c, hc⟩ := Option.isSome_iff_exists.mp hsome
  exact ⟨c, hc, (figures_of_rows hids hfull hc 87000000).1⟩

end SignalEngine
