/-
  Session filing: the day each closed signal is stored under.

  Model. A `SessionWorld` is the coordinator of the running process, if its construction has
  succeeded, the tables, and the records in the JSON file of each day. `passed` is the ghost list
  of what `record_outcome` was given. A construction and a rollover load what the world holds.

  `record_outcome` files under `_session_day`, which only a construction and a call of
  `should_emit` set: a close after midnight and before either goes to the day before.

  Proved: `filedByDay_of_run`, over every run in which the last of these before each record falls
  on the day the record has closed on.
-/
import SignalEngine.Lib.Trace
import SignalEngine.Services.StreakRestart

namespace SignalEngine

open Lib

inductive SessionCall where
  | start (nowMs : ℤ)
  | shouldEmit (x : Setup) (currentTs nowMs : ℤ)
  | recordOutcome (rec : ClosedSignalRecord) (nowMs : ℤ)

structure SessionWorld where
  coordinator : Option Coordinator := none
  tables : Tables := .empty
  files : ℤ → List ClosedSignalRecord := fun _ => []
  passed : List ClosedSignalRecord := []

/-- What `_load_session` finds for a day. -/
def SessionWorld.load (w : SessionWorld) (day : ℤ) : List ClosedSignalRecord :=
  w.tables.sessionRecords (w.files day) day

def SessionWorld.call (cfg : Settings) (w : SessionWorld) : SessionCall → SessionWorld
  | .start nowMs =>
      match Coordinator.start cfg nowMs (w.load (toDate nowMs)) w.tables.loadClosedForDedup with
      | (_, some _) => { w with coordinator := none }
      | (c, none) => { w with coordinator := some c }
  | .shouldEmit x currentTs nowMs =>
      { w with
        coordinator := w.coordinator.map
          (fun c => (c.shouldEmit cfg x currentTs w.load nowMs).1) }
  | .recordOutcome rec nowMs =>
      match w.coordinator with
      | none => w
      | some c =>
          { coordinator := some (c.recordOutcome cfg rec nowMs).1
            tables := w.tables.insertClosed rec c.sessionDay
            files := Function.update w.files c.sessionDay (w.files c.sessionDay ++ [rec])
            passed := w.passed ++ [rec] }

/-- A run on an empty database and an empty session directory. -/
def SessionWorld.run (cfg : Settings) (calls : List SessionCall) : SessionWorld :=
  calls.foldl (SessionWorld.call cfg) {}

/-! ## Filing -/

/-- The record has closed on the UTC day. -/
def ClosedSignalRecord.closedOn (day : ℤ) (rec : ClosedSignalRecord) : Bool :=
  decide (toDate rec.closedAt = day)

/-- Every record passed is stored under the day of its own `closed_at`, in the table and in the
    files, and a load of a day gets the records closed on it. -/
structure FiledByDay (w : SessionWorld) : Prop where
  rows_eq : w.tables.closedSignals =
    w.passed.map (fun rec => ⟨rec.stored, toDate rec.closedAt⟩)
  files_eq : ∀ day, w.files day = w.passed.filter (ClosedSignalRecord.closedOn day)
  load_perm : ∀ day, (w.load day).Perm
    ((w.passed.filter (ClosedSignalRecord.closedOn day)).map ClosedSignalRecord.stored)

/-! ## The clock of the session -/

/-- The time a call takes the session day from. -/
def SessionCall.clock : SessionCall → Option ℤ
  | .start nowMs => some nowMs
  | .shouldEmit _ currentTs _ => some currentTs
  | .recordOutcome _ _ => none

def SessionCall.record : SessionCall → Option ClosedSignalRecord
  | .recordOutcome rec _ => some rec
  | _ => none

/-- The time of the last construction or `should_emit`. -/
def lastClock (calls : List SessionCall) : Option ℤ :=
  (calls.filterMap SessionCall.clock).getLast?

/-- A record that comes after `calls` has an id of its own, and has closed on the day of the last
    construction or `should_emit` of `calls`. -/
def InTime (calls : List SessionCall) (call : SessionCall) : Prop :=
  ∀ rec ∈ call.record,
    (∀ old ∈ calls.filterMap SessionCall.record, old.signalId ≠ rec.signalId) ∧
      ∀ ts ∈ lastClock calls, toDate ts = toDate rec.closedAt

variable {cfg : Settings} {c : Coordinator} {w : SessionWorld} {calls : List SessionCall}
  {call : SessionCall} {rec : ClosedSignalRecord} {now nowMs : ℤ}

theorem lastClock_concat :
    lastClock (calls ++ [call]) = (call.clock <|> lastClock calls) := by
  rw [lastClock, List.filterMap_append, List.getLast?_append]
  cases call <;> rfl

theorem loadSession_sessionDay (cfg : Settings) (c : Coordinator)
    (records : List ClosedSignalRecord) (nowMs : ℤ) :
    (c.loadSession cfg records nowMs).1.sessionDay = c.sessionDay := by
  unfold Coordinator.loadSession
  split
  · rfl
  · dsimp only
    split <;> rfl

theorem start_sessionDay (cfg : Settings) (nowMs : ℤ) (records closed : List ClosedSignalRecord) :
    (Coordinator.start cfg nowMs records closed).1.sessionDay = toDate nowMs := by
  have hload := loadSession_sessionDay cfg { sessionDay := toDate nowMs } records nowMs
  unfold Coordinator.start
  generalize Coordinator.loadSession cfg { sessionDay := toDate nowMs } records nowMs = r
    at hload ⊢
  obtain ⟨c, _ | e⟩ := r <;> exact hload

theorem shouldEmit_sessionDay (x : Setup) (load : ℤ → List ClosedSignalRecord) :
    (c.shouldEmit cfg x now load nowMs).1.sessionDay = toDate now := by
  have hroll : (c.maybeRollover cfg now load nowMs).1.sessionDay = toDate now := by
    unfold Coordinator.maybeRollover
    split
    · next hday => exact hday.symm
    · rw [loadSession_sessionDay]
  unfold Coordinator.shouldEmit
  generalize c.maybeRollover cfg now load nowMs = r at hroll ⊢
  obtain ⟨c', _ | e⟩ := r
  · dsimp only at hroll ⊢
    split
    · exact hroll
    · split <;> exact hroll
  · exact hroll

/-! ## One call -/

/-- What the records of `calls` have left, and the day of a running coordinator. -/
structure Filed (calls : List SessionCall) (w : SessionWorld) : Prop where
  day_eq : ∀ c ∈ w.coordinator, ∃ ts ∈ lastClock calls, c.sessionDay = toDate ts
  passed_mem : ∀ rec ∈ w.passed, rec ∈ calls.filterMap SessionCall.record
  rows_eq : w.tables.closedSignals =
    w.passed.map (fun rec => ⟨rec.stored, toDate rec.closedAt⟩)
  files_eq : ∀ day, w.files day = w.passed.filter (ClosedSignalRecord.closedOn day)

/-- A record keeps the id when it is stored. -/
theorem Filed.closedIds_eq (h : Filed calls w) :
    w.tables.closedIds = w.passed.map ClosedSignalRecord.signalId := by
  rw [Tables.closedIds, keys, h.rows_eq, List.map_map]
  rfl

theorem call_recordOutcome (cfg : Settings) (hc : w.coordinator = some c)
    (rec : ClosedSignalRecord) (nowMs : ℤ) :
    w.call cfg (.recordOutcome rec nowMs) =
      { coordinator := some (c.recordOutcome cfg rec nowMs).1
        tables := w.tables.insertClosed rec c.sessionDay
        files := Function.update w.files c.sessionDay (w.files c.sessionDay ++ [rec])
        passed := w.passed ++ [rec] } := by
  unfold SessionWorld.call
  rw [hc]

theorem Filed.recordOutcome (h : Filed calls w) (hc : w.coordinator = some c)
    (hintime : InTime calls (.recordOutcome rec nowMs)) :
    Filed (calls ++ [.recordOutcome rec nowMs]) (w.call cfg (.recordOutcome rec nowMs)) := by
  obtain ⟨hids, hclock⟩ := hintime rec rfl
  obtain ⟨ts, hts, hday⟩ := h.day_eq c hc
  have hfile : c.sessionDay = toDate rec.closedAt := hday.trans (hclock ts hts)
  have hnew : rec.signalId ∉ w.tables.closedIds := by
    rw [h.closedIds_eq]
    intro hmem
    obtain ⟨old, hold, heq⟩ := List.mem_map.mp hmem
    exact hids old (h.passed_mem old hold) heq
  rw [call_recordOutcome cfg hc]
  refine ⟨fun c' hc' => ?_, fun r hr => ?_, ?_, fun day => ?_⟩
  · obtain rfl := Option.some.inj hc'
    rw [lastClock_concat, recordOutcome_sessionDay]
    exact ⟨ts, hts, hday⟩
  · rw [List.filterMap_append, List.mem_append]
    exact (List.mem_append.mp hr).imp (h.passed_mem r) id
  · rw [insertClosed_fresh hnew, h.rows_eq, hfile, List.map_append]
    rfl
  · dsimp only
    by_cases hd : day = c.sessionDay
    · subst hd
      have hon : ClosedSignalRecord.closedOn c.sessionDay rec = true := decide_eq_true hfile.symm
      rw [Function.update_self, h.files_eq, List.filter_append, List.filter_cons_of_pos hon,
        List.filter_nil]
    · have hoff : ¬ ClosedSignalRecord.closedOn day rec = true :=
        fun hon => hd ((of_decide_eq_true hon).symm.trans hfile.symm)
      rw [Function.update_of_ne hd, h.files_eq, List.filter_append, List.filter_cons_of_neg hoff,
        List.filter_nil, List.append_nil]

/-- The other calls only move the session day. -/
theorem Filed.of_clock {w' : SessionWorld} (h : Filed calls w) {ts : ℤ}
    (hclock : call.clock = some ts) (hday : ∀ c ∈ w'.coordinator, c.sessionDay = toDate ts)
    (htables : w'.tables = w.tables) (hfiles : w'.files = w.files)
    (hpassed : w'.passed = w.passed) : Filed (calls ++ [call]) w' where
  day_eq := fun c hc => ⟨ts, by rw [lastClock_concat, hclock]; rfl, hday c hc⟩
  passed_mem := fun rec hrec => by
    rw [hpassed] at hrec
    rw [List.filterMap_append]
    exact List.mem_append_left _ (h.passed_mem rec hrec)
  rows_eq := by rw [htables, hpassed]; exact h.rows_eq
  files_eq := by rw [hfiles, hpassed]; exact h.files_eq

theorem Filed.step (h : Filed calls w) (hintime : InTime calls call) :
    Filed (calls ++ [call]) (w.call cfg call) := by
  cases call with
  | start nowMs =>
      have hday := start_sessionDay cfg nowMs (w.load (toDate nowMs)) w.tables.loadClosedForDedup
      unfold SessionWorld.call
      dsimp only
      generalize Coordinator.start cfg nowMs (w.load (toDate nowMs)) w.tables.loadClosedForDedup =
        r at hday ⊢
      obtain ⟨c, _ | e⟩ := r
      · refine h.of_clock rfl (fun c' hc' => ?_) rfl rfl rfl
        obtain rfl := Option.some.inj hc'
        exact hday
      · exact h.of_clock rfl (fun c' hc' => by cases hc') rfl rfl rfl
  | shouldEmit x currentTs nowMs =>
      refine h.of_clock rfl (fun c' hc' => ?_) rfl rfl rfl
      obtain ⟨c, -, rfl⟩ := Option.map_eq_some_iff.mp hc'
      exact shouldEmit_sessionDay x w.load
  | recordOutcome rec nowMs =>
      cases hc : w.coordinator with
      | some c => exact h.recordOutcome hc hintime
      | none =>
          -- no process is running, and the call is not made
          have hsame : w.call cfg (.recordOutcome rec nowMs) = w := by
            unfold SessionWorld.call
            rw [hc]
          rw [hsame]
          refine ⟨fun c hc' => ?_, fun r hr => ?_, h.rows_eq, h.files_eq⟩
          · rw [hc] at hc'
            cases hc'
          · rw [List.filterMap_append]
            exact List.mem_append_left _ (h.passed_mem r hr)

/-! ## Runs -/

theorem filed_run (h : EachAfter InTime calls) : Filed calls (SessionWorld.run cfg calls) := by
  induction calls using List.reverseRecOn with
  | nil =>
      exact ⟨(fun c hc => by cases hc), (fun rec hrec => absurd hrec List.not_mem_nil), rfl,
        fun day => rfl⟩
  | append_singleton calls call ih =>
      obtain ⟨hcalls, hcall⟩ := eachAfter_concat.mp h
      rw [SessionWorld.run, List.foldl_append]
      exact (ih hcalls).step hcall

/-- The rows of a day, or its file where the day has no row. -/
theorem Filed.load_perm (h : Filed calls w) (day : ℤ) :
    (w.load day).Perm
      ((w.passed.filter (ClosedSignalRecord.closedOn day)).map ClosedSignalRecord.stored) := by
  have hrows : (w.tables.loadClosedForSession day).Perm
      ((w.passed.filter (ClosedSignalRecord.closedOn day)).map ClosedSignalRecord.stored) := by
    have hsort : (w.tables.loadClosedForSession day).Perm
        ((w.tables.closedSignals.filter (fun r => decide (r.sessionDay = day))).map
          ClosedRow.record) :=
      (List.perm_insertionSort _ _).map _
    rw [h.rows_eq, List.filter_map, List.map_map] at hsort
    exact hsort
  unfold SessionWorld.load Tables.sessionRecords
  split
  · next hnone =>
      rw [hnone, List.nil_perm, List.map_eq_nil_iff] at hrows
      rw [h.files_eq, hrows]
      exact List.Perm.nil
  · exact hrows

/-- **Session-day filing**: over every run of calls in time, each record is stored under the day
    it has closed on, and a load of a day gets the records closed on it. -/
theorem filedByDay_of_run (h : EachAfter InTime calls) :
    FiledByDay (SessionWorld.run cfg calls) :=
  ⟨(filed_run h).rows_eq, (filed_run h).files_eq, (filed_run h).load_perm⟩

/-! ## Either side of midnight -/

/-- Closed at 00:10 of the day after `lateLoss`. -/
def earlyLoss : ClosedSignalRecord :=
  { lateLoss with signalId := ⟨"XAUUSD", oneHour, fiveMin, 86400000, .long⟩, closedAt := 87000000 }

/-- The gate is asked at midnight, between the two closes. -/
def askedAtMidnight : List SessionCall :=
  [.start 79200000, .recordOutcome lateLoss 82800000, .shouldEmit morningSetup 86400000 86700000,
    .recordOutcome earlyLoss 87000000]

theorem askedAtMidnight_filed : FiledByDay (SessionWorld.run sampleSettings askedAtMidnight) := by
  have hclock : ∀ (calls : List SessionCall) (call : SessionCall), call.record = none →
      InTime calls call := by
    intro calls call hnone rec hrec
    rw [hnone] at hrec
    cases hrec
  have hlate : InTime [.start 79200000] (.recordOutcome lateLoss 82800000) := by
    intro rec hrec
    obtain rfl := Option.some.inj hrec
    exact ⟨by decide, by decide⟩
  have hearly : InTime [.start 79200000, .recordOutcome lateLoss 82800000,
      .shouldEmit morningSetup 86400000 86700000] (.recordOutcome earlyLoss 87000000) := by
    intro rec hrec
    obtain rfl := Option.some.inj hrec
    exact ⟨by decide, by decide⟩
  have hstart : EachAfter InTime [.start 79200000] :=
    eachAfter_concat.mpr ⟨eachAfter_nil, hclock _ _ rfl⟩
  have hevening := eachAfter_concat.mpr ⟨hstart, hlate⟩
  have hmidnight := eachAfter_concat.mpr ⟨hevening, hclock _ (.shouldEmit morningSetup 86400000
    86700000) rfl⟩
  exact filedByDay_of_run (eachAfter_concat.mpr ⟨hmidnight, hearly⟩)

/-- Nothing asks the gate between the two closes. -/
theorem earlyLoss_misfiled :
    ¬ FiledByDay (SessionWorld.run sampleSettings
      [.start 79200000, .recordOutcome lateLoss 82800000, .recordOutcome earlyLoss 87000000]) := by
  intro h
  have hrows := h.rows_eq
  revert hrows
  decide +kernel

end SignalEngine
