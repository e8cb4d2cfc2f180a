/-
  Closed columns: `ClosedSignalRecord` on its two ways through storage, column by column.

  Model. A row of `closed_signals` is what the positional `INSERT` of `signal_store.py` makes of
  its own column list and value tuple; `load_closed_for_session` selects another list and hands
  it to the dataclass as keywords. The JSON backup keeps `asdict` of each record. The strings of
  a record are typed here (`Cell`), and a keyword of the wrong type raises, where Python would
  carry it on. Only `records` of a session file is read back.

  `loadSessionRows_rowsOf` connects the columns to the tables of `Store`: a record comes back
  whole but for `zone_attempt`, which has no column. `closed_roundTrip_iff` says for which
  lists of records both stores give back what they were given.
-/
import SignalEngine.Domain.Builder
import SignalEngine.Engine.Replay
import SignalEngine.Persistence.Store

namespace SignalEngine

open Lib

/-! ## Cells and keys -/

/-- The columns of `closed_signals` and the fields of `ClosedSignalRecord`, under one name. -/
inductive RecordKey where
  | signalId | symbol | direction | htfInterval | ltfInterval
  | outcome | realizedRr | entry | sl | tp1 | tp2 | rr | wickRatio
  | pattern | htfTs | ltfTs | rejTs | entryTs | closedAt
  | sessionDay | htfHigh | htfLow | tpLevel | ltfHigh | ltfLow
  | zoneAttempt
  deriving DecidableEq, Repr

inductive Cell where
  | id (id : SignalId)
  | text (s : String)
  | direction (d : SignalDirection)
  | outcome (o : SignalOutcome)
  | interval (i : Interval)
  | pattern (p : Option CandlePattern)
  | real (q : ℚ)
  | int (n : ℤ)
  | day (d : ℤ)
  deriving DecidableEq, Repr

abbrev Cells := List (RecordKey × Cell)

inductive RecordError where
  | missing (key : RecordKey)
  | unexpected (key : RecordKey)
  | wrongType (key : RecordKey)
  /-- `OverflowError` of sqlite3 -/
  | tooLarge
  deriving DecidableEq, Repr

namespace Cell

def toId : Cell → Option SignalId
  | .id i => some i
  | _ => none

def toText : Cell → Option String
  | .text s => some s
  | _ => none

def toDirection : Cell → Option SignalDirection
  | .direction d => some d
  | _ => none

def toOutcome : Cell → Option SignalOutcome
  | .outcome o => some o
  | _ => none

def toInterval : Cell → Option Interval
  | .interval i => some i
  | _ => none

def toPattern : Cell → Option (Option CandlePattern)
  | .pattern p => some p
  | _ => none

def toReal : Cell → Option ℚ
  | .real q => some q
  | _ => none

def toInt : Cell → Option ℤ
  | .int n => some n
  | _ => none

/-- An integer SQLite can hold. -/
def fits : Cell → Bool
  | .int n => decide (-2 ^ 63 ≤ n ∧ n < 2 ^ 63)
  | _ => true

end Cell

/-! ## `ClosedSignalRecord(**kw)` -/

/-- A keyword without a default. -/
def required {α : Type} (kw : Cells) (k : RecordKey) (read : Cell → Option α) :
    Except RecordError α :=
  match kw.lookup k with
  | none => .error (.missing k)
  | some c =>
      match read c with
      | none => .error (.wrongType k)
      | some a => .ok a

def optional {α : Type} (kw : Cells) (k : RecordKey) (default : α) (read : Cell → Option α) :
    Except RecordError α :=
  match kw.lookup k with
  | none => .ok default
  | some c =>
      match read c with
      | none => .error (.wrongType k)
      | some a => .ok a

/-- The fields of the dataclass. -/
def recordFields : List RecordKey :=
  [.signalId, .symbol, .direction, .outcome, .realizedRr, .closedAt, .htfTs, .ltfTs, .rejTs,
    .entryTs, .entry, .sl, .tp1, .tp2, .rr, .wickRatio, .pattern, .htfInterval, .ltfInterval,
    .zoneAttempt, .htfHigh, .htfLow, .tpLevel, .ltfHigh, .ltfLow]

/-- The constructor. The two intervals default to `""`, which is no interval: they are required
    here. -/
def ClosedSignalRecord.ofKeywords (kw : Cells) : Except RecordError ClosedSignalRecord :=
  match kw.find? (fun e => decide (e.1 ∉ recordFields)) with
  | some e => .error (.unexpected e.1)
  | none => do
      return {
        signalId := ← required kw .signalId Cell.toId
        symbol := ← required kw .symbol Cell.toText
        direction := ← required kw .direction Cell.toDirection
        outcome := ← required kw .outcome Cell.toOutcome
        realizedRr := ← required kw .realizedRr Cell.toReal
        closedAt := ← required kw .closedAt Cell.toInt
        htfTs := ← optional kw .htfTs 0 Cell.toInt
        ltfTs := ← optional kw .ltfTs 0 Cell.toInt
        rejTs := ← optional kw .rejTs 0 Cell.toInt
        entryTs := ← optional kw .entryTs 0 Cell.toInt
        entry := ← optional kw .entry 0 Cell.toReal
        sl := ← optional kw .sl 0 Cell.toReal
        tp1 := ← optional kw .tp1 0 Cell.toReal
        tp2 := ← optional kw .tp2 0 Cell.toReal
        rr := ← optional kw .rr 0 Cell.toReal
        wickRatio := ← optional kw .wickRatio 0 Cell.toReal
        pattern := ← optional kw .pattern none Cell.toPattern
        htfInterval := ← required kw .htfInterval Cell.toInterval
        ltfInterval := ← required kw .ltfInterval Cell.toInterval
        zoneAttempt := (← optional kw .zoneAttempt 1 Cell.toInt).toNat
        htfHigh := ← optional kw .htfHigh 0 Cell.toReal
        htfLow := ← optional kw .htfLow 0 Cell.toReal
        tpLevel := ← optional kw .tpLevel 0 Cell.toReal
        ltfHigh := ← optional kw .ltfHigh 0 Cell.toReal
        ltfLow := ← optional kw .ltfLow 0 Cell.toReal }

/-! ## SQLite -/

/-- The column list of the `INSERT`. -/
def insertColumns : List RecordKey :=
  [.signalId, .symbol, .direction, .htfInterval, .ltfInterval,
    .outcome, .realizedRr, .entry, .sl, .tp1, .tp2, .rr, .wickRatio,
    .pattern, .htfTs, .ltfTs, .rejTs, .entryTs, .closedAt,
    .sessionDay, .htfHigh, .htfLow, .tpLevel, .ltfHigh, .ltfLow]

/-- The tuple of its parameters. -/
def insertValues (rec : ClosedSignalRecord) (sessionDay : ℤ) : List Cell :=
  [.id rec.signalId, .text rec.symbol, .direction rec.direction,
    .interval rec.htfInterval, .interval rec.ltfInterval,
    .outcome rec.outcome, .real rec.realizedRr,
    .real rec.entry, .real rec.sl, .real rec.tp1, .real rec.tp2, .real rec.rr, .real rec.wickRatio,
    .pattern rec.pattern, .int rec.htfTs, .int rec.ltfTs, .int rec.rejTs, .int rec.entryTs,
    .int rec.closedAt, .day sessionDay,
    .real rec.htfHigh, .real rec.htfLow, .real rec.tpLevel,
    .real rec.ltfHigh, .real rec.ltfLow]

/-- The column list of `load_closed_for_session`. -/
def selectColumns : List RecordKey :=
  [.signalId, .symbol, .direction, .htfInterval, .ltfInterval,
    .outcome, .realizedRr, .entry, .sl, .tp1, .tp2, .rr, .wickRatio,
    .pattern, .htfTs, .ltfTs, .rejTs, .entryTs, .closedAt,
    .htfHigh, .htfLow, .tpLevel, .ltfHigh, .ltfLow]

/-- The row an `INSERT` adds. -/
def insertedRow (rec : ClosedSignalRecord) (sessionDay : ℤ) : Cells :=
  insertColumns.zip (insertValues rec sessionDay)

/-- `dict(row)` of a `SELECT`. -/
def selectRow (row : Cells) : Cells :=
  selectColumns.filterMap fun k => (row.lookup k).map fun c => (k, c)

/-- The primary key of a row. -/
def rowId (row : Cells) : Option Cell := row.lookup .signalId

/-- The column of the `ORDER BY`. -/
def rowClosedAt (row : Cells) : ℤ := ((row.lookup .closedAt).bind Cell.toInt).getD 0

/-- `insert_closed`. -/
def insertClosedRow (rows : List Cells) (rec : ClosedSignalRecord) (sessionDay : ℤ) :
    Except RecordError (List Cells) :=
  if (insertValues rec sessionDay).all Cell.fits then
    .ok (insertIgnore rowId (insertedRow rec sessionDay) rows)
  else .error .tooLarge

/-- `load_closed_for_session`; a row the constructor raises on is skipped. -/
def loadSessionRows (rows : List Cells) (sessionDay : ℤ) : List ClosedSignalRecord :=
  (orderBy rowClosedAt
    (rows.filter fun row => decide (row.lookup .sessionDay = some (.day sessionDay)))).filterMap
      fun row => (ClosedSignalRecord.ofKeywords (selectRow row)).toOption

/-- `insert_closed` of each record. -/
def insertAllRows (rows : List Cells) (sessionDay : ℤ) :
    List ClosedSignalRecord → Except RecordError (List Cells)
  | [] => .ok rows
  | rec :: recs =>
      match insertClosedRow rows rec sessionDay with
      | .error e => .error e
      | .ok rows => insertAllRows rows sessionDay recs

/-! ## The JSON backup -/

/-- `asdict`. -/
def ClosedSignalRecord.asdict (rec : ClosedSignalRecord) : Cells :=
  [(.signalId, .id rec.signalId), (.symbol, .text rec.symbol),
    (.direction, .direction rec.direction), (.outcome, .outcome rec.outcome),
    (.realizedRr, .real rec.realizedRr), (.closedAt, .int rec.closedAt),
    (.htfTs, .int rec.htfTs), (.ltfTs, .int rec.ltfTs), (.rejTs, .int rec.rejTs),
    (.entryTs, .int rec.entryTs), (.entry, .real rec.entry), (.sl, .real rec.sl),
    (.tp1, .real rec.tp1), (.tp2, .real rec.tp2), (.rr, .real rec.rr),
    (.wickRatio, .real rec.wickRatio), (.pattern, .pattern rec.pattern),
    (.htfInterval, .interval rec.htfInterval), (.ltfInterval, .interval rec.ltfInterval),
    (.zoneAttempt, .int rec.zoneAttempt), (.htfHigh, .real rec.htfHigh),
    (.htfLow, .real rec.htfLow), (.tpLevel, .real rec.tpLevel), (.ltfHigh, .real rec.ltfHigh),
    (.ltfLow, .real rec.ltfLow)]

/-- `ClosedSignalRecord.from_dict`: unknown keys are dropped. -/
def ClosedSignalRecord.fromDict (d : Cells) : Except RecordError ClosedSignalRecord :=
  ClosedSignalRecord.ofKeywords (d.filter fun e => decide (e.1 ∈ recordFields))

/-- `datetime.fromtimestamp(ms / 1000, tz=timezone.utc)` does not raise. -/
def IsDatetime (ms : ℤ) : Prop := minUtcMs ≤ ms ∧ ms ≤ maxUtcMs

instance (ms : ℤ) : Decidable (IsDatetime ms) := inferInstanceAs (Decidable (_ ∧ _))

/-- `append_record` on the `records` of the file of the day, if there is one. What raises leaves
    the file as it is. -/
def appendRecord (file : Option (List Cells)) (rec : ClosedSignalRecord) (sessionStartMs : ℤ) :
    Option (List Cells) :=
  match file with
  | some records =>
      if IsDatetime rec.closedAt then some (records ++ [rec.asdict]) else some records
  | none =>
      if IsDatetime sessionStartMs ∧ IsDatetime rec.closedAt then some [rec.asdict] else none

/-- `load_records_from_json`. -/
def loadRecordsFromJson (file : Option (List Cells)) : List ClosedSignalRecord :=
  (file.getD []).filterMap fun d => (ClosedSignalRecord.fromDict d).toOption

variable {t : Tables} {rec : ClosedSignalRecord} {recs : List ClosedSignalRecord}
  {closed : List ClosedRow} {sessionDay sessionStartMs : ℤ} {rows : List Cells}

/-! ## One record -/

/-- Through the table a record loses its zone attempt. -/
theorem ofKeywords_selectRow (rec : ClosedSignalRecord) (sessionDay : ℤ) :
    ClosedSignalRecord.ofKeywords (selectRow (insertedRow rec sessionDay)) =
      .ok { rec with zoneAttempt := 1 } := rfl

/-- Through the backup it comes back whole. -/
theorem fromDict_asdict (rec : ClosedSignalRecord) :
    ClosedSignalRecord.fromDict rec.asdict = .ok rec := rfl

theorem rowId_insertedRow (rec : ClosedSignalRecord) (sessionDay : ℤ) :
    rowId (insertedRow rec sessionDay) = some (.id rec.signalId) := rfl

theorem rowClosedAt_insertedRow (rec : ClosedSignalRecord) (sessionDay : ℤ) :
    rowClosedAt (insertedRow rec sessionDay) = rec.closedAt := rfl

theorem sessionDay_insertedRow (rec : ClosedSignalRecord) (sessionDay : ℤ) :
    (insertedRow rec sessionDay).lookup .sessionDay = some (.day sessionDay) := rfl

/-! ## The table -/

/-- The rows behind the closed table. -/
def rowsOf (closed : List ClosedRow) : List Cells :=
  closed.map fun r => insertedRow r.record r.sessionDay

/-- The times of a record are integers SQLite can hold. -/
def FitsSqlite (rec : ClosedSignalRecord) : Prop :=
  ∀ n ∈ [rec.htfTs, rec.ltfTs, rec.rejTs, rec.entryTs, rec.closedAt],
    -2 ^ 63 ≤ n ∧ n < 2 ^ 63

instance (rec : ClosedSignalRecord) : Decidable (FitsSqlite rec) :=
  inferInstanceAs (Decidable (∀ n ∈ _, _))

theorem all_fits_iff (rec : ClosedSignalRecord) (sessionDay : ℤ) :
    (insertValues rec sessionDay).all Cell.fits = true ↔ FitsSqlite rec := by
  simp [insertValues, Cell.fits, FitsSqlite]

theorem rowId_mem_iff :
    rowId (insertedRow rec sessionDay) ∈ keys rowId (rowsOf closed) ↔
      rec.signalId ∈ keys ClosedRow.signalId closed := by
  unfold keys rowsOf
  rw [rowId_insertedRow, List.map_map, List.mem_map, List.mem_map]
  constructor
  · rintro ⟨r, hr, heq⟩
    exact ⟨r, hr, Cell.id.inj (Option.some.inj heq)⟩
  · rintro ⟨r, hr, heq⟩
    exact ⟨r, hr, congrArg (fun i => some (Cell.id i)) heq⟩

/-- The `INSERT` of the columns is the one of the tables, where every time fits. -/
theorem insertClosedRow_rowsOf (h : FitsSqlite rec) :
    insertClosedRow (rowsOf t.closedSignals) rec sessionDay =
      .ok (rowsOf (t.insertClosed rec sessionDay).closedSignals) := by
  rw [insertClosedRow, if_pos ((all_fits_iff rec sessionDay).mpr h), insertIgnore]
  by_cases hmem : rec.signalId ∈ keys ClosedRow.signalId t.closedSignals
  · have hclosed : (t.insertClosed rec sessionDay).closedSignals = t.closedSignals := if_pos hmem
    rw [if_pos (rowId_mem_iff.mpr hmem), hclosed]
  · have hclosed : (t.insertClosed rec sessionDay).closedSignals =
        t.closedSignals ++ [⟨{ rec with zoneAttempt := 1 }, sessionDay⟩] := if_neg hmem
    rw [if_neg (mt rowId_mem_iff.mp hmem), hclosed, rowsOf, rowsOf, List.map_append]
    rfl

/-- What the `SELECT` of the columns gives. -/
theorem loadSessionRows_rowsOf (closed : List ClosedRow) (sessionDay : ℤ) :
    loadSessionRows (rowsOf closed) sessionDay =
      (orderBy (fun r => r.record.closedAt)
        (closed.filter fun r => decide (r.sessionDay = sessionDay))).map
          fun r => { r.record with zoneAttempt := 1 } := by
  have hday : ((fun row : Cells => decide (row.lookup .sessionDay = some (.day sessionDay))) ∘
      fun r : ClosedRow => insertedRow r.record r.sessionDay) =
        fun r => decide (r.sessionDay = sessionDay) := by
    funext r
    rw [Function.comp_apply, sessionDay_insertedRow]
    exact decide_eq_decide.mpr ⟨fun h => Cell.day.inj (Option.some.inj h), fun h => h ▸ rfl⟩
  unfold loadSessionRows rowsOf
  rw [List.filter_map, hday, ← map_orderBy, List.filterMap_map]
  have hread : ((fun row => (ClosedSignalRecord.ofKeywords (selectRow row)).toOption) ∘
      fun r : ClosedRow => insertedRow r.record r.sessionDay) =
        some ∘ fun r => { r.record with zoneAttempt := 1 } := by
    funext r
    rw [Function.comp_apply, ofKeywords_selectRow]
    rfl
  simp only [rowClosedAt_insertedRow]
  rw [hread]
  exact congrFun List.filterMap_eq_map _

/-- On records as the tables keep them it is the `SELECT` of the tables. -/
theorem loadSessionRows_closedSignals (h : ∀ r ∈ t.closedSignals, r.record.zoneAttempt = 1) :
    loadSessionRows (rowsOf t.closedSignals) sessionDay = t.loadClosedForSession sessionDay := by
  rw [loadSessionRows_rowsOf]
  refine List.map_congr_left fun r hr => ?_
  rw [orderBy, List.mem_insertionSort] at hr
  rw [← h r (List.mem_filter.mp hr).1]

/-- Fresh records are added one after the other, unless a time is too large. -/
theorem insertAllRows_eq_ok_iff (hnodup : (recs.map ClosedSignalRecord.signalId).Nodup)
    (hfresh : ∀ rec ∈ recs, rec.signalId ∉ t.closedIds) :
    insertAllRows (rowsOf t.closedSignals) sessionDay recs = .ok rows ↔
      (∀ rec ∈ recs, FitsSqlite rec) ∧
        rows = rowsOf (t.closedSignals ++ recs.map fun rec => ⟨rec, sessionDay⟩) := by
  induction recs generalizing t with
  | nil =>
      rw [insertAllRows, List.map_nil, List.append_nil, Except.ok.injEq, eq_comm]
      exact (and_iff_right fun _ h => absurd h List.not_mem_nil).symm
  | cons rec recs ih =>
      rw [insertAllRows, List.forall_mem_cons]
      by_cases hfits : FitsSqlite rec
      · have hnew : rec.signalId ∉ t.closedIds := hfresh rec List.mem_cons_self
        have hclosed : (t.insertClosed rec sessionDay).closedSignals =
            t.closedSignals ++ [⟨{ rec with zoneAttempt := 1 }, sessionDay⟩] := if_neg hnew
        have htail : ∀ r ∈ recs, r.signalId ∉ (t.insertClosed rec sessionDay).closedIds := by
          intro r hr hmem
          rcases mem_closedIds_insertClosed.mp hmem with heq | hmem
          · exact (List.nodup_cons.mp hnodup).1 (heq ▸ List.mem_map_of_mem hr)
          · exact hfresh r (List.mem_cons_of_mem _ hr) hmem
        have hrows : rowsOf ((t.insertClosed rec sessionDay).closedSignals ++
            recs.map fun rec => ⟨rec, sessionDay⟩) =
              rowsOf (t.closedSignals ++ (rec :: recs).map fun rec => ⟨rec, sessionDay⟩) := by
          rw [hclosed, List.map_cons, rowsOf, rowsOf, List.append_assoc, List.map_append,
            List.map_append, List.map_append]
          rfl
        rw [insertClosedRow_rowsOf hfits, and_iff_right hfits, ← hrows]
        exact ih (List.nodup_cons.mp hnodup).2 htail
      · have hraise : insertClosedRow (rowsOf t.closedSignals) rec sessionDay = .error .tooLarge :=
          if_neg (mt (all_fits_iff rec sessionDay).mp hfits)
        rw [hraise]
        exact iff_of_false (fun h => by cases h) (fun h => hfits h.1.1)

/-! ## The file -/

theorem loadRecordsFromJson_map (recs : List ClosedSignalRecord) :
    loadRecordsFromJson (some (recs.map ClosedSignalRecord.asdict)) = recs := by
  have hread : (fun d => (ClosedSignalRecord.fromDict d).toOption) ∘ ClosedSignalRecord.asdict =
      some := by
    funext rec
    rw [Function.comp_apply, fromDict_asdict]
    rfl
  rw [loadRecordsFromJson, Option.getD_some, List.filterMap_map, hread]
  exact List.filterMap_some

/-- A file that is there takes every record whose close is a datetime. -/
theorem foldl_appendRecord_some (records : List Cells) (recs : List ClosedSignalRecord) :
    recs.foldl (fun file rec => appendRecord file rec sessionStartMs) (some records) =
      some (records ++
        (recs.filter fun rec => decide (IsDatetime rec.closedAt)).map
          ClosedSignalRecord.asdict) := by
  induction recs generalizing records with
  | nil => rw [List.foldl_nil, List.filter_nil, List.map_nil, List.append_nil]
  | cons rec recs ih =>
      rw [List.foldl_cons, appendRecord]
      by_cases h : IsDatetime rec.closedAt
      · rw [if_pos h, ih, List.filter_cons_of_pos (by simpa using h), List.map_cons,
          List.append_assoc, List.singleton_append]
      · rw [if_neg h, ih, List.filter_cons_of_neg (by simpa using h)]

/-- The records that a new file of the day gives back. -/
theorem loadRecordsFromJson_foldl (recs : List ClosedSignalRecord) (sessionStartMs : ℤ) :
    loadRecordsFromJson
        (recs.foldl (fun file rec => appendRecord file rec sessionStartMs) none) =
      recs.filter fun rec => decide (IsDatetime sessionStartMs ∧ IsDatetime rec.closedAt) := by
  induction recs with
  | nil => rfl
  | cons rec recs ih =>
      rw [List.foldl_cons, appendRecord]
      by_cases h : IsDatetime sessionStartMs ∧ IsDatetime rec.closedAt
      · have hrest : ∀ r : ClosedSignalRecord,
            decide (IsDatetime sessionStartMs ∧ IsDatetime r.closedAt) =
              decide (IsDatetime r.closedAt) :=
          fun r => decide_eq_decide.mpr (and_iff_right h.1)
        rw [if_pos h, foldl_appendRecord_some, ← List.map_singleton, ← List.map_append,
          loadRecordsFromJson_map, List.filter_cons_of_pos (by simpa using h)]
        simp only [hrest, List.singleton_append]
      · rw [if_neg h, ih, List.filter_cons_of_neg (by simpa using h)]

/-! ## Both stores -/

/-- The records filed under one day come back: from the table each of them once and by closing
    time, from the backup as the list they were; both are the same records. -/
def RoundTrips (t : Tables) (sessionDay sessionStartMs : ℤ) (recs : List ClosedSignalRecord) :
    Prop :=
  ∃ rows, insertAllRows (rowsOf t.closedSignals) sessionDay recs = .ok rows ∧
    (loadSessionRows rows sessionDay).Perm recs ∧
    (loadSessionRows rows sessionDay).Pairwise (fun a b => a.closedAt ≤ b.closedAt) ∧
    ∃ file, recs.foldl (fun file rec => appendRecord file rec sessionStartMs) none = file ∧
      loadRecordsFromJson file = recs ∧
      (loadSessionRows rows sessionDay).Perm (loadRecordsFromJson file)

/-- A record that both stores can keep, in a session whose start can be written. -/
structure Storable (sessionStartMs : ℤ) (rec : ClosedSignalRecord) : Prop where
  zoneAttempt_eq : rec.zoneAttempt = 1
  fits : FitsSqlite rec
  start_datetime : IsDatetime sessionStartMs
  close_datetime : IsDatetime rec.closedAt

/-- The rows of a day that had none. -/
theorem loadSessionRows_append (hday : ∀ r ∈ t.closedSignals, r.sessionDay ≠ sessionDay)
    (recs : List ClosedSignalRecord) :
    loadSessionRows (rowsOf (t.closedSignals ++ recs.map fun rec => ⟨rec, sessionDay⟩))
        sessionDay =
      (orderBy ClosedSignalRecord.closedAt recs).map fun rec => { rec with zoneAttempt := 1 } := by
  have hrows : (t.closedSignals ++ recs.map fun rec => (⟨rec, sessionDay⟩ : ClosedRow)).filter
      (fun r => decide (r.sessionDay = sessionDay)) =
        recs.map fun rec => ⟨rec, sessionDay⟩ := by
    rw [List.filter_append, List.filter_eq_nil_iff.mpr (by simpa using hday), List.nil_append,
      List.filter_eq_self.mpr]
    intro r hr
    obtain ⟨rec, -, rfl⟩ := List.mem_map.mp hr
    exact decide_eq_true rfl
  rw [loadSessionRows_rowsOf, hrows, ← map_orderBy, List.map_map]
  rfl

/-- **The round trip of the closed records.** On a day that holds none yet, records with new and
    distinct ids come back from both stores exactly when each is storable. -/
theorem closed_roundTrip_iff (t : Tables) (sessionDay sessionStartMs : ℤ)
    (recs : List ClosedSignalRecord)
    (hday : ∀ r ∈ t.closedSignals, r.sessionDay ≠ sessionDay)
    (hfresh : ∀ rec ∈ recs, rec.signalId ∉ t.closedIds)
    (hnodup : (recs.map ClosedSignalRecord.signalId).Nodup) :
    RoundTrips t sessionDay sessionStartMs recs ↔ ∀ rec ∈ recs, Storable sessionStartMs rec := by
  have hload := loadSessionRows_append hday recs
  have hperm : (orderBy ClosedSignalRecord.closedAt recs).Perm recs := List.perm_insertionSort _ _
  constructor
  · rintro ⟨rows, hinsert, hback, -, file, rfl, hjson, -⟩ rec hrec
    rw [loadRecordsFromJson_foldl] at hjson
    obtain ⟨hfits, rfl⟩ := (insertAllRows_eq_ok_iff hnodup hfresh).mp hinsert
    have hdates := of_decide_eq_true (List.filter_eq_self.mp hjson rec hrec)
    -- every record that comes back has a first attempt
    have hmem := hback.mem_iff.mpr hrec
    rw [hload] at hmem
    obtain ⟨rec', -, rfl⟩ := List.mem_map.mp hmem
    exact ⟨rfl, hfits _ hrec, hdates.1, hdates.2⟩
  · intro hall
    have hfirst : (orderBy ClosedSignalRecord.closedAt recs).map
        (fun rec => { rec with zoneAttempt := 1 }) = orderBy ClosedSignalRecord.closedAt recs := by
      conv_rhs => rw [← List.map_id (orderBy ClosedSignalRecord.closedAt recs)]
      refine List.map_congr_left fun rec hrec => ?_
      rw [← (hall rec (hperm.mem_iff.mp hrec)).zoneAttempt_eq]
      rfl
    rw [hfirst] at hload
    have hjson : loadRecordsFromJson
        (recs.foldl (fun file rec => appendRecord file rec sessionStartMs) none) = recs := by
      rw [loadRecordsFromJson_foldl]
      exact List.filter_eq_self.mpr fun rec hrec =>
        decide_eq_true ⟨(hall rec hrec).start_datetime, (hall rec hrec).close_datetime⟩
    refine ⟨_, (insertAllRows_eq_ok_iff hnodup hfresh).mpr ⟨fun rec hrec => (hall rec hrec).fits,
      rfl⟩, ?_, ?_, _, rfl, hjson, ?_⟩
    · rw [hload]
      exact hperm
    · rw [hload]
      exact List.pairwise_insertionSort _ _
    · rw [hload, hjson]
      exact hperm

/-- A closed record of the sample trade. -/
def sampleRecord : ClosedSignalRecord where
  signalId := sampleId
  symbol := "XAUUSD"
  direction := .long
  outcome := .loss
  realizedRr := -1
  closedAt := 7800000
  htfInterval := oneHour
  ltfInterval := fiveMin

theorem sampleRecord_roundTrips : RoundTrips Tables.empty 0 0 [sampleRecord] := by
  refine (closed_roundTrip_iff Tables.empty 0 0 [sampleRecord]
    (fun r hr => absurd hr List.not_mem_nil) (fun _ _ => List.not_mem_nil) (by decide)).mpr ?_
  intro rec hrec
  obtain rfl := List.mem_singleton.mp hrec
  exact ⟨rfl, by decide, by decide, by decide⟩

/-- The second attempt on a zone. -/
def secondAttempt : ClosedSignalRecord := { sampleRecord with zoneAttempt := 2 }

/-- It comes back as the first one from the table, and as the second one from the backup. -/
theorem secondAttempt_lost :
    (∃ rows, insertAllRows [] 0 [secondAttempt] = .ok rows ∧
      (loadSessionRows rows 0).map ClosedSignalRecord.zoneAttempt = [1]) ∧
    (loadRecordsFromJson (appendRecord none secondAttempt 0)).map
      ClosedSignalRecord.zoneAttempt = [2] ∧
    ¬ RoundTrips Tables.empty 0 0 [secondAttempt] := by
  have hinsert : insertAllRows [] 0 [secondAttempt] = .ok [insertedRow secondAttempt 0] := by
    decide +kernel
  have hload : loadSessionRows [insertedRow secondAttempt 0] 0 = [sampleRecord] := by
    decide +kernel
  refine ⟨⟨_, hinsert, by rw [hload]; rfl⟩, by decide +kernel, ?_⟩
  rintro ⟨rows, hrows, hperm, -⟩
  obtain rfl := Except.ok.inj (hinsert.symm.trans hrows)
  rw [hload] at hperm
  exact absurd (List.perm_singleton.mp hperm) (by decide +kernel)

end SignalEngine
