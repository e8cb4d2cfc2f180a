/-
  Store: the SQL of `signal_store.py`, on one database.

  Model. A database is the two tables, each a `Lib.Table` keyed by the signal id. `raw_json`
  is kept as the signal `from_dict` reads back from it (`storedForm`), so that every column
  the code reads is there. `ORDER BY` is a stable sort. Dates are day numbers.
-/
import SignalEngine.Domain.Entities
import SignalEngine.Lib.Table

namespace SignalEngine

open Lib

/-! ## Rows -/

/-- `from_dict(json.loads(json.dumps(to_dict(s))))`: rounded metrics, filled-in candle times, and
    no pricing diagnostics. -/
def storedForm (s : TradeSignal) : TradeSignal :=
  { s with
    priceSourceUsed := .candleClose
    candleClosePrice := none
    liveBidAtSignal := none
    liveAskAtSignal := none
    priceDrift := none
    riskRewardRatio := pyRoundTo s.riskRewardRatio 4
    riskPips := pyRoundTo s.riskPips 6
    rejectionCandle :=
      { s.rejectionCandle with wickRatio := pyRoundTo s.rejectionCandle.wickRatio 4 }
    setupCandleOpenAt := some (pyOr s.setupCandleOpenAt s.rejectionCandle.timestamp)
    setupCandleCloseAt :=
      some (pyOr s.setupCandleCloseAt
        (s.rejectionCandle.timestamp + intervalMs s.ltfInterval)) }

/-- A row of `open_signals`. -/
structure OpenRow where
  signalId : SignalId
  symbol : String
  direction : SignalDirection
  htfInterval : Interval
  ltfInterval : Interval
  status : SignalStatus
  createdAt : ℤ
  triggeredAt : Option ℤ
  tp1HitAt : Option ℤ
  rawJson : TradeSignal
  updatedAt : ℤ
  deriving DecidableEq, Repr

/-- A row of `closed_signals`; there is no column for `zone_attempt`. -/
structure ClosedRow where
  record : ClosedSignalRecord
  sessionDay : ℤ
  deriving DecidableEq, Repr

structure Tables where
  openSignals : List OpenRow
  closedSignals : List ClosedRow
  deriving DecidableEq, Repr

def Tables.empty : Tables := ⟨[], []⟩

def ClosedRow.signalId (r : ClosedRow) : SignalId := r.record.signalId

/-- The values of an upsert. -/
def openRowOf (s : TradeSignal) (nowMs : ℤ) : OpenRow where
  signalId := s.id
  symbol := s.symbol
  direction := s.direction
  htfInterval := s.htfInterval
  ltfInterval := s.ltfInterval
  status := s.status
  createdAt := s.createdAt
  triggeredAt := s.triggeredAt
  tp1HitAt := s.tp1HitAt
  rawJson := storedForm s
  updatedAt := nowMs

/-- `ON CONFLICT(signal_id) DO UPDATE SET`. -/
def onConflict (old new : OpenRow) : OpenRow :=
  { old with
    status := new.status
    tp1HitAt := new.tp1HitAt
    rawJson := new.rawJson
    updatedAt := new.updatedAt }

/-- The columns `load_closed_for_dedup` selects; the others take their defaults. -/
def dedupColumns (r : ClosedSignalRecord) : ClosedSignalRecord where
  signalId := r.signalId
  symbol := r.symbol
  direction := r.direction
  htfInterval := r.htfInterval
  ltfInterval := r.ltfInterval
  outcome := r.outcome
  realizedRr := r.realizedRr
  htfTs := r.htfTs
  ltfTs := r.ltfTs
  rejTs := r.rejTs
  closedAt := r.closedAt

/-- `ORDER BY column`. -/
def orderBy {ρ : Type} (column : ρ → ℤ) (rows : List ρ) : List ρ :=
  rows.insertionSort (fun a b => column a ≤ column b)

theorem map_orderBy {ρ τ : Type} (f : ρ → τ) (column : τ → ℤ) (rows : List ρ) :
    (orderBy (fun r => column (f r)) rows).map f = orderBy column (rows.map f) := by
  unfold orderBy
  exact List.map_insertionSort _ _ _ _ (fun _ _ _ _ => Iff.rfl)

/-! ## Statements -/

def Tables.upsertOpen (t : Tables) (s : TradeSignal) (nowMs : ℤ) : Tables :=
  { t with openSignals := upsert OpenRow.signalId onConflict (openRowOf s nowMs) t.openSignals }

def Tables.deleteOpen (t : Tables) (id : SignalId) : Tables :=
  { t with openSignals := erase OpenRow.signalId id t.openSignals }

def Tables.insertClosed (t : Tables) (rec : ClosedSignalRecord) (sessionDay : ℤ) : Tables :=
  { t with
    closedSignals := insertIgnore ClosedRow.signalId
      ⟨{ rec with zoneAttempt := 1 }, sessionDay⟩ t.closedSignals }

def Tables.loadOpenSignals (t : Tables) : List TradeSignal :=
  (orderBy OpenRow.createdAt t.openSignals).map OpenRow.rawJson

def Tables.loadClosedForSession (t : Tables) (sessionDay : ℤ) : List ClosedSignalRecord :=
  (orderBy (fun r => r.record.closedAt)
    (t.closedSignals.filter (fun r => decide (r.sessionDay = sessionDay)))).map ClosedRow.record

def Tables.loadClosedForDedup (t : Tables) : List ClosedSignalRecord :=
  (orderBy (fun r => r.record.closedAt) t.closedSignals).map (fun r => dedupColumns r.record)

def Tables.getOpen (t : Tables) (id : SignalId) : Option TradeSignal :=
  (lookup OpenRow.signalId id t.openSignals).map OpenRow.rawJson

/-! ## Which ids a table holds -/

/-- The ids with a row in `open_signals`. -/
def Tables.openIds (t : Tables) : List SignalId := keys OpenRow.signalId t.openSignals

/-- The ids with a row in `closed_signals`. -/
def Tables.closedIds (t : Tables) : List SignalId := keys ClosedRow.signalId t.closedSignals

variable {t : Tables} {s : TradeSignal} {rec : ClosedSignalRecord} {id k : SignalId}
  {nowMs sessionDay : ℤ}

@[simp] theorem mem_openIds_upsertOpen :
    k ∈ (t.upsertOpen s nowMs).openIds ↔ k = s.id ∨ k ∈ t.openIds :=
  mem_keys_upsert (fun _ h => h)

@[simp] theorem closedIds_upsertOpen : (t.upsertOpen s nowMs).closedIds = t.closedIds := rfl

@[simp] theorem mem_openIds_deleteOpen :
    k ∈ (t.deleteOpen id).openIds ↔ k ∈ t.openIds ∧ k ≠ id :=
  mem_keys_erase

@[simp] theorem closedIds_deleteOpen : (t.deleteOpen id).closedIds = t.closedIds := rfl

@[simp] theorem openIds_insertClosed : (t.insertClosed rec sessionDay).openIds = t.openIds := rfl

@[simp] theorem mem_closedIds_insertClosed :
    k ∈ (t.insertClosed rec sessionDay).closedIds ↔ k = rec.signalId ∨ k ∈ t.closedIds :=
  mem_keys_insertIgnore

/-! ## Methods -/

/-- The methods of a `SignalStore`; `construct` is `__init__`. -/
inductive StoreOp where
  | construct
  | upsertOpen (s : TradeSignal) (nowMs : ℤ)
  | deleteOpen (id : SignalId)
  | insertClosed (rec : ClosedSignalRecord) (sessionDay : ℤ)
  | loadOpenSignals
  | loadClosedForSession (sessionDay : ℤ)
  | loadClosedForDedup
  | getOpen (id : SignalId)
  deriving DecidableEq, Repr

inductive StoreResult where
  | done
  | operationalError
  | signals (rows : List TradeSignal)
  | records (rows : List ClosedSignalRecord)
  | signal (row : Option TradeSignal)
  deriving DecidableEq, Repr

/-- A method on the database its connection is open on. -/
def StoreOp.run : StoreOp → Option Tables → Option Tables × StoreResult
  | .construct, db => (some (db.getD Tables.empty), .done)
  | _, none => (none, .operationalError)
  | .upsertOpen s nowMs, some t => (some (t.upsertOpen s nowMs), .done)
  | .deleteOpen id, some t => (some (t.deleteOpen id), .done)
  | .insertClosed rec day, some t => (some (t.insertClosed rec day), .done)
  | .loadOpenSignals, some t => (some t, .signals t.loadOpenSignals)
  | .loadClosedForSession day, some t => (some t, .records (t.loadClosedForSession day))
  | .loadClosedForDedup, some t => (some t, .records t.loadClosedForDedup)
  | .getOpen id, some t => (some t, .signal (t.getOpen id))

/-- What a method leaves of the tables of an initialised database. -/
def StoreOp.apply (op : StoreOp) (t : Tables) : Tables := (op.run (some t)).1.getD t

@[simp] theorem apply_upsertOpen (t : Tables) :
    (StoreOp.upsertOpen s nowMs).apply t = t.upsertOpen s nowMs := rfl

@[simp] theorem apply_deleteOpen (t : Tables) :
    (StoreOp.deleteOpen id).apply t = t.deleteOpen id := rfl

@[simp] theorem apply_insertClosed (t : Tables) :
    (StoreOp.insertClosed rec sessionDay).apply t = t.insertClosed rec sessionDay := rfl

end SignalEngine
