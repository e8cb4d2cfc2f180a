/-
  Consensus: `core/consensus.py` of the manager, and the router in front of it.

  Model. A payload is the fields the two read; `to_dict` always writes them. A key is the triple
  that the f-string of `_key` joins, and `_pending` a table on the key of the buffered signal.
  Times are the seconds of `time.monotonic`. `RouterEvent.drain` is one pass of `_drain_loop`.

  Proved: what each call does to the `view` of one key, the entry pending under it and the number
  of its broadcasts (`view_*`).
-/
import SignalEngine.Domain.Entities
import SignalEngine.Lib.Table

namespace SignalEngine

open Lib

/-! ## Signals and their keys -/

/-- A `signal.triggered` payload. -/
structure SignalDict where
  id : SignalId
  symbol : String
  direction : SignalDirection
  htfInterval : Interval
  ltfInterval : Interval
  setupCandleOpenAt : Option ℤ
  createdAt : Option ℤ
  broker : String
  deriving DecidableEq, Repr

/-- The fields of `to_dict` the manager reads; `broker` is `mt5_profile`. -/
def TradeSignal.toDict (s : TradeSignal) (broker : String) : SignalDict where
  id := s.id
  symbol := s.symbol
  direction := s.direction
  htfInterval := s.htfInterval
  ltfInterval := s.ltfInterval
  setupCandleOpenAt := some (pyOr s.setupCandleOpenAt s.rejectionCandle.timestamp)
  createdAt := some s.createdAt
  broker := broker

structure ConsensusKey where
  symbol : String
  direction : SignalDirection
  ts : ℤ
  deriving DecidableEq, Repr

/-- `_key`. -/
def SignalDict.key (signal : SignalDict) : ConsensusKey :=
  ⟨signal.symbol, signal.direction, pyOr signal.setupCandleOpenAt (pyOr signal.createdAt 0)⟩

/-- `_Pending`. -/
structure Pending where
  signal : SignalDict
  brokers : List String
  expiresAt : ℚ
  deriving DecidableEq, Repr

def Pending.key (p : Pending) : ConsensusKey := p.signal.key

/-- `{**signal, "consensus": brokers}`. -/
structure ConsensusSignal where
  signal : SignalDict
  consensus : List String
  deriving DecidableEq, Repr

def Pending.emitted (p : Pending) : ConsensusSignal := ⟨p.signal, p.brokers⟩

/-! ## The engine -/

structure ConsensusEngine where
  window : ℚ
  pending : List Pending
  nodup : (keys Pending.key pending).Nodup

def ConsensusEngine.new (windowMs : ℤ) : ConsensusEngine := ⟨windowMs / 1000, [], List.nodup_nil⟩

/-- `self._pending[key] = p`. -/
def ConsensusEngine.buffer (e : ConsensusEngine) (p : Pending) : ConsensusEngine :=
  { e with pending := put Pending.key p e.pending, nodup := nodup_keys_put e.nodup }

/-- `del self._pending[key]`. -/
def ConsensusEngine.delete (e : ConsensusEngine) (k : ConsensusKey) : ConsensusEngine :=
  { e with pending := erase Pending.key k e.pending, nodup := nodup_keys_erase e.nodup }

def ConsensusEngine.push (e : ConsensusEngine) (signal : SignalDict) (broker : String) (now : ℚ) :
    ConsensusEngine × Option ConsensusSignal :=
  match lookup Pending.key signal.key e.pending with
  | some existing =>
      -- a duplicate of the same engine is ignored, a second broker completes the consensus
      if broker ∈ existing.brokers then (e, none)
      else (e.delete signal.key, some ⟨existing.signal, existing.brokers ++ [broker]⟩)
  | none => (e.buffer ⟨signal, [broker], now + e.window⟩, none)

def Pending.isExpired (now : ℚ) (p : Pending) : Bool := decide (p.expiresAt ≤ now)

def ConsensusEngine.drainExpired (e : ConsensusEngine) (now : ℚ) :
    ConsensusEngine × List ConsensusSignal :=
  ({ e with
      pending := e.pending.filter (fun p => !p.isExpired now)
      nodup := List.Nodup.sublist (List.Sublist.map _ List.filter_sublist) e.nodup },
    (e.pending.filter (Pending.isExpired now)).map Pending.emitted)

/-! ## The router -/

/-- `broadcasts` are the calls of `gateway.broadcast`, `events` those of `broadcast_event`. -/
structure Router where
  engine : ConsensusEngine
  broadcasts : List ConsensusSignal := []
  events : List (SignalEvent × SignalDict) := []

inductive RouterEvent where
  | onSignal (event : SignalEvent) (payload : SignalDict) (broker : String) (now : ℚ)
  | drain (now : ℚ)
  deriving DecidableEq, Repr

def Router.onSignal (R : Router) (event : SignalEvent) (payload : SignalDict) (broker : String)
    (now : ℚ) : Router :=
  let payload := { payload with broker := broker }
  if event = .signalTriggered then
    { R with
      engine := (R.engine.push payload broker now).1
      broadcasts := R.broadcasts ++ (R.engine.push payload broker now).2.toList }
  else { R with events := R.events ++ [(event, payload)] }

def Router.drain (R : Router) (now : ℚ) : Router :=
  { R with
    engine := (R.engine.drainExpired now).1
    broadcasts := R.broadcasts ++ (R.engine.drainExpired now).2 }

def Router.apply (R : Router) : RouterEvent → Router
  | .onSignal event payload broker now => R.onSignal event payload broker now
  | .drain now => R.drain now

def runRouter (windowMs : ℤ) (events : List RouterEvent) : Router :=
  events.foldl Router.apply { engine := .new windowMs }

/-- A signal with the broker and the time of its push. -/
structure Push where
  signal : SignalDict
  broker : String
  now : ℚ
  deriving DecidableEq, Repr

def RouterEvent.push : RouterEvent → Option Push
  | .onSignal event payload broker now =>
      if event = .signalTriggered then some ⟨{ payload with broker := broker }, broker, now⟩
      else none
  | .drain _ => none

/-- The pushes of a run. -/
def pushesIn (events : List RouterEvent) : List Push := events.filterMap RouterEvent.push

/-! ## One key -/

/-- The entry pending under a key. -/
def ConsensusEngine.slot (e : ConsensusEngine) (k : ConsensusKey) : Option Pending :=
  lookup Pending.key k e.pending

/-- How often a signal of the key has been broadcast. -/
def Router.broadcastsOf (R : Router) (k : ConsensusKey) : ℕ :=
  R.broadcasts.countP (fun s => decide (s.signal.key = k))

variable {e : ConsensusEngine} {R : Router} {k : ConsensusKey} {signal payload : SignalDict}
  {broker : String} {now : ℚ} {windowMs : ℤ} {p : Pending} {n : ℕ} {events : List RouterEvent}

theorem slot_eq_some (h : e.slot k = some p) : p ∈ e.pending ∧ p.key = k := lookup_eq_some h

theorem push_none (h : e.slot signal.key = none) (broker : String) (now : ℚ) :
    e.push signal broker now = (e.buffer ⟨signal, [broker], now + e.window⟩, none) := by
  rw [ConsensusEngine.slot] at h
  rw [ConsensusEngine.push, h]

theorem push_again (h : e.slot signal.key = some p) (hbroker : broker ∈ p.brokers) (now : ℚ) :
    e.push signal broker now = (e, none) := by
  rw [ConsensusEngine.slot] at h
  rw [ConsensusEngine.push, h]
  exact if_pos hbroker

theorem push_second (h : e.slot signal.key = some p) (hbroker : broker ∉ p.brokers) (now : ℚ) :
    e.push signal broker now = (e.delete signal.key, some ⟨p.signal, p.brokers ++ [broker]⟩) := by
  rw [ConsensusEngine.slot] at h
  rw [ConsensusEngine.push, h]
  exact if_neg hbroker

theorem slot_buffer : (e.buffer p).slot k = if p.key = k then some p else e.slot k := lookup_put

theorem slot_delete {k' : ConsensusKey} :
    (e.delete k').slot k = if k = k' then none else e.slot k := lookup_erase

theorem slot_drainExpired :
    (e.drainExpired now).1.slot k = (e.slot k).filter (fun p => !p.isExpired now) :=
  lookup_filter e.nodup _

theorem countP_drainExpired :
    (e.drainExpired now).2.countP (fun s => decide (s.signal.key = k)) =
      if ((e.slot k).filter (Pending.isExpired now)).isSome then 1 else 0 := by
  have hnodup : (keys Pending.key (e.pending.filter (Pending.isExpired now))).Nodup :=
    List.Nodup.sublist (List.Sublist.map _ List.filter_sublist) e.nodup
  rw [ConsensusEngine.slot, ← lookup_filter e.nodup, ← countP_key_of_nodup hnodup,
    ConsensusEngine.drainExpired, List.countP_map]
  rfl

/-- What the router shows of a key: the entry pending under it, and its broadcasts. -/
def Router.view (R : Router) (k : ConsensusKey) : Option Pending × ℕ :=
  (R.engine.slot k, R.broadcastsOf k)

/-- The event pushes a signal of the key. -/
def RouterEvent.pushes (k : ConsensusKey) : RouterEvent → Bool
  | .onSignal event payload _ _ => decide (event = .signalTriggered ∧ payload.key = k)
  | .drain _ => false

/-- The event is a drain after the window has closed. -/
def RouterEvent.drains (closes : ℚ) : RouterEvent → Bool
  | .onSignal _ _ _ _ => false
  | .drain now => decide (closes ≤ now)

theorem view_onSignal_other {event : SignalEvent}
    (h : RouterEvent.pushes k (.onSignal event payload broker now) = false) :
    (R.onSignal event payload broker now).view k = R.view k := by
  rw [RouterEvent.pushes, decide_eq_false_iff_not, not_and] at h
  unfold Router.onSignal
  by_cases hevent : event = .signalTriggered
  · have hkey : ({ payload with broker := broker } : SignalDict).key ≠ k := h hevent
    dsimp only
    rw [if_pos hevent]
    generalize ({ payload with broker := broker } : SignalDict) = signal at hkey ⊢
    cases hslot : R.engine.slot signal.key with
    | none =>
        rw [push_none hslot]
        simp [Router.view, Router.broadcastsOf, slot_buffer, Pending.key, hkey]
    | some p =>
        have hp : p.signal.key ≠ k := by
          rw [← (slot_eq_some hslot).2] at hkey
          exact hkey
        by_cases hbroker : broker ∈ p.brokers
        · rw [push_again hslot hbroker]
          simp [Router.view, Router.broadcastsOf]
        · rw [push_second hslot hbroker]
          simp [Router.view, Router.broadcastsOf, slot_delete, Ne.symm hkey, hp]
  · dsimp only
    rw [if_neg hevent]
    rfl

theorem view_push_none (hkey : payload.key = k) (h : R.view k = (none, n)) (broker : String)
    (now : ℚ) :
    (R.onSignal .signalTriggered payload broker now).view k =
      (some ⟨{ payload with broker := broker }, [broker], now + R.engine.window⟩, n) := by
  obtain ⟨hslot, rfl⟩ := Prod.mk.inj h
  have hkey' : ({ payload with broker := broker } : SignalDict).key = k := hkey
  have hpush := push_none (hkey' ▸ hslot) broker now
  rw [Router.onSignal, if_pos rfl, hpush]
  simp [Router.view, Router.broadcastsOf, slot_buffer, Pending.key, hkey']

theorem view_push_some (hkey : payload.key = k) (h : R.view k = (some p, n)) (broker : String)
    (now : ℚ) :
    (R.onSignal .signalTriggered payload broker now).view k =
      if broker ∈ p.brokers then (some p, n) else (none, n + 1) := by
  obtain ⟨hslot, rfl⟩ := Prod.mk.inj h
  have hkey' : ({ payload with broker := broker } : SignalDict).key = k := hkey
  have hp : p.signal.key = k := (slot_eq_some hslot).2
  rw [Router.onSignal, if_pos rfl]
  split
  · next hbroker =>
      rw [push_again (hkey' ▸ hslot) hbroker]
      simp [Router.view, Router.broadcastsOf, hslot]
  · next hbroker =>
      rw [push_second (hkey' ▸ hslot) hbroker]
      simp [Router.view, Router.broadcastsOf, slot_delete, hkey', hp]

theorem view_drain_none (h : R.view k = (none, n)) : (R.drain now).view k = (none, n) := by
  obtain ⟨hslot, rfl⟩ := Prod.mk.inj h
  rw [Router.view, Router.drain]
  dsimp only
  rw [slot_drainExpired, hslot, Router.broadcastsOf, List.countP_append, countP_drainExpired, hslot]
  rfl

theorem view_drain_some (h : R.view k = (some p, n)) :
    (R.drain now).view k = if p.expiresAt ≤ now then (none, n + 1) else (some p, n) := by
  obtain ⟨hslot, rfl⟩ := Prod.mk.inj h
  rw [Router.view, Router.drain]
  dsimp only
  rw [slot_drainExpired, hslot, Router.broadcastsOf, List.countP_append, countP_drainExpired, hslot]
  by_cases hnow : p.expiresAt ≤ now
  · simp [Option.filter, Pending.isExpired, hnow, Router.broadcastsOf]
  · simp [Option.filter, Pending.isExpired, hnow, Router.broadcastsOf]

end SignalEngine
