/-
  Scheduler: the candle scheduler of `interfaces/scheduler.py`, its threads and its callbacks.

  Model. Every block under the lock is one event. A timer thread is armed, then woken, and only
  an armed one can be cancelled; `_run` is entered by a woken one. A callback is launching from
  the moment `is_running` is set, in flight from `run_coroutine_threadsafe` to the end of the
  coroutine, and finished until its `_on_done` has the lock. An event that is not enabled
  changes nothing, so every list of events is an interleaving. `upper` is `str.upper`; how
  long a timer waits is left to the events.

  Proved: `OneActive` is kept by every event but the creation of a schedule while a callback of
  the symbol is active, so `oneInFlight_of_quiet`.
-/
import SignalEngine.Lib.Loop
import SignalEngine.Lib.Table

namespace SignalEngine

open Lib

/-! ## State -/

/-- `SymbolSchedule`; the timer is given by its id. -/
structure SymbolSchedule where
  symbol : String
  isRunning : Bool := false
  timer : Option ℕ := none
  subscriberIds : Finset String := ∅
  deriving DecidableEq

/-- A started `threading.Timer`. -/
structure Timer where
  id : ℕ
  symbol : String
  woken : Bool := false
  deriving DecidableEq, Repr

inductive CallbackPhase where
  | launching
  | inFlight
  | finished
  deriving DecidableEq, Repr

/-- One call of the analysis callback. -/
structure Callback where
  id : ℕ
  symbol : String
  phase : CallbackPhase
  deriving DecidableEq, Repr

structure Scheduler where
  schedules : List SymbolSchedule := []
  timers : List Timer := []
  callbacks : List Callback := []
  nextId : ℕ := 0
  deriving DecidableEq

/-- `self._schedules.get(symbol)`. -/
def Scheduler.schedule (S : Scheduler) (symbol : String) : Option SymbolSchedule :=
  lookup SymbolSchedule.symbol symbol S.schedules

def Scheduler.setSchedule (S : Scheduler) (sch : SymbolSchedule) : Scheduler :=
  { S with schedules := put SymbolSchedule.symbol sch S.schedules }

/-- A new timer, started; its id is the old `nextId`. -/
def Scheduler.startTimer (S : Scheduler) (symbol : String) : Scheduler :=
  { S with timers := S.timers ++ [⟨S.nextId, symbol, false⟩], nextId := S.nextId + 1 }

/-! ## Operations -/

/-- The loop body of `subscribe`. -/
def Scheduler.subscribeOne (subscriber : String) (S : Scheduler) (symbol : String) : Scheduler :=
  match S.schedule symbol with
  | some sch => S.setSchedule { sch with subscriberIds := insert subscriber sch.subscriberIds }
  | none =>
      (S.startTimer symbol).setSchedule
        { symbol := symbol, timer := some S.nextId, subscriberIds := {subscriber} }

def Scheduler.subscribe (upper : String → String) (subscriber : String) (symbols : List String)
    (S : Scheduler) : Scheduler :=
  (symbols.map upper).foldl (Scheduler.subscribeOne subscriber) S

def Scheduler.addSymbols (upper : String → String) (subscriber : String) (symbols : List String)
    (S : Scheduler) : Scheduler :=
  S.subscribe upper subscriber symbols

/-- `_cancel`. -/
def Scheduler.cancel (S : Scheduler) (symbol : String) : Scheduler :=
  match S.schedule symbol with
  | none => S
  | some sch =>
      { S with
        schedules := erase SymbolSchedule.symbol symbol S.schedules
        timers := S.timers.filter (fun t => t.woken || decide (sch.timer ≠ some t.id)) }

/-- The loop body of `unsubscribe` and of `remove_symbols`. -/
def Scheduler.discard (subscriber : String) (S : Scheduler) (symbol : String) : Scheduler :=
  match S.schedule symbol with
  | none => S
  | some sch =>
      let left := sch.subscriberIds.erase subscriber
      let S := S.setSchedule { sch with subscriberIds := left }
      if left = ∅ then S.cancel symbol else S

def Scheduler.unsubscribe (subscriber : String) (S : Scheduler) : Scheduler :=
  (keys SymbolSchedule.symbol S.schedules).foldl (Scheduler.discard subscriber) S

def Scheduler.removeSymbols (upper : String → String) (subscriber : String)
    (symbols : List String) (S : Scheduler) : Scheduler :=
  (symbols.map upper).foldl (Scheduler.discard subscriber) S

def Scheduler.shutdown (S : Scheduler) : Scheduler :=
  (keys SymbolSchedule.symbol S.schedules).foldl Scheduler.cancel S

/-- `_schedule_next`. -/
def Scheduler.scheduleNext (S : Scheduler) (symbol : String) : Scheduler :=
  match S.schedule symbol with
  | none => S.startTimer symbol
  | some sch => (S.startTimer symbol).setSchedule { sch with timer := some S.nextId }

/-- `_run` once it has passed its checks: the flag is set and the callback is on its way. -/
def Scheduler.launch (S : Scheduler) (sch : SymbolSchedule) : Scheduler :=
  { schedules := put SymbolSchedule.symbol { sch with isRunning := true } S.schedules
    timers := S.timers
    callbacks := S.callbacks ++ [⟨S.nextId, sch.symbol, .launching⟩]
    nextId := S.nextId + 1 }

/-- `_run` under its lock, entered by a woken timer; `closed` is the weekend check. -/
def Scheduler.runTimer (id : ℕ) (closed : Bool) (S : Scheduler) : Scheduler :=
  match lookup Timer.id id S.timers with
  | none => S
  | some t =>
      if t.woken then
        let S := { S with timers := erase Timer.id id S.timers }
        match S.schedule t.symbol with
        | none => S
        | some sch =>
            if sch.isRunning then S
            else if closed then S.scheduleNext t.symbol
            else S.launch sch
      else S

/-- The wait of a timer is over. -/
def Scheduler.wakeTimer (id : ℕ) (S : Scheduler) : Scheduler :=
  { S with timers := S.timers.map (fun t => if t.id = id then { t with woken := true } else t) }

/-- A callback that is in phase `old` moves on to phase `new`. -/
def Scheduler.advanceCallback (id : ℕ) (old new : CallbackPhase) (S : Scheduler) : Scheduler :=
  { S with
    callbacks := S.callbacks.map (fun c =>
      if c.id = id ∧ c.phase = old then { c with phase := new } else c) }

/-- `_on_done`; `fut.exception()` raises on a cancelled future. -/
def Scheduler.onDone (id : ℕ) (cancelled : Bool) (S : Scheduler) : Scheduler :=
  match lookup Callback.id id S.callbacks with
  | none => S
  | some c =>
      if c.phase = .finished then
        let S := { S with callbacks := erase Callback.id id S.callbacks }
        match S.schedule c.symbol with
        | none => S
        | some sch =>
            if cancelled then S
            else (S.setSchedule { sch with isRunning := false }).scheduleNext c.symbol
      else S

/-! ## Events -/

inductive SchedulerEvent where
  | subscribe (subscriber : String) (symbols : List String)
  | unsubscribe (subscriber : String)
  | addSymbols (subscriber : String) (symbols : List String)
  | removeSymbols (subscriber : String) (symbols : List String)
  | shutdown
  | wakeTimer (id : ℕ)
  | runTimer (id : ℕ) (closed : Bool)
  | submit (id : ℕ)
  | complete (id : ℕ)
  | onDone (id : ℕ) (cancelled : Bool)
  deriving DecidableEq, Repr

def Scheduler.apply (upper : String → String) (S : Scheduler) : SchedulerEvent → Scheduler
  | .subscribe subscriber symbols => S.subscribe upper subscriber symbols
  | .unsubscribe subscriber => S.unsubscribe subscriber
  | .addSymbols subscriber symbols => S.addSymbols upper subscriber symbols
  | .removeSymbols subscriber symbols => S.removeSymbols upper subscriber symbols
  | .shutdown => S.shutdown
  | .wakeTimer id => S.wakeTimer id
  | .runTimer id closed => S.runTimer id closed
  | .submit id => S.advanceCallback id .launching .inFlight
  | .complete id => S.advanceCallback id .inFlight .finished
  | .onDone id cancelled => S.onDone id cancelled

/-- A run of a new scheduler. -/
def runScheduler (upper : String → String) (events : List SchedulerEvent) : Scheduler :=
  events.foldl (Scheduler.apply upper) {}

/-- The callbacks of the symbol that run on the event loop. -/
def Scheduler.inFlight (S : Scheduler) (symbol : String) : ℕ :=
  S.callbacks.countP (fun c => decide (c.symbol = symbol ∧ c.phase = .inFlight))

/-- The callbacks of the symbol that have not been through `_on_done`. -/
def Scheduler.active (S : Scheduler) (symbol : String) : ℕ :=
  S.callbacks.countP (fun c => decide (c.symbol = symbol))

/-- No schedule is created for a symbol with an active callback. -/
def QuietStep (upper : String → String) (S : Scheduler) : SchedulerEvent → Prop
  | .subscribe _ symbols | .addSymbols _ symbols =>
      ∀ symbol ∈ symbols, S.schedule (upper symbol) = none → S.active (upper symbol) = 0
  | _ => True

instance (upper : String → String) (S : Scheduler) (e : SchedulerEvent) :
    Decidable (QuietStep upper S e) :=
  match e with
  | .subscribe _ symbols | .addSymbols _ symbols =>
      inferInstanceAs (Decidable (∀ symbol ∈ symbols,
        S.schedule (upper symbol) = none → S.active (upper symbol) = 0))
  | .unsubscribe _ | .removeSymbols _ _ | .shutdown | .wakeTimer _ | .runTimer _ _ | .submit _
  | .complete _ | .onDone _ _ => instDecidableTrue

/-- Every step of the run is quiet. -/
def QuietRun (upper : String → String) (events : List SchedulerEvent) : Prop :=
  ∀ n, (hn : n < events.length) →
    QuietStep upper (runScheduler upper (events.take n)) events[n]

instance (upper : String → String) (events : List SchedulerEvent) :
    Decidable (QuietRun upper events) :=
  inferInstanceAs (Decidable (∀ n, (hn : n < events.length) →
    QuietStep upper (runScheduler upper (events.take n)) events[n]))

/-! ## One active callback -/

structure OneActive (S : Scheduler) : Prop where
  active_le : ∀ symbol, S.active symbol ≤ 1
  running : ∀ symbol sch, S.schedule symbol = some sch → S.active symbol ≠ 0 →
    sch.isRunning = true

variable {upper : String → String} {S S' S'' : Scheduler} {symbol other : String}

theorem inFlight_le_active (S : Scheduler) (symbol : String) :
    S.inFlight symbol ≤ S.active symbol := by
  refine List.countP_mono_left (fun c _ hc => ?_)
  rw [decide_eq_true_eq] at hc ⊢
  exact hc.1

/-- The callbacks are the same, and every schedule keeps its flag or belongs to a symbol without
    an active callback. -/
structure Undisturbed (S S' : Scheduler) : Prop where
  callbacks_eq : S'.callbacks = S.callbacks
  flag_eq : ∀ symbol sch', S'.schedule symbol = some sch' →
    (∃ sch, S.schedule symbol = some sch ∧ sch'.isRunning = sch.isRunning) ∨ S.active symbol = 0

theorem Undisturbed.active_eq (h : Undisturbed S S') (symbol : String) :
    S'.active symbol = S.active symbol := by
  rw [Scheduler.active, Scheduler.active, h.callbacks_eq]

theorem Undisturbed.refl (S : Scheduler) : Undisturbed S S :=
  ⟨rfl, fun _ sch h => Or.inl ⟨sch, h, rfl⟩⟩

theorem Undisturbed.trans (h : Undisturbed S S') (h' : Undisturbed S' S'') :
    Undisturbed S S'' := by
  refine ⟨h'.callbacks_eq.trans h.callbacks_eq, fun symbol sch'' hsch => ?_⟩
  rcases h'.flag_eq symbol sch'' hsch with ⟨sch', hsch', hflag⟩ | hidle
  · rcases h.flag_eq symbol sch' hsch' with ⟨sch, hsch, hflag'⟩ | hidle
    · exact Or.inl ⟨sch, hsch, hflag.trans hflag'⟩
    · exact Or.inr hidle
  · exact Or.inr (by rw [← h.active_eq, hidle])

theorem Undisturbed.foldl {α : Type} {step : Scheduler → α → Scheduler}
    (hstep : ∀ S a, Undisturbed S (step S a)) (S : Scheduler) (xs : List α) :
    Undisturbed S (xs.foldl step S) := by
  induction xs generalizing S with
  | nil => exact .refl S
  | cons x xs ih => exact (hstep S x).trans (ih _)

theorem OneActive.undisturbed (h : OneActive S) (hS : Undisturbed S S') : OneActive S' := by
  constructor
  · intro symbol
    rw [hS.active_eq]
    exact h.active_le symbol
  · intro symbol sch' hsch hactive
    rw [hS.active_eq] at hactive
    rcases hS.flag_eq symbol sch' hsch with ⟨sch, hsch, hflag⟩ | hidle
    · rw [hflag]
      exact h.running symbol sch hsch hactive
    · exact absurd hidle hactive

/-! ### Single writes -/

theorem schedule_setSchedule (S : Scheduler) (sch : SymbolSchedule) (symbol : String) :
    (S.setSchedule sch).schedule symbol =
      if sch.symbol = symbol then some sch else S.schedule symbol :=
  lookup_put

theorem schedule_symbol {sch : SymbolSchedule} (h : S.schedule symbol = some sch) :
    sch.symbol = symbol :=
  (lookup_eq_some h).2

theorem schedule_launch (S : Scheduler) (sch : SymbolSchedule) (symbol : String) :
    (S.launch sch).schedule symbol =
      if sch.symbol = symbol then some { sch with isRunning := true } else S.schedule symbol :=
  schedule_setSchedule S { sch with isRunning := true } symbol

theorem active_launch (S : Scheduler) (sch : SymbolSchedule) (symbol : String) :
    (S.launch sch).active symbol = S.active symbol + if sch.symbol = symbol then 1 else 0 := by
  show List.countP _ (S.callbacks ++ [_]) = _
  rw [List.countP_append, List.countP_singleton]
  simp only [decide_eq_true_eq]
  rfl

theorem schedule_cancel {sch : SymbolSchedule} (h : (S.cancel symbol).schedule other = some sch) :
    other ≠ symbol ∧ S.schedule other = some sch := by
  unfold Scheduler.cancel at h
  split at h
  · next hnone =>
      refine ⟨fun heq => ?_, h⟩
      rw [heq, hnone] at h
      cases h
  · rw [Scheduler.schedule, lookup_erase] at h
    split at h
    · cases h
    · next hne => exact ⟨hne, h⟩

/-- A schedule found after one is written back is that one, or it was there before. -/
theorem schedule_of_setSchedule {sch sch' found : SymbolSchedule} {other : String}
    (h : S.schedule symbol = some sch) (hsymbol : sch'.symbol = sch.symbol)
    (hfound : (S.setSchedule sch').schedule other = some found) :
    found = sch' ∧ S.schedule other = some sch ∨ S.schedule other = some found := by
  rw [schedule_setSchedule, hsymbol, schedule_symbol h] at hfound
  split at hfound
  · next heq => exact Or.inl ⟨(Option.some.inj hfound).symm, heq ▸ h⟩
  · exact Or.inr hfound

/-- Writing a schedule back with its flag unchanged. -/
theorem undisturbed_setSchedule {sch sch' : SymbolSchedule} (h : S.schedule symbol = some sch)
    (hsymbol : sch'.symbol = sch.symbol) (hflag : sch'.isRunning = sch.isRunning) :
    Undisturbed S (S.setSchedule sch') := by
  refine ⟨rfl, fun other sch'' hsch => ?_⟩
  rcases schedule_of_setSchedule h hsymbol hsch with ⟨rfl, hbefore⟩ | hbefore
  · exact Or.inl ⟨sch, hbefore, hflag⟩
  · exact Or.inl ⟨sch'', hbefore, rfl⟩

theorem undisturbed_timers (S : Scheduler) (timers : List Timer) (nextId : ℕ) :
    Undisturbed S { S with timers := timers, nextId := nextId } :=
  ⟨rfl, fun _ sch h => Or.inl ⟨sch, h, rfl⟩⟩

theorem undisturbed_cancel (S : Scheduler) (symbol : String) :
    Undisturbed S (S.cancel symbol) := by
  refine ⟨?_, fun other sch' hsch => Or.inl ⟨sch', (schedule_cancel hsch).2, rfl⟩⟩
  unfold Scheduler.cancel
  split <;> rfl

theorem undisturbed_discard (subscriber : String) (S : Scheduler) (symbol : String) :
    Undisturbed S (S.discard subscriber symbol) := by
  unfold Scheduler.discard
  split
  · exact .refl S
  next sch hsch =>
  have hset : Undisturbed S
      (S.setSchedule { sch with subscriberIds := sch.subscriberIds.erase subscriber }) :=
    undisturbed_setSchedule hsch rfl rfl
  dsimp only
  split
  · exact hset.trans (undisturbed_cancel _ _)
  · exact hset

theorem undisturbed_scheduleNext (S : Scheduler) (symbol : String) :
    Undisturbed S (S.scheduleNext symbol) := by
  unfold Scheduler.scheduleNext
  split
  · exact undisturbed_timers S _ _
  next sch hsch =>
  have hstarted : (S.startTimer symbol).schedule symbol = some sch := hsch
  refine Undisturbed.trans (undisturbed_timers S _ _ : Undisturbed S (S.startTimer symbol)) ?_
  exact undisturbed_setSchedule hstarted rfl rfl

theorem undisturbed_subscribeOne (subscriber : String)
    (h : S.schedule symbol = none → S.active symbol = 0) :
    Undisturbed S (S.subscribeOne subscriber symbol) := by
  unfold Scheduler.subscribeOne
  split
  · next sch hsch => exact undisturbed_setSchedule hsch rfl rfl
  next hnone =>
  refine ⟨rfl, fun other sch' hsch => ?_⟩
  rw [schedule_setSchedule] at hsch
  split at hsch
  · next heq => exact Or.inr (heq ▸ h hnone)
  · exact Or.inl ⟨sch', hsch, rfl⟩

/-- Subscribing never removes a schedule. -/
theorem schedule_subscribeOne_none {subscriber other : String}
    (h : (S.subscribeOne subscriber other).schedule symbol = none) : S.schedule symbol = none := by
  unfold Scheduler.subscribeOne at h
  split at h
  · rw [schedule_setSchedule] at h
    split at h
    · cases h
    · exact h
  · rw [schedule_setSchedule] at h
    split at h
    · cases h
    · exact h

theorem undisturbed_subscribe (subscriber : String) {symbols : List String}
    (h : ∀ symbol ∈ symbols, S.schedule (upper symbol) = none → S.active (upper symbol) = 0) :
    Undisturbed S (S.subscribe upper subscriber symbols) := by
  unfold Scheduler.subscribe
  induction symbols generalizing S with
  | nil => exact .refl S
  | cons symbol symbols ih =>
      have hone := undisturbed_subscribeOne subscriber (h symbol List.mem_cons_self)
      rw [List.map_cons, List.foldl_cons]
      refine hone.trans (ih (fun other hother hnone => ?_))
      rw [hone.active_eq]
      exact h other (List.mem_cons_of_mem _ hother) (schedule_subscribeOne_none hnone)

/-! ### The callbacks -/

/-- A launch happens under a free flag, so nothing of the symbol is active. -/
theorem OneActive.launch (h : OneActive S) {sch : SymbolSchedule}
    (hsch : S.schedule symbol = some sch) (hflag : ¬ sch.isRunning = true) :
    OneActive (S.launch sch) := by
  have hsymbol := schedule_symbol hsch
  have hidle : S.active sch.symbol = 0 := by
    by_contra hactive
    rw [hsymbol] at hactive
    exact hflag (h.running symbol sch hsch hactive)
  constructor
  · intro other
    have hle := h.active_le other
    rw [active_launch]
    split
    · next heq => rw [← heq, hidle]
    · exact hle
  · intro other sch' hsch' hne
    rw [schedule_launch] at hsch'
    split at hsch'
    · cases hsch'
      rfl
    · next hother =>
        rw [active_launch, if_neg hother] at hne
        exact h.running other sch' hsch' hne

theorem OneActive.runTimer (h : OneActive S) (id : ℕ) (closed : Bool) :
    OneActive (S.runTimer id closed) := by
  unfold Scheduler.runTimer
  split
  · exact h
  next t ht =>
  split
  swap
  · exact h
  have herased := h.undisturbed (undisturbed_timers S (erase Timer.id id S.timers) S.nextId)
  dsimp only
  split
  · exact herased
  next sch hsch =>
  split
  · exact herased
  next hflag =>
  split
  · exact herased.undisturbed (undisturbed_scheduleNext _ _)
  · exact herased.launch hsch hflag

theorem active_advanceCallback (S : Scheduler) (id : ℕ) (old new : CallbackPhase)
    (symbol : String) : (S.advanceCallback id old new).active symbol = S.active symbol := by
  show List.countP _ (S.callbacks.map _) = _
  rw [List.countP_map]
  refine List.countP_congr (fun c _ => ?_)
  dsimp only [Function.comp_apply]
  split <;> exact Iff.rfl

theorem OneActive.advanceCallback (h : OneActive S) (id : ℕ) (old new : CallbackPhase) :
    OneActive (S.advanceCallback id old new) := by
  constructor
  · intro symbol
    rw [active_advanceCallback]
    exact h.active_le symbol
  · intro symbol sch hsch hactive
    rw [active_advanceCallback] at hactive
    exact h.running symbol sch hsch hactive

/-- The flag is cleared by the only active callback. -/
theorem OneActive.onDone (h : OneActive S) (id : ℕ) (cancelled : Bool) :
    OneActive (S.onDone id cancelled) := by
  unfold Scheduler.onDone
  split
  · exact h
  next c hc =>
  split
  swap
  · exact h
  have hle : ∀ symbol, Scheduler.active
      { S with callbacks := erase Callback.id id S.callbacks } symbol ≤ S.active symbol :=
    fun symbol => List.Sublist.countP_le List.filter_sublist
  have hidle : Scheduler.active
      { S with callbacks := erase Callback.id id S.callbacks } c.symbol = 0 := by
    have hlt : Scheduler.active { S with callbacks := erase Callback.id id S.callbacks } c.symbol <
        S.active c.symbol :=
      countP_erase_lt (lookup_eq_some hc).1 (lookup_eq_some hc).2 (decide_eq_true rfl)
    have hone := h.active_le c.symbol
    omega
  have herased : OneActive { S with callbacks := erase Callback.id id S.callbacks } := by
    constructor
    · exact fun symbol => (hle symbol).trans (h.active_le symbol)
    · intro symbol sch hsch hactive
      refine h.running symbol sch hsch ?_
      have := hle symbol
      omega
  dsimp only
  split
  · exact herased
  next sch hsch =>
  split
  · exact herased
  refine OneActive.undisturbed ?_ (undisturbed_scheduleNext _ _)
  refine herased.undisturbed ⟨rfl, fun symbol sch' hsch' => ?_⟩
  rw [schedule_setSchedule, schedule_symbol hsch] at hsch'
  split at hsch'
  · next heq => exact Or.inr (heq ▸ hidle)
  · exact Or.inl ⟨sch', hsch', rfl⟩

/-! ## Runs -/

theorem OneActive.apply (h : OneActive S) {e : SchedulerEvent} (hquiet : QuietStep upper S e) :
    OneActive (S.apply upper e) := by
  cases e with
  | subscribe subscriber symbols => exact h.undisturbed (undisturbed_subscribe subscriber hquiet)
  | unsubscribe subscriber =>
      exact h.undisturbed (.foldl (undisturbed_discard subscriber) S _)
  | addSymbols subscriber symbols => exact h.undisturbed (undisturbed_subscribe subscriber hquiet)
  | removeSymbols subscriber symbols =>
      exact h.undisturbed (.foldl (undisturbed_discard subscriber) S _)
  | shutdown => exact h.undisturbed (.foldl undisturbed_cancel S _)
  | wakeTimer id => exact h.undisturbed (undisturbed_timers S _ S.nextId)
  | runTimer id closed => exact h.runTimer id closed
  | submit id => exact h.advanceCallback id _ _
  | complete id => exact h.advanceCallback id _ _
  | onDone id cancelled => exact h.onDone id cancelled

theorem oneActive_of_quiet {events : List SchedulerEvent} (h : QuietRun upper events) (n : ℕ) :
    OneActive (runScheduler upper (events.take n)) := by
  have hstart : OneActive {} := by
    constructor
    · intro symbol
      exact Nat.zero_le 1
    · intro symbol sch _ hactive
      exact absurd rfl hactive
  exact foldl_take_invariant OneActive (fun _ _ hone hquiet => hone.apply hquiet) hstart h n

/-- **At most one analysis of a symbol is in flight**, at every moment of every run that never
    creates a schedule for a symbol whose last callback is still active. -/
theorem oneInFlight_of_quiet {events : List SchedulerEvent} (h : QuietRun upper events) (n : ℕ)
    (symbol : String) : (runScheduler upper (events.take n)).inFlight symbol ≤ 1 :=
  (inFlight_le_active _ symbol).trans ((oneActive_of_quiet h n).active_le symbol)

/-- A symbol dropped and taken up again, once its analysis is through `_on_done`. -/
def resubscribedLater : List SchedulerEvent :=
  [.subscribe "a" ["xauusd"], .wakeTimer 0, .runTimer 0 false, .submit 1, .unsubscribe "a",
    .complete 1, .onDone 1 false, .subscribe "a" ["xauusd"], .wakeTimer 2, .runTimer 2 false,
    .submit 3]

theorem resubscribedLater_one :
    (runScheduler String.toUpper (resubscribedLater.take 11)).inFlight "XAUUSD" ≤ 1 :=
  oneInFlight_of_quiet (by decide +kernel) 11 "XAUUSD"

/-- The same while the analysis is in flight: two of them are then. -/
theorem resubscribed_overlaps :
    ¬ ∀ (events : List SchedulerEvent) (symbol : String),
      (runScheduler String.toUpper events).inFlight symbol ≤ 1 := by
  intro h
  have hone := h
    [.subscribe "a" ["xauusd"], .wakeTimer 0, .runTimer 0 false, .submit 1, .unsubscribe "a",
      .subscribe "a" ["xauusd"], .wakeTimer 2, .runTimer 2 false, .submit 3] "XAUUSD"
  revert hone
  decide +kernel

end SignalEngine
