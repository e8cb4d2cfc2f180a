/-
  Wake-ups: no subscribed symbol of the scheduler is left without a future tick.

  Model. `Scheduler.finish` is a callback running to its end: it is handed to the loop if it was
  not yet, completes, and its `_on_done` runs. Who is subscribed to what (`Subscribed`) is read off
  the calls alone: the last of them that names the subscriber and the symbol decides.

  Proved: the tables of the scheduler hold exactly those subscribers (`mem_subscribers_run`).
  `Awake`, which ties the flag of each schedule to a timer or to a callback of its symbol, is kept
  by every event but the `_on_done` of a cancelled callback, so `noLostWakeup`.
-/
import SignalEngine.Interfaces.Scheduler

namespace SignalEngine

open Lib

/-! ## What a subscribed symbol waits for -/

/-- The callback runs to its end. -/
def Scheduler.finish (S : Scheduler) (id : ℕ) : Scheduler :=
  ((S.advanceCallback id .launching .inFlight).advanceCallback id .inFlight .finished).onDone id
    false

/-- A started timer, armed or woken, will call `_run` for the symbol. -/
def Scheduler.TimerPending (S : Scheduler) (symbol : String) : Prop :=
  ∃ t ∈ S.timers, t.symbol = symbol

/-- An active callback of the symbol starts a new timer for it when it completes. -/
def Scheduler.CallbackReschedules (S : Scheduler) (symbol : String) : Prop :=
  ∃ c ∈ S.callbacks, c.symbol = symbol ∧
    ∃ t ∈ (S.finish c.id).timers, t.symbol = symbol ∧ t ∉ S.timers

/-- Whether the subscriber is subscribed to the symbol once the event has been asked for. -/
def subscribedAfter (upper : String → String) (subscriber symbol : String) (before : Bool) :
    SchedulerEvent → Bool
  | .subscribe other symbols | .addSymbols other symbols =>
      before || decide (other = subscriber ∧ symbol ∈ symbols.map upper)
  | .unsubscribe other => before && decide (other ≠ subscriber)
  | .removeSymbols other symbols =>
      before && !decide (other = subscriber ∧ symbol ∈ symbols.map upper)
  | .shutdown => false
  | .wakeTimer _ | .runTimer _ _ | .submit _ | .complete _ | .onDone _ _ => before

/-- The subscriber has asked for the symbol and has not given it up since. -/
def Subscribed (upper : String → String) (events : List SchedulerEvent)
    (subscriber symbol : String) : Prop :=
  events.foldl (subscribedAfter upper subscriber symbol) false = true

instance (upper : String → String) (events : List SchedulerEvent) (subscriber symbol : String) :
    Decidable (Subscribed upper events subscriber symbol) :=
  inferInstanceAs (Decidable (_ = true))

/-- Every symbol that someone is subscribed to has a tick ahead of it. -/
def NoLostWakeup (upper : String → String) (events : List SchedulerEvent) : Prop :=
  ∀ subscriber symbol, Subscribed upper events subscriber symbol →
    (runScheduler upper events).TimerPending symbol ∨
      (runScheduler upper events).CallbackReschedules symbol

/-! ## The invariant -/

/-- Timers and callbacks have ids of their own, and the timer of a schedule is one of its
    symbol. -/
structure OwnIds (S : Scheduler) : Prop where
  timers_nodup : (keys Timer.id S.timers).Nodup
  timers_lt : ∀ t ∈ S.timers, t.id < S.nextId
  callbacks_nodup : (keys Callback.id S.callbacks).Nodup
  callbacks_lt : ∀ c ∈ S.callbacks, c.id < S.nextId
  timer_lt : ∀ symbol sch id, S.schedule symbol = some sch → sch.timer = some id → id < S.nextId
  timer_own : ∀ symbol sch id, S.schedule symbol = some sch → sch.timer = some id →
    ∀ t ∈ S.timers, t.id = id → t.symbol = symbol

/-- A schedule waits for a timer, or for the callback that has set its flag. -/
structure AwakeAt (S : Scheduler) (symbol : String) : Prop where
  pending : ∀ sch, S.schedule symbol = some sch → sch.isRunning = false → S.TimerPending symbol
  running : ∀ sch, S.schedule symbol = some sch → sch.isRunning = true → S.active symbol ≠ 0

structure Awake (S : Scheduler) : Prop extends OwnIds S where
  awake : ∀ symbol, AwakeAt S symbol

variable {upper : String → String} {S S' : Scheduler} {symbol other : String}

/-- Nothing the symbol waits for has gone. -/
structure Keeps (S S' : Scheduler) (symbol : String) : Prop where
  schedule_eq : ∀ sch', S'.schedule symbol = some sch' →
    ∃ sch, S.schedule symbol = some sch ∧ sch'.isRunning = sch.isRunning
  timers : S.TimerPending symbol → S'.TimerPending symbol
  callbacks : S.active symbol ≠ 0 → S'.active symbol ≠ 0

theorem AwakeAt.keeps (h : AwakeAt S symbol) (hkeeps : Keeps S S' symbol) : AwakeAt S' symbol := by
  constructor
  · intro sch' hsch' hflag
    obtain ⟨sch, hsch, heq⟩ := hkeeps.schedule_eq sch' hsch'
    exact hkeeps.timers (h.pending sch hsch (heq ▸ hflag))
  · intro sch' hsch' hflag
    obtain ⟨sch, hsch, heq⟩ := hkeeps.schedule_eq sch' hsch'
    exact hkeeps.callbacks (h.running sch hsch (heq ▸ hflag))

/-- Nothing new: fewer timers and callbacks, and no schedule with another timer. -/
structure Shrinks (S S' : Scheduler) : Prop where
  timers : (keys Timer.id S'.timers).Sublist (keys Timer.id S.timers)
  timer_eq : ∀ t' ∈ S'.timers, ∃ t ∈ S.timers, t.id = t'.id ∧ t.symbol = t'.symbol
  callbacks : (keys Callback.id S'.callbacks).Sublist (keys Callback.id S.callbacks)
  schedule_eq : ∀ symbol sch', S'.schedule symbol = some sch' →
    ∃ sch, S.schedule symbol = some sch ∧ sch'.timer = sch.timer
  nextId_eq : S'.nextId = S.nextId

theorem OwnIds.shrinks (h : OwnIds S) (hS : Shrinks S S') : OwnIds S' := by
  constructor
  · exact h.timers_nodup.sublist hS.timers
  · intro t' ht'
    obtain ⟨t, ht, hid, -⟩ := hS.timer_eq t' ht'
    rw [hS.nextId_eq, ← hid]
    exact h.timers_lt t ht
  · exact h.callbacks_nodup.sublist hS.callbacks
  · intro c' hc'
    obtain ⟨c, hc, hid⟩ := mem_keys.mp (hS.callbacks.subset (List.mem_map_of_mem hc'))
    rw [hS.nextId_eq, ← hid]
    exact h.callbacks_lt c hc
  · intro symbol sch' id hsch' htimer
    obtain ⟨sch, hsch, heq⟩ := hS.schedule_eq symbol sch' hsch'
    rw [hS.nextId_eq]
    exact h.timer_lt symbol sch id hsch (heq ▸ htimer)
  · intro symbol sch' id hsch' htimer t' ht' hid
    obtain ⟨sch, hsch, heq⟩ := hS.schedule_eq symbol sch' hsch'
    obtain ⟨t, ht, hid', hsymbol⟩ := hS.timer_eq t' ht'
    rw [← hsymbol]
    exact h.timer_own symbol sch id hsch (heq ▸ htimer) t ht (hid'.trans hid)

/-! ## Single writes -/

/-- A timer is started for the symbol and noted in its schedule. -/
def Scheduler.arm (S : Scheduler) (sch : SymbolSchedule) : Scheduler :=
  (S.startTimer sch.symbol).setSchedule { sch with timer := some S.nextId }

theorem scheduleNext_eq_arm {sch : SymbolSchedule} (hsch : S.schedule symbol = some sch) :
    S.scheduleNext symbol = S.arm sch := by
  obtain rfl := schedule_symbol hsch
  rw [Scheduler.scheduleNext, hsch]
  rfl

theorem schedule_arm (S : Scheduler) (sch : SymbolSchedule) (symbol : String) :
    (S.arm sch).schedule symbol =
      if sch.symbol = symbol then some { sch with timer := some S.nextId }
      else S.schedule symbol :=
  schedule_setSchedule _ _ symbol

theorem OwnIds.arm (h : OwnIds S) (sch : SymbolSchedule) : OwnIds (S.arm sch) := by
  have hlt : ∀ {id : ℕ}, id < S.nextId → id < (S.arm sch).nextId := Nat.lt_succ_of_lt
  constructor
  · refine nodup_keys_concat h.timers_nodup (fun hmem => ?_)
    obtain ⟨t, ht, hid⟩ := mem_keys.mp hmem
    exact (h.timers_lt t ht).ne hid
  · exact List.forall_mem_append.mpr ⟨fun t ht => hlt (h.timers_lt t ht),
      List.forall_mem_singleton.mpr (Nat.lt_succ_self _)⟩
  · exact h.callbacks_nodup
  · exact fun c hc => hlt (h.callbacks_lt c hc)
  · intro symbol sch' id hsch' htimer
    rw [schedule_arm] at hsch'
    split at hsch'
    · cases hsch'
      cases htimer
      exact Nat.lt_succ_self _
    · exact hlt (h.timer_lt symbol sch' id hsch' htimer)
  · intro symbol sch' id hsch' htimer t ht hid
    rw [schedule_arm] at hsch'
    rcases List.mem_append.mp ht with ht | ht
    · split at hsch'
      · cases hsch'
        cases htimer
        exact absurd hid (h.timers_lt t ht).ne
      · exact h.timer_own symbol sch' id hsch' htimer t ht hid
    · rw [List.mem_singleton.mp ht] at hid ⊢
      split at hsch'
      · next heq => exact heq
      · exact absurd hid.symm (h.timer_lt symbol sch' id hsch' htimer).ne

theorem keeps_arm (S : Scheduler) {sch : SymbolSchedule} (hne : sch.symbol ≠ other) :
    Keeps S (S.arm sch) other := by
  refine ⟨fun sch' hsch' => ⟨sch', ?_, rfl⟩, ?_, id⟩
  · rwa [schedule_arm, if_neg hne] at hsch'
  · rintro ⟨t, ht, hsymbol⟩
    exact ⟨t, List.mem_append_left _ ht, hsymbol⟩

theorem awakeAt_arm (S : Scheduler) {sch : SymbolSchedule}
    (hflag : sch.isRunning = true → S.active sch.symbol ≠ 0) :
    AwakeAt (S.arm sch) sch.symbol := by
  constructor
  · exact fun _ _ _ => ⟨⟨S.nextId, sch.symbol, false⟩,
      List.mem_append_right _ (List.mem_singleton.mpr rfl), rfl⟩
  · intro sch' hsch' hrunning
    rw [schedule_arm, if_pos rfl] at hsch'
    cases hsch'
    exact hflag hrunning

/-- Arming keeps the invariant, where it holds of every other symbol. -/
theorem Awake.arm (hids : OwnIds S) (sch : SymbolSchedule)
    (hothers : ∀ other, sch.symbol ≠ other → AwakeAt S other)
    (hflag : sch.isRunning = true → S.active sch.symbol ≠ 0) : Awake (S.arm sch) := by
  refine ⟨hids.arm sch, fun symbol => ?_⟩
  by_cases heq : sch.symbol = symbol
  · rw [← heq]
    exact awakeAt_arm S hflag
  · exact (hothers symbol heq).keeps (keeps_arm S heq)

section SetSchedule

variable {sch sch' : SymbolSchedule}

theorem shrinks_setSchedule (hsch : S.schedule symbol = some sch)
    (hsymbol : sch'.symbol = sch.symbol) (htimer : sch'.timer = sch.timer) :
    Shrinks S (S.setSchedule sch') := by
  refine ⟨.refl _, fun t ht => ⟨t, ht, rfl, rfl⟩, .refl _, fun other sch'' hsch'' => ?_, rfl⟩
  rcases schedule_of_setSchedule hsch hsymbol hsch'' with ⟨rfl, hbefore⟩ | hbefore
  · exact ⟨sch, hbefore, htimer⟩
  · exact ⟨sch'', hbefore, rfl⟩

theorem keeps_setSchedule (hsch : S.schedule symbol = some sch)
    (hsymbol : sch'.symbol = sch.symbol) (hflag : sch'.isRunning = sch.isRunning) :
    Keeps S (S.setSchedule sch') other := by
  refine ⟨fun sch'' hsch'' => ?_, id, id⟩
  rcases schedule_of_setSchedule hsch hsymbol hsch'' with ⟨rfl, hbefore⟩ | hbefore
  · exact ⟨sch, hbefore, hflag⟩
  · exact ⟨sch'', hbefore, rfl⟩

theorem keeps_setSchedule_other (hne : sch'.symbol ≠ other) :
    Keeps S (S.setSchedule sch') other := by
  refine ⟨fun sch'' hsch'' => ⟨sch'', ?_, rfl⟩, id, id⟩
  rwa [schedule_setSchedule, if_neg hne] at hsch''

theorem Awake.setSchedule (h : Awake S) (hsch : S.schedule symbol = some sch)
    (hsymbol : sch'.symbol = sch.symbol) (htimer : sch'.timer = sch.timer)
    (hflag : sch'.isRunning = sch.isRunning) : Awake (S.setSchedule sch') :=
  ⟨h.toOwnIds.shrinks (shrinks_setSchedule hsch hsymbol htimer),
    fun other => (h.awake other).keeps (keeps_setSchedule hsch hsymbol hflag)⟩

end SetSchedule

/-! ## Subscribing and unsubscribing -/

theorem Awake.subscribeOne (h : Awake S) (subscriber symbol : String) :
    Awake (S.subscribeOne subscriber symbol) := by
  unfold Scheduler.subscribeOne
  split
  · next sch hsch => exact h.setSchedule hsch rfl rfl rfl
  · exact Awake.arm h.toOwnIds { symbol := symbol, subscriberIds := {subscriber} }
      (fun other _ => h.awake other) (fun hflag => by cases hflag)

theorem shrinks_cancel (S : Scheduler) (symbol : String) : Shrinks S (S.cancel symbol) := by
  have hkept : ∀ other sch, (S.cancel symbol).schedule other = some sch →
      ∃ sch', S.schedule other = some sch' ∧ sch.timer = sch'.timer :=
    fun other sch hsch => ⟨sch, (schedule_cancel hsch).2, rfl⟩
  unfold Scheduler.cancel at hkept ⊢
  split at hkept
  · exact ⟨.refl _, fun t ht => ⟨t, ht, rfl, rfl⟩, .refl _, hkept, rfl⟩
  · exact ⟨List.filter_sublist.map _, fun t ht => ⟨t, (List.mem_filter.mp ht).1, rfl, rfl⟩,
      .refl _, hkept, rfl⟩

/-- Cancelling stops a timer of its own symbol only. -/
theorem OwnIds.keeps_cancel (h : OwnIds S) (hne : other ≠ symbol) :
    Keeps S (S.cancel symbol) other := by
  refine ⟨fun sch hsch => ⟨sch, (schedule_cancel hsch).2, rfl⟩, ?_, ?_⟩
  · rintro ⟨t, ht, hsymbol⟩
    refine ⟨t, ?_, hsymbol⟩
    unfold Scheduler.cancel
    split
    · exact ht
    next sch hsch =>
    refine List.mem_filter.mpr ⟨ht, ?_⟩
    rw [Bool.or_eq_true, decide_eq_true_eq]
    refine Or.inr (fun htimer => hne ?_)
    rw [← hsymbol]
    exact h.timer_own symbol sch t.id hsch htimer t ht rfl
  · rw [(undisturbed_cancel S symbol).active_eq]
    exact id

theorem Awake.cancel (h : Awake S) (symbol : String) : Awake (S.cancel symbol) := by
  refine ⟨h.toOwnIds.shrinks (shrinks_cancel S symbol), fun other => ?_⟩
  by_cases heq : other = symbol
  · exact ⟨fun sch hsch _ => absurd heq (schedule_cancel hsch).1,
      fun sch hsch _ => absurd heq (schedule_cancel hsch).1⟩
  · exact (h.awake other).keeps (h.keeps_cancel heq)

theorem Awake.discard (h : Awake S) (subscriber symbol : String) :
    Awake (S.discard subscriber symbol) := by
  unfold Scheduler.discard
  split
  · exact h
  next sch hsch =>
  have hset : Awake
      (S.setSchedule { sch with subscriberIds := sch.subscriberIds.erase subscriber }) :=
    h.setSchedule hsch rfl rfl rfl
  dsimp only
  split
  · exact hset.cancel symbol
  · exact hset

theorem Awake.foldl {α : Type} {step : Scheduler → α → Scheduler}
    (hstep : ∀ S a, Awake S → Awake (step S a)) (h : Awake S) (xs : List α) :
    Awake (xs.foldl step S) :=
  List.foldlRecOn xs step h (fun S hS a _ => hstep S a hS)

/-! ## Timers and callbacks -/

theorem Awake.wakeTimer (h : Awake S) (id : ℕ) : Awake (S.wakeTimer id) := by
  have hkeys : keys Timer.id (S.wakeTimer id).timers = keys Timer.id S.timers := by
    rw [keys, keys, Scheduler.wakeTimer, List.map_map]
    refine List.map_congr_left (fun t _ => ?_)
    dsimp only [Function.comp_apply]
    split <;> rfl
  refine ⟨h.toOwnIds.shrinks ⟨?_, ?_, .refl _, fun _ sch hsch => ⟨sch, hsch, rfl⟩, rfl⟩,
    fun symbol => (h.awake symbol).keeps ⟨fun sch hsch => ⟨sch, hsch, rfl⟩, ?_, fun hne => hne⟩⟩
  · rw [hkeys]
  · intro t' ht'
    obtain ⟨t, ht, rfl⟩ := List.mem_map.mp ht'
    refine ⟨t, ht, ?_⟩
    split <;> exact ⟨rfl, rfl⟩
  · rintro ⟨t, ht, hsymbol⟩
    refine ⟨_, List.mem_map_of_mem ht, ?_⟩
    split <;> exact hsymbol

theorem Awake.advanceCallback (h : Awake S) (id : ℕ) (old new : CallbackPhase) :
    Awake (S.advanceCallback id old new) := by
  have hkeys : keys Callback.id (S.advanceCallback id old new).callbacks =
      keys Callback.id S.callbacks := by
    rw [keys, keys, Scheduler.advanceCallback, List.map_map]
    refine List.map_congr_left (fun c _ => ?_)
    dsimp only [Function.comp_apply]
    split <;> rfl
  refine ⟨h.toOwnIds.shrinks ⟨.refl _, fun t ht => ⟨t, ht, rfl, rfl⟩, ?_,
    fun _ sch hsch => ⟨sch, hsch, rfl⟩, rfl⟩,
    fun symbol => (h.awake symbol).keeps ⟨fun sch hsch => ⟨sch, hsch, rfl⟩, fun ht => ht, ?_⟩⟩
  · rw [hkeys]
  · rw [active_advanceCallback]
    exact fun hne => hne

/-- The timer that enters `_run` is used up. -/
def Scheduler.dropTimer (S : Scheduler) (id : ℕ) : Scheduler :=
  { S with timers := erase Timer.id id S.timers }

theorem shrinks_dropTimer (S : Scheduler) (id : ℕ) : Shrinks S (S.dropTimer id) :=
  ⟨List.filter_sublist.map _, fun t ht => ⟨t, (mem_erase.mp ht).1, rfl, rfl⟩, .refl _,
    fun _ sch hsch => ⟨sch, hsch, rfl⟩, rfl⟩

theorem Awake.dropTimer_other (h : Awake S) {t : Timer} (ht : t ∈ S.timers)
    (hne : t.symbol ≠ other) : AwakeAt (S.dropTimer t.id) other := by
  refine (h.awake other).keeps ⟨fun sch hsch => ⟨sch, hsch, rfl⟩, ?_, id⟩
  rintro ⟨t', ht', hsymbol⟩
  refine ⟨t', mem_erase.mpr ⟨ht', fun hid => hne ?_⟩, hsymbol⟩
  rw [← hsymbol, List.inj_on_of_nodup_map h.timers_nodup ht' ht hid]

section Launch

variable {sch : SymbolSchedule}

theorem timer_launch (hsch : S.schedule sch.symbol = some sch) {sch' : SymbolSchedule}
    (h : (S.launch sch).schedule symbol = some sch') :
    ∃ old, S.schedule symbol = some old ∧ sch'.timer = old.timer := by
  rw [schedule_launch] at h
  split at h
  · next heq =>
      cases h
      exact ⟨sch, heq ▸ hsch, rfl⟩
  · exact ⟨sch', h, rfl⟩

theorem OwnIds.launch (h : OwnIds S) (hsch : S.schedule sch.symbol = some sch) :
    OwnIds (S.launch sch) := by
  have hlt : ∀ {id : ℕ}, id < S.nextId → id < (S.launch sch).nextId := Nat.lt_succ_of_lt
  constructor
  · exact h.timers_nodup
  · exact fun t ht => hlt (h.timers_lt t ht)
  · refine nodup_keys_concat h.callbacks_nodup (fun hmem => ?_)
    obtain ⟨c, hc, hid⟩ := mem_keys.mp hmem
    exact (h.callbacks_lt c hc).ne hid
  · exact List.forall_mem_append.mpr ⟨fun c hc => hlt (h.callbacks_lt c hc),
      List.forall_mem_singleton.mpr (Nat.lt_succ_self _)⟩
  · intro symbol sch' id hsch' htimer
    obtain ⟨old, hold, heq⟩ := timer_launch hsch hsch'
    exact hlt (h.timer_lt symbol old id hold (heq ▸ htimer))
  · intro symbol sch' id hsch' htimer
    obtain ⟨old, hold, heq⟩ := timer_launch hsch hsch'
    exact h.timer_own symbol old id hold (heq ▸ htimer)

theorem keeps_launch (S : Scheduler) (hne : sch.symbol ≠ other) :
    Keeps S (S.launch sch) other := by
  refine ⟨fun sch' hsch' => ⟨sch', ?_, rfl⟩, id, fun hactive => ?_⟩
  · rwa [schedule_launch, if_neg hne] at hsch'
  · rwa [active_launch, if_neg hne]

/-- A launched callback stands for the timer that has launched it. -/
theorem awakeAt_launch (S : Scheduler) (sch : SymbolSchedule) :
    AwakeAt (S.launch sch) sch.symbol := by
  constructor
  · intro sch' hsch' hflag
    rw [schedule_launch, if_pos rfl] at hsch'
    cases hsch'
    cases hflag
  · intro sch' _ _
    rw [active_launch, if_pos rfl]
    exact Nat.succ_ne_zero _

theorem Awake.launch (hids : OwnIds S) (hothers : ∀ other, sch.symbol ≠ other → AwakeAt S other)
    (hsch : S.schedule sch.symbol = some sch) : Awake (S.launch sch) := by
  refine ⟨hids.launch hsch, fun symbol => ?_⟩
  by_cases heq : sch.symbol = symbol
  · rw [← heq]
    exact awakeAt_launch S sch
  · exact (hothers symbol heq).keeps (keeps_launch S heq)

end Launch

theorem Awake.runTimer (h : Awake S) (id : ℕ) (closed : Bool) : Awake (S.runTimer id closed) := by
  unfold Scheduler.runTimer
  split
  · exact h
  next t hlookup =>
  split
  swap
  · exact h
  obtain ⟨ht, rfl⟩ := lookup_eq_some hlookup
  have hids := h.toOwnIds.shrinks (shrinks_dropTimer S t.id)
  have hothers : ∀ other, t.symbol ≠ other → AwakeAt (S.dropTimer t.id) other :=
    fun other hne => h.dropTimer_other ht hne
  -- of the symbol itself, what the schedule says decides
  have hdropped : AwakeAt (S.dropTimer t.id) t.symbol → Awake (S.dropTimer t.id) := by
    intro hself
    refine ⟨hids, fun symbol => ?_⟩
    by_cases heq : t.symbol = symbol
    · exact heq ▸ hself
    · exact hothers symbol heq
  have hdrop : { S with timers := erase Timer.id t.id S.timers } = S.dropTimer t.id := rfl
  rw [hdrop]
  dsimp only
  split
  · next hnone =>
      refine hdropped ⟨fun sch hsch _ => ?_, fun sch hsch _ => ?_⟩
      · exact absurd (hnone.symm.trans hsch) (Option.some_ne_none sch).symm
      · exact absurd (hnone.symm.trans hsch) (Option.some_ne_none sch).symm
  next sch hsch =>
  have hsymbol : sch.symbol = t.symbol := schedule_symbol hsch
  split
  · next hflag =>
      refine hdropped ⟨fun sch' hsch' hfree => ?_, (h.awake t.symbol).running⟩
      rw [Option.some.inj (hsch'.symm.trans hsch), hflag] at hfree
      cases hfree
  next hflag =>
  split
  · rw [scheduleNext_eq_arm hsch]
    exact Awake.arm hids _ (fun other hne => hothers other (hsymbol ▸ hne))
      (fun hon => absurd hon hflag)
  · exact Awake.launch hids (fun other hne => hothers other (hsymbol ▸ hne)) (hsymbol ▸ hsch)

/-- The callback that is done is dropped. -/
def Scheduler.dropCallback (S : Scheduler) (id : ℕ) : Scheduler :=
  { S with callbacks := erase Callback.id id S.callbacks }

theorem shrinks_dropCallback (S : Scheduler) (id : ℕ) : Shrinks S (S.dropCallback id) :=
  ⟨.refl _, fun t ht => ⟨t, ht, rfl, rfl⟩, List.filter_sublist.map _,
    fun _ sch hsch => ⟨sch, hsch, rfl⟩, rfl⟩

theorem active_pos {S : Scheduler} :
    S.active symbol ≠ 0 ↔ ∃ c ∈ S.callbacks, c.symbol = symbol := by
  rw [Scheduler.active, ← Nat.pos_iff_ne_zero, List.countP_pos_iff]
  simp only [decide_eq_true_eq]

theorem Awake.dropCallback_other (h : Awake S) {c : Callback} (hc : c ∈ S.callbacks)
    (hne : c.symbol ≠ other) : AwakeAt (S.dropCallback c.id) other := by
  refine (h.awake other).keeps ⟨fun sch hsch => ⟨sch, hsch, rfl⟩, id, fun hactive => ?_⟩
  obtain ⟨c', hc', hsymbol⟩ := active_pos.mp hactive
  refine active_pos.mpr ⟨c', mem_erase.mpr ⟨hc', fun hid => hne ?_⟩, hsymbol⟩
  rw [← hsymbol, List.inj_on_of_nodup_map h.callbacks_nodup hc' hc hid]

theorem onDone_eq_arm {S : Scheduler} {id : ℕ} {c : Callback} {sch : SymbolSchedule}
    (hlookup : lookup Callback.id id S.callbacks = some c) (hphase : c.phase = .finished)
    (hsch : S.schedule c.symbol = some sch) :
    S.onDone id false = (((S.dropCallback id).setSchedule { sch with isRunning := false }).arm
      { sch with isRunning := false }) := by
  have hcleared : ((S.dropCallback id).setSchedule { sch with isRunning := false }).schedule
      c.symbol = some { sch with isRunning := false } := by
    rw [schedule_setSchedule, if_pos (schedule_symbol hsch)]
  rw [← scheduleNext_eq_arm hcleared, Scheduler.onDone, hlookup]
  dsimp only
  rw [if_pos hphase]
  have hsame : ({ S with callbacks := erase Callback.id id S.callbacks } : Scheduler).schedule
      c.symbol = some sch := hsch
  rw [hsame]
  rfl

/-- A callback that has not been cancelled leaves a timer where it found a schedule. -/
theorem Awake.onDone (h : Awake S) (id : ℕ) : Awake (S.onDone id false) := by
  cases hlookup : lookup Callback.id id S.callbacks with
  | none => rwa [Scheduler.onDone, hlookup]
  | some c =>
      obtain ⟨hc, rfl⟩ := lookup_eq_some hlookup
      by_cases hphase : c.phase = .finished
      swap
      · rw [Scheduler.onDone, hlookup]
        dsimp only
        rwa [if_neg hphase]
      have hids := h.toOwnIds.shrinks (shrinks_dropCallback S c.id)
      cases hsch : S.schedule c.symbol with
      | none =>
          have hdrop : S.onDone c.id false = S.dropCallback c.id := by
            have hsame : ({ S with callbacks := erase Callback.id c.id S.callbacks } :
                Scheduler).schedule c.symbol = none := hsch
            rw [Scheduler.onDone, hlookup]
            dsimp only
            rw [if_pos hphase, hsame]
            rfl
          rw [hdrop]
          refine ⟨hids, fun symbol => ?_⟩
          by_cases heq : c.symbol = symbol
          · subst heq
            constructor
            · exact fun sch hsome _ => absurd (hsch.symm.trans hsome) (Option.some_ne_none sch).symm
            · exact fun sch hsome _ => absurd (hsch.symm.trans hsome) (Option.some_ne_none sch).symm
          · exact h.dropCallback_other hc heq
      | some sch =>
          have hsymbol := schedule_symbol hsch
          rw [onDone_eq_arm hlookup hphase hsch]
          set sch' : SymbolSchedule := { sch with isRunning := false }
          have hids' : OwnIds ((S.dropCallback c.id).setSchedule sch') :=
            hids.shrinks (shrinks_setSchedule hsch rfl rfl)
          refine Awake.arm hids' sch' (fun other hne => ?_)
            (fun hflag => absurd hflag Bool.false_ne_true)
          exact (h.dropCallback_other hc (hsymbol ▸ hne)).keeps (keeps_setSchedule_other hne)

/-! ## Runs -/

theorem Awake.apply (h : Awake S) {e : SchedulerEvent} (hcancelled : ∀ id, e ≠ .onDone id true) :
    Awake (S.apply upper e) := by
  cases e with
  | subscribe subscriber symbols =>
      exact h.foldl (fun S symbol hS => hS.subscribeOne subscriber symbol) _
  | unsubscribe subscriber => exact h.foldl (fun S symbol hS => hS.discard subscriber symbol) _
  | addSymbols subscriber symbols =>
      exact h.foldl (fun S symbol hS => hS.subscribeOne subscriber symbol) _
  | removeSymbols subscriber symbols =>
      exact h.foldl (fun S symbol hS => hS.discard subscriber symbol) _
  | shutdown => exact h.foldl (fun S symbol hS => hS.cancel symbol) _
  | wakeTimer id => exact h.wakeTimer id
  | runTimer id closed => exact h.runTimer id closed
  | submit id => exact h.advanceCallback id _ _
  | complete id => exact h.advanceCallback id _ _
  | onDone id cancelled =>
      cases cancelled with
      | true => exact absurd rfl (hcancelled id)
      | false => exact h.onDone id

/-- Run to its end, a callback whose symbol has a schedule starts a new timer for it. -/
theorem Awake.finish (h : Awake S) {c : Callback} {sch : SymbolSchedule} (hc : c ∈ S.callbacks)
    (hsch : S.schedule c.symbol = some sch) : S.CallbackReschedules c.symbol := by
  have hdone := (h.advanceCallback c.id .launching .inFlight).advanceCallback c.id .inFlight
    .finished
  set done := (S.advanceCallback c.id .launching .inFlight).advanceCallback c.id .inFlight
    .finished with hdef
  have hlookup : lookup Callback.id c.id done.callbacks = some { c with phase := .finished } := by
    refine lookup_of_mem hdone.callbacks_nodup
      (x := { c with phase := .finished }) ?_
    refine List.mem_map.mpr ⟨_, List.mem_map_of_mem hc, ?_⟩
    obtain ⟨id, symbol, phase⟩ := c
    cases phase <;> simp
  have hsame : done.schedule c.symbol = some sch := hsch
  refine ⟨c, hc, rfl, ⟨S.nextId, c.symbol, false⟩, ?_, rfl, fun hold => ?_⟩
  · rw [Scheduler.finish, ← hdef, onDone_eq_arm hlookup rfl hsame]
    refine List.mem_append_right _ (List.mem_singleton.mpr ?_)
    rw [schedule_symbol hsch]
    rfl
  · exact (h.timers_lt _ hold).false

theorem awake_run {events : List SchedulerEvent} (h : ∀ id, .onDone id true ∉ events) :
    Awake (runScheduler upper events) := by
  have hstart : Awake {} := by
    refine ⟨⟨List.nodup_nil, ?_, List.nodup_nil, ?_, ?_, ?_⟩, fun symbol => ⟨?_, ?_⟩⟩
    all_goals simp [Scheduler.schedule, lookup]
  exact List.foldlRecOn events _ hstart
    (fun S hS e he => hS.apply (fun id heq => h id (heq ▸ he)))

/-! ## Who is subscribed -/

/-- The subscribers that the tables hold for the symbol. -/
def Scheduler.subscribers (S : Scheduler) (symbol : String) : Finset String :=
  ((S.schedule symbol).map SymbolSchedule.subscriberIds).getD ∅

section Subscribers

variable {subscriber : String} {sch : SymbolSchedule}

theorem subscribers_setSchedule (S : Scheduler) (sch : SymbolSchedule) (other : String) :
    (S.setSchedule sch).subscribers other =
      if sch.symbol = other then sch.subscriberIds else S.subscribers other := by
  rw [Scheduler.subscribers, schedule_setSchedule]
  split <;> rfl

theorem subscribers_of_schedule (hsch : S.schedule symbol = some sch) :
    S.subscribers symbol = sch.subscriberIds := by
  rw [Scheduler.subscribers, hsch]
  rfl

theorem subscribers_of_none (hnone : S.schedule symbol = none) : S.subscribers symbol = ∅ := by
  rw [Scheduler.subscribers, hnone]
  rfl

/-- A schedule written back with its subscribers leaves them all. -/
theorem subscribers_rewrite (sch' : SymbolSchedule) (hsch : S.schedule symbol = some sch)
    (hsymbol : sch'.symbol = sch.symbol) (hids : sch'.subscriberIds = sch.subscriberIds)
    (other : String) : (S.setSchedule sch').subscribers other = S.subscribers other := by
  rw [subscribers_setSchedule]
  split
  · next heq =>
      rw [hids, ← heq, hsymbol, schedule_symbol hsch, subscribers_of_schedule hsch]
  · rfl

theorem mem_subscribers_subscribeOne (S : Scheduler) (asking asked : String) :
    subscriber ∈ (S.subscribeOne asking asked).subscribers symbol ↔
      subscriber ∈ S.subscribers symbol ∨ asking = subscriber ∧ symbol = asked := by
  unfold Scheduler.subscribeOne
  split
  · next sch hsch =>
      rw [subscribers_setSchedule, schedule_symbol hsch]
      split
      · next heq =>
          subst heq
          simp [subscribers_of_schedule hsch, or_comm, eq_comm]
      · next hne => simp [Ne.symm hne]
  · next hnone =>
      rw [subscribers_setSchedule]
      dsimp only
      split
      · next heq =>
          subst heq
          simp [subscribers_of_none hnone, eq_comm]
      · next hne =>
          simp only [Ne.symm hne, and_false, or_false]
          exact Iff.rfl

theorem subscribers_cancel (S : Scheduler) (symbol other : String) :
    (S.cancel symbol).subscribers other = if other = symbol then ∅ else S.subscribers other := by
  unfold Scheduler.cancel
  split
  · next hnone =>
      split
      · next heq => rw [heq, subscribers_of_none hnone]
      · rfl
  · next sch hsch =>
      rw [Scheduler.subscribers, Scheduler.schedule, lookup_erase]
      split <;> rfl

theorem mem_subscribers_discard (S : Scheduler) (leaving left : String) :
    subscriber ∈ (S.discard leaving left).subscribers symbol ↔
      subscriber ∈ S.subscribers symbol ∧ ¬ (leaving = subscriber ∧ symbol = left) := by
  unfold Scheduler.discard
  split
  · next hnone =>
      refine ⟨fun hmem => ⟨hmem, fun hgone => ?_⟩, And.left⟩
      rw [hgone.2, subscribers_of_none hnone] at hmem
      exact Finset.notMem_empty _ hmem
  next sch hsch =>
  have hset : subscriber ∈ (S.setSchedule { sch with
      subscriberIds := sch.subscriberIds.erase leaving }).subscribers symbol ↔
      subscriber ∈ S.subscribers symbol ∧ ¬ (leaving = subscriber ∧ symbol = left) := by
    rw [subscribers_setSchedule, schedule_symbol hsch]
    split
    · next heq =>
        subst heq
        rw [subscribers_of_schedule hsch, Finset.mem_erase]
        simp only [and_true, ne_eq, eq_comm]
        exact and_comm
    · next hne => simp [Ne.symm hne]
  dsimp only
  split
  · next hempty =>
      rw [subscribers_cancel]
      split
      · next heq =>
          refine iff_of_false (Finset.notMem_empty _) fun hmem => ?_
          have hin := hset.mpr hmem
          rw [subscribers_setSchedule, schedule_symbol hsch, if_pos heq.symm] at hin
          dsimp only at hin
          rw [hempty] at hin
          exact Finset.notMem_empty _ hin
      · exact hset
  · exact hset

/-- Neither timers nor callbacks change who is subscribed. -/
theorem subscribers_scheduleNext (S : Scheduler) (symbol other : String) :
    (S.scheduleNext symbol).subscribers other = S.subscribers other := by
  unfold Scheduler.scheduleNext
  split
  · rfl
  · next sch hsch =>
      have hstarted : (S.startTimer symbol).schedule symbol = some sch := hsch
      exact subscribers_rewrite { sch with timer := some S.nextId } hstarted rfl rfl other

theorem subscribers_runTimer (S : Scheduler) (id : ℕ) (closed : Bool) (other : String) :
    (S.runTimer id closed).subscribers other = S.subscribers other := by
  unfold Scheduler.runTimer
  split
  · rfl
  split
  swap
  · rfl
  dsimp only
  split
  · rfl
  next sch hsch =>
  split
  · rfl
  split
  · exact subscribers_scheduleNext _ _ other
  · exact subscribers_rewrite { sch with isRunning := true } hsch rfl rfl other

theorem subscribers_onDone (S : Scheduler) (id : ℕ) (cancelled : Bool) (other : String) :
    (S.onDone id cancelled).subscribers other = S.subscribers other := by
  unfold Scheduler.onDone
  split
  · rfl
  split
  swap
  · rfl
  dsimp only
  split
  · rfl
  next sch hsch =>
  split
  · rfl
  · exact (subscribers_scheduleNext _ _ other).trans
      (subscribers_rewrite { sch with isRunning := false } hsch rfl rfl other)

theorem mem_subscribers_subscribe (S : Scheduler) (asking : String) (asked : List String) :
    subscriber ∈ (asked.foldl (Scheduler.subscribeOne asking) S).subscribers symbol ↔
      subscriber ∈ S.subscribers symbol ∨ asking = subscriber ∧ symbol ∈ asked := by
  induction asked generalizing S with
  | nil => simp
  | cons first asked ih =>
      rw [List.foldl_cons, ih, mem_subscribers_subscribeOne, List.mem_cons, or_assoc,
        ← and_or_left]

theorem mem_subscribers_discards (S : Scheduler) (leaving : String) (left : List String) :
    subscriber ∈ (left.foldl (Scheduler.discard leaving) S).subscribers symbol ↔
      subscriber ∈ S.subscribers symbol ∧ ¬ (leaving = subscriber ∧ symbol ∈ left) := by
  induction left generalizing S with
  | nil => simp
  | cons first left ih =>
      rw [List.foldl_cons, ih, mem_subscribers_discard, List.mem_cons, and_assoc, ← not_or,
        ← and_or_left]

theorem mem_subscribers_cancels (S : Scheduler) (stopped : List String) :
    subscriber ∈ (stopped.foldl Scheduler.cancel S).subscribers symbol ↔
      subscriber ∈ S.subscribers symbol ∧ symbol ∉ stopped := by
  induction stopped generalizing S with
  | nil => simp
  | cons first stopped ih =>
      rw [List.foldl_cons, ih, subscribers_cancel, List.mem_cons]
      split
      · next heq => simp [heq]
      · next hne => simp [hne]

theorem mem_keys_of_subscribers (hmem : subscriber ∈ S.subscribers symbol) :
    symbol ∈ keys SymbolSchedule.symbol S.schedules := by
  cases hsch : S.schedule symbol with
  | none =>
      rw [subscribers_of_none hsch] at hmem
      exact absurd hmem (Finset.notMem_empty _)
  | some sch =>
      obtain ⟨hin, hsymbol⟩ := lookup_eq_some hsch
      exact mem_keys.mpr ⟨sch, hin, hsymbol⟩

/-- One event changes the tables as it changes who is subscribed. -/
theorem mem_subscribers_apply (S : Scheduler) (e : SchedulerEvent) {before : Bool}
    (h : subscriber ∈ S.subscribers symbol ↔ before = true) :
    subscriber ∈ (S.apply upper e).subscribers symbol ↔
      subscribedAfter upper subscriber symbol before e = true := by
  cases e with
  | subscribe asking symbols =>
      rw [Scheduler.apply, Scheduler.subscribe, mem_subscribers_subscribe, h]
      simp [subscribedAfter]
  | addSymbols asking symbols =>
      rw [Scheduler.apply, Scheduler.addSymbols, Scheduler.subscribe, mem_subscribers_subscribe, h]
      simp [subscribedAfter]
  | unsubscribe leaving =>
      rw [Scheduler.apply, Scheduler.unsubscribe, mem_subscribers_discards, subscribedAfter,
        Bool.and_eq_true, decide_eq_true_eq, ← h]
      refine and_congr_right fun hmem => not_congr ?_
      exact and_iff_left (mem_keys_of_subscribers hmem)
  | removeSymbols leaving symbols =>
      rw [Scheduler.apply, Scheduler.removeSymbols, mem_subscribers_discards, h, subscribedAfter,
        Bool.and_eq_true, Bool.not_eq_true', decide_eq_false_iff_not]
  | shutdown =>
      rw [Scheduler.apply, Scheduler.shutdown, mem_subscribers_cancels]
      refine iff_of_false (fun hmem => hmem.2 (mem_keys_of_subscribers hmem.1)) ?_
      simp [subscribedAfter]
  | wakeTimer id => exact h
  | runTimer id closed =>
      rw [Scheduler.apply, subscribers_runTimer]
      exact h
  | submit id => exact h
  | complete id => exact h
  | onDone id cancelled =>
      rw [Scheduler.apply, subscribers_onDone]
      exact h

/-- At every moment of every run the tables hold who is subscribed, and no one else. -/
theorem mem_subscribers_run (events : List SchedulerEvent) :
    subscriber ∈ (runScheduler upper events).subscribers symbol ↔
      Subscribed upper events subscriber symbol := by
  unfold runScheduler Subscribed
  induction events using List.reverseRecOn with
  | nil => simp [Scheduler.subscribers, Scheduler.schedule, lookup]
  | append_singleton events e ih =>
      rw [List.foldl_append, List.foldl_append]
      exact mem_subscribers_apply _ e ih

end Subscribers

/-- **No lost wake-up**: at every moment of every run without a cancelled callback, each symbol
    that someone has subscribed to, and not given up, has a timer that will call `_run` for it, or
    a callback that starts one when it completes. -/
theorem noLostWakeup {events : List SchedulerEvent} (h : ∀ id, .onDone id true ∉ events) :
    NoLostWakeup upper events := by
  intro subscriber symbol hsubscribed
  have hmem := (mem_subscribers_run events).mpr hsubscribed
  have hawake : Awake (runScheduler upper events) := awake_run h
  cases hsch : (runScheduler upper events).schedule symbol with
  | none =>
      rw [subscribers_of_none hsch] at hmem
      exact absurd hmem (Finset.notMem_empty _)
  | some sch =>
      cases hflag : sch.isRunning with
      | false => exact Or.inl ((hawake.awake symbol).pending sch hsch hflag)
      | true =>
          obtain ⟨c, hc, rfl⟩ := active_pos.mp ((hawake.awake symbol).running sch hsch hflag)
          exact Or.inr (hawake.finish hc hsch)

/-- The second of two timers of one symbol skips its tick, and one of two subscribers leaves. -/
def skippedTick : List SchedulerEvent :=
  [.subscribe "a" ["xauusd"], .wakeTimer 0, .runTimer 0 false, .submit 1, .unsubscribe "a",
    .subscribe "a" ["xauusd"], .addSymbols "b" ["xauusd"], .complete 1, .onDone 1 false,
    .wakeTimer 2, .runTimer 2 false, .wakeTimer 3, .runTimer 3 false, .removeSymbols "b" ["xauusd"]]

/-- The analysis in flight is what the other one waits for. -/
theorem skippedTick_wakes :
    Subscribed String.toUpper skippedTick "a" "XAUUSD" ∧
      ((runScheduler String.toUpper skippedTick).TimerPending "XAUUSD" ∨
        (runScheduler String.toUpper skippedTick).CallbackReschedules "XAUUSD") := by
  have hsubscribed : Subscribed String.toUpper skippedTick "a" "XAUUSD" := by decide +kernel
  exact ⟨hsubscribed, noLostWakeup (by simp [skippedTick]) "a" "XAUUSD" hsubscribed⟩

end SignalEngine
