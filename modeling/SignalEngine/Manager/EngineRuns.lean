/-
  Engine runs: the log handlers that `core/pipeline.py` leaves on the root logger.

  Model. A broker's task goes from await to await, and other tasks run in between: `attempt` is
  the loop head of `_supervise` with `_run_engine` up to the await of `engine.start`, the other
  events say how the await of the moment ends. A handler is named by the order in which they
  were made. `engine.stop` awaits nothing, and what it raises is caught. Files, log lines,
  metrics and the gateway are left out.

  Proved: `handlers_restored_iff`: a run leaves the handlers it found exactly when nothing
  raises between `addHandler` and the `try`; and in every run of the manager whose attempts are
  all so, no restart of a broker overlapping another of it, each broker has one handler at
  most. The invariant is `Tidy`.
-/
import SignalEngine.Lib.Custody
import SignalEngine.Lib.Loop

namespace SignalEngine

open Lib

/-! ## The root logger -/

/-- A handler of the root logger; one that is no broker's file has no broker. -/
structure LogHandler where
  id : ℕ
  broker : Option String
  deriving DecidableEq, Repr

structure RootLogger where
  handlers : List LogHandler
  made : ℕ
  id_lt : ∀ h ∈ handlers, h.id < made

/-- The next `RotatingFileHandler`. -/
def RootLogger.fileHandler (root : RootLogger) (broker : String) : LogHandler :=
  ⟨root.made, some broker⟩

theorem fileHandler_notMem (root : RootLogger) (broker : String) :
    root.fileHandler broker ∉ root.handlers :=
  fun hmem => lt_irrefl _ (root.id_lt _ hmem)

/-- `RotatingFileHandler(...)` and `addHandler`. -/
def RootLogger.addHandler (root : RootLogger) (broker : String) : RootLogger where
  handlers := root.handlers ++ [root.fileHandler broker]
  made := root.made + 1
  id_lt := by
    intro h hmem
    rcases List.mem_append.mp hmem with hmem | hmem
    · exact (root.id_lt h hmem).trans (Nat.lt_succ_self _)
    · rw [List.mem_singleton.mp hmem]
      exact Nat.lt_succ_self _

def RootLogger.removeHandler (root : RootLogger) (h : LogHandler) : RootLogger where
  handlers := root.handlers.erase h
  made := root.made
  id_lt := fun g hg => root.id_lt g (List.mem_of_mem_erase hg)

/-! ## A run of an engine -/

/-- How far `_run_engine` gets before its `try`. -/
inductive Built where
  /-- an import, a directory or the log file -/
  | fileRaises
  /-- `Settings.for_broker` -/
  | forBrokerRaises
  /-- `SignalEngine(settings)` -/
  | engineRaises
  | ready
  deriving DecidableEq, Repr

/-- It raises with the handler installed. -/
def Built.leaks : Built → Bool
  | .forBrokerRaises | .engineRaises => true
  | .fileRaises | .ready => false

/-- `_run_engine` up to its `try`, with the handler it brings there. -/
def RootLogger.enter (root : RootLogger) (broker : String) :
    Built → RootLogger × Option LogHandler
  | .fileRaises => (root, none)
  | .forBrokerRaises | .engineRaises => (root.addHandler broker, none)
  | .ready => (root.addHandler broker, some (root.fileHandler broker))

/-- How the body of the `try` ends. -/
inductive BodyEnd where
  | startRaises
  | startCancelled
  | raises
  | cancelled
  deriving DecidableEq, Repr

/-- What the caller of `_run_engine` sees; it never returns. -/
inductive RunEnd where
  | exception
  | cancelledError
  deriving DecidableEq, Repr

def BodyEnd.runEnd : BodyEnd → RunEnd
  | .startRaises | .raises => .exception
  | .startCancelled | .cancelled => .cancelledError

/-- `_run_engine`, with nothing else running. -/
def runEngine (root : RootLogger) (broker : String) (built : Built) (body : BodyEnd) :
    RootLogger × RunEnd :=
  match root.enter broker built with
  | (root, none) => (root, .exception)
  | (root, some h) => (root.removeHandler h, body.runEnd)

/-! ## Tasks -/

inductive TaskPhase where
  | spawned
  /-- awaits `engine.start` -/
  | starting (h : LogHandler)
  /-- sleeps for ever -/
  | running (h : LogHandler)
  /-- awaits the metrics task it has cancelled -/
  | stopping (h : LogHandler) (how : RunEnd)
  | backingOff
  | done
  deriving DecidableEq, Repr

/-- A task of `_supervise`; `cancelling` is a `cancel` not yet delivered. -/
structure EngineTask where
  broker : String
  phase : TaskPhase := .spawned
  cancelling : Bool := false
  backoff : ℕ := 5
  deriving DecidableEq, Repr

inductive Health where
  | starting
  | running
  | error
  | stopped
  deriving DecidableEq, Repr

structure EngineEntry where
  task : ℕ
  health : Health := .starting
  restartCount : ℕ := 0
  deriving DecidableEq, Repr

inductive TaskEvent where
  | attempt (built : Built)
  | started
  | raised
  | cancelled
  | metricsEnded
  deriving DecidableEq, Repr

/-- What a task does before it gives way again. -/
structure TaskStep where
  root : RootLogger
  task : EngineTask
  note : EngineEntry → EngineEntry

/-- `_supervise` after an exception. -/
def EngineTask.crash (root : RootLogger) (task : EngineTask) : TaskStep :=
  ⟨root, { task with phase := .backingOff, cancelling := false },
    fun e => { e with health := .error, restartCount := e.restartCount + 1 }⟩

/-- `_supervise` after a `CancelledError`. -/
def EngineTask.stop (root : RootLogger) (task : EngineTask) : TaskStep :=
  ⟨root, { task with phase := .done, cancelling := false },
    fun e => { e with health := .stopped }⟩

/-- `_supervise` after `_run_engine`. -/
def EngineTask.leave (root : RootLogger) (task : EngineTask) : RunEnd → TaskStep
  | .exception => task.crash root
  | .cancelledError => task.stop root

/-- One turn of the loop, up to the await of `engine.start`. -/
def EngineTask.attempt (root : RootLogger) (task : EngineTask) (built : Built) : TaskStep :=
  match root.enter task.broker built with
  | (root, none) => task.crash root
  | (root, some h) =>
      ⟨root, { task with phase := .starting h }, fun e => { e with health := .starting }⟩

/-- The next step of a task, if the event can reach it. -/
def EngineTask.next (root : RootLogger) (task : EngineTask) : TaskEvent → Option TaskStep
  | .attempt built =>
      match task.phase, task.cancelling with
      | .spawned, false => some (task.attempt root built)
      | .backingOff, false =>
          some (EngineTask.attempt root { task with backoff := min (task.backoff * 2) 300 } built)
      | _, _ => none
  | .started =>
      match task.phase, task.cancelling with
      | .starting h, false =>
          some ⟨root, { task with phase := .running h }, fun e => { e with health := .running }⟩
      | _, _ => none
  | .raised =>
      match task.phase, task.cancelling with
      | .starting h, false => some (task.leave (root.removeHandler h) .exception)
      | .running h, false => some ⟨root, { task with phase := .stopping h .exception }, id⟩
      | _, _ => none
  | .cancelled =>
      match task.phase, task.cancelling with
      -- a task cancelled before its first step never enters `_supervise`
      | .spawned, true => some ⟨root, { task with phase := .done, cancelling := false }, id⟩
      | .starting h, true => some (task.leave (root.removeHandler h) .cancelledError)
      | .running h, true =>
          some ⟨root, { task with phase := .stopping h .cancelledError, cancelling := false }, id⟩
      -- swallowed by the `except` around the metrics task
      | .stopping h how, true => some (task.leave (root.removeHandler h) how)
      | .backingOff, true => some (task.stop root)
      | _, _ => none
  | .metricsEnded =>
      match task.phase with
      | .stopping h how => some (task.leave (root.removeHandler h) how)
      | _ => none

/-! ## The manager -/

structure Pipeline where
  root : RootLogger
  tasks : List EngineTask := []
  entries : String → Option EngineEntry := fun _ => none
  /-- calls of `restart` that await the end of a task -/
  waiting : List (String × ℕ) := []

def Pipeline.addTask (m : Pipeline) (broker : String) (e : EngineEntry) : Pipeline :=
  { m with
    tasks := m.tasks ++ [{ broker := broker }]
    entries := Function.update m.entries broker (some { e with task := m.tasks.length }) }

/-- `start`: one task for each source. -/
def Pipeline.start (root : RootLogger) (sources : List String) : Pipeline :=
  sources.foldl (fun m broker => m.addTask broker ⟨0, .starting, 0⟩) { root := root }

/-- The end of `restart`: a fresh task, and no restarts counted. -/
def Pipeline.respawn (m : Pipeline) (broker : String) (e : EngineEntry) : Pipeline :=
  m.addTask broker { e with restartCount := 0 }

inductive PipelineEvent where
  | task (t : ℕ) (event : TaskEvent)
  | restart (broker : String)
  /-- a waiting `restart` finds its task ended -/
  | resumed (broker : String) (t : ℕ)
  deriving DecidableEq, Repr

/-- A step of task `t`. -/
def Pipeline.stepTask (m : Pipeline) (t : ℕ) (s : TaskStep) : Pipeline :=
  { m with
    root := s.root
    tasks := m.tasks.set t s.task
    entries := fun b => if b = s.task.broker then (m.entries b).map s.note else m.entries b }

/-- `restart` up to its await; without one, to its end. -/
def Pipeline.restart (m : Pipeline) (broker : String) : Pipeline :=
  match m.entries broker with
  | none => m
  | some e =>
      match m.tasks[e.task]? with
      | none => m
      | some task =>
          if task.phase = .done then m.respawn broker e
          else
            { m.stepTask e.task ⟨m.root, { task with cancelling := true }, id⟩ with
              waiting := m.waiting ++ [(broker, e.task)] }

/-- An event that cannot happen changes nothing. -/
def Pipeline.apply (m : Pipeline) : PipelineEvent → Pipeline
  | .task t event =>
      match m.tasks[t]?.bind (fun task => task.next m.root event) with
      | none => m
      | some s => m.stepTask t s
  | .restart broker => m.restart broker
  | .resumed broker t =>
      match m.entries broker with
      | none => m
      | some e =>
          if (broker, t) ∈ m.waiting ∧ m.tasks[t]?.map EngineTask.phase = some .done then
            Pipeline.respawn { m with waiting := m.waiting.erase (broker, t) } broker e
          else m

def Pipeline.run (m : Pipeline) (events : List PipelineEvent) : Pipeline :=
  events.foldl Pipeline.apply m

/-! ## Careful runs -/

/-- An attempt raises nothing once the handler is installed; no broker is restarted while a
    restart of it is waiting. -/
def CarefulEvent (m : Pipeline) : PipelineEvent → Prop
  | .task _ (.attempt built) => built.leaks = false
  | .restart broker => broker ∉ m.waiting.map Prod.fst
  | _ => True

/-- Every event of the run is careful. -/
def CarefulRun (m : Pipeline) (events : List PipelineEvent) : Prop :=
  ∀ n, (hn : n < events.length) → CarefulEvent (m.run (events.take n)) events[n]

instance (m : Pipeline) : (event : PipelineEvent) → Decidable (CarefulEvent m event)
  | .task _ (.attempt built) => inferInstanceAs (Decidable (built.leaks = false))
  | .restart broker => inferInstanceAs (Decidable (broker ∉ m.waiting.map Prod.fst))
  | .task _ .started | .task _ .raised | .task _ .cancelled | .task _ .metricsEnded
  | .resumed _ _ => .isTrue trivial

instance (m : Pipeline) (events : List PipelineEvent) : Decidable (CarefulRun m events) :=
  inferInstanceAs (Decidable (∀ n, (hn : n < events.length) →
    CarefulEvent (m.run (events.take n)) events[n]))

/-- The broker's files on the root logger. -/
def Pipeline.fileCount (m : Pipeline) (broker : String) : ℕ :=
  m.root.handlers.countP (fun h => decide (h.broker = some broker))

/-- No run of an engine is under way. -/
def Pipeline.Idle (m : Pipeline) : Prop :=
  ∀ task ∈ m.tasks, task.phase = .spawned ∨ task.phase = .backingOff ∨ task.phase = .done

/-! ## What a step of a task does -/

def TaskPhase.handler : TaskPhase → Option LogHandler
  | .starting h | .running h | .stopping h _ => some h
  | .spawned | .backingOff | .done => none

/-- What a task's step does to the handlers: nothing, a new one that the task holds, or the
    removal of the one it held. -/
inductive HandlerMove (root : RootLogger) (task : EngineTask) (s : TaskStep) : Prop
  | same : s.root = root → s.task.phase.handler = task.phase.handler → HandlerMove root task s
  | added (h : LogHandler) : task.phase.handler = none → h ∉ root.handlers →
      h.broker = some task.broker → s.root.handlers = root.handlers ++ [h] →
      s.task.phase.handler = some h → HandlerMove root task s
  | removed (h : LogHandler) : task.phase.handler = some h →
      s.root.handlers = root.handlers.erase h → s.task.phase.handler = none →
      HandlerMove root task s

/-- What a step of a task without a leak does. -/
structure TaskMove (root : RootLogger) (task : EngineTask) (s : TaskStep) : Prop where
  broker_eq : s.task.broker = task.broker
  live : s.task.phase ≠ .done → task.phase ≠ .done
  task_eq : ∀ e, (s.note e).task = e.task
  handlers : HandlerMove root task s

variable {root : RootLogger} {task : EngineTask} {s : TaskStep} {event : TaskEvent} {built : Built}
  {base : List LogHandler} {m : Pipeline} {broker : String} {t : ℕ} {e : EngineEntry}

/-- `task'` is the task with its back-off renewed. -/
theorem attempt_move {task' : EngineTask} (hbroker : task'.broker = task.broker)
    (hphase : task.phase.handler = none) (hlive : task.phase ≠ .done)
    (hbuilt : built.leaks = false) : TaskMove root task (task'.attempt root built) := by
  cases built with
  | forBrokerRaises | engineRaises => cases hbuilt
  | fileRaises =>
      exact ⟨hbroker, fun _ => hlive, fun _ => rfl, .same rfl hphase.symm⟩
  | ready =>
      refine ⟨hbroker, fun _ => hlive, fun _ => rfl,
        .added (root.fileHandler task'.broker) hphase (fileHandler_notMem root _) ?_ rfl rfl⟩
      rw [RootLogger.fileHandler, hbroker]

theorem leave_move {h : LogHandler} (hphase : task.phase.handler = some h) (how : RunEnd) :
    TaskMove root task (task.leave (root.removeHandler h) how) := by
  have hlive : task.phase ≠ .done := by
    intro hdone
    rw [hdone] at hphase
    cases hphase
  cases how with
  | exception => exact ⟨rfl, fun _ => hlive, fun _ => rfl, .removed h hphase rfl rfl⟩
  | cancelledError => exact ⟨rfl, fun _ => hlive, fun _ => rfl, .removed h hphase rfl rfl⟩

/-- Every step of a task that does not leak is a move. -/
theorem next_move (hstep : task.next root event = some s)
    (hcareful : ∀ built, event = .attempt built → built.leaks = false) :
    TaskMove root task s := by
  obtain ⟨b, phase, cancelling, backoff⟩ := task
  cases event with
  | attempt built =>
      have hbuilt := hcareful built rfl
      cases phase <;> cases cancelling <;> cases hstep
      · exact attempt_move rfl rfl (by simp) hbuilt
      · exact attempt_move rfl rfl (by simp) hbuilt
  | started =>
      cases phase <;> cases cancelling <;> cases hstep
      exact ⟨rfl, fun _ => by simp, fun _ => rfl, .same rfl rfl⟩
  | raised =>
      cases phase <;> cases cancelling <;> cases hstep
      · exact leave_move rfl _
      · exact ⟨rfl, fun _ => by simp, fun _ => rfl, .same rfl rfl⟩
  | cancelled =>
      cases phase <;> cases cancelling <;> cases hstep
      · exact ⟨rfl, fun h => absurd rfl h, fun _ => rfl, .same rfl rfl⟩
      · exact leave_move rfl _
      · exact ⟨rfl, fun _ => by simp, fun _ => rfl, .same rfl rfl⟩
      · exact leave_move rfl _
      · exact ⟨rfl, fun h => absurd rfl h, fun _ => rfl, .same rfl rfl⟩
  | metricsEnded =>
      cases phase <;> cases hstep
      exact leave_move rfl _

/-! ## The invariant -/

/-- The handler a task holds. -/
def Pipeline.holder (m : Pipeline) (t : ℕ) : Option LogHandler :=
  m.tasks[t]?.bind (fun task => task.phase.handler)

/-- The task the entry of a broker names. -/
def Pipeline.taskOf (m : Pipeline) (broker : String) : Option ℕ :=
  (m.entries broker).map EngineEntry.task

/-- The files on the root logger are those of the runs under way, a task that is not done is the
    one its entry names, and each broker has one waiting restart at most. -/
structure Tidy (base : List LogHandler) (m : Pipeline) : Prop where
  kept : InCustody base m.root.handlers m.holder
  own : ∀ (t : ℕ) (task : EngineTask) (h : LogHandler), m.tasks[t]? = some task →
    task.phase.handler = some h → h.broker = some task.broker
  current : ∀ (t : ℕ) (task : EngineTask), m.tasks[t]? = some task → task.phase ≠ .done →
    m.taskOf task.broker = some t
  waits : ∀ w ∈ m.waiting, m.taskOf w.1 = some w.2
  waits_nodup : (m.waiting.map Prod.fst).Nodup

theorem holder_eq_some {h : LogHandler} (hheld : m.holder t = some h) :
    ∃ task, m.tasks[t]? = some task ∧ task.phase.handler = some h :=
  Option.bind_eq_some_iff.mp hheld

theorem getElem?_stepTask (ht : m.tasks[t]? = some task) (i : ℕ) :
    (m.stepTask t s).tasks[i]? = if i = t then some s.task else m.tasks[i]? := by
  obtain ⟨hlt, -⟩ := List.getElem?_eq_some_iff.mp ht
  by_cases hi : i = t
  · subst hi
    rw [if_pos rfl]
    exact List.getElem?_set_self hlt
  · rw [if_neg hi]
    exact List.getElem?_set_ne (Ne.symm hi)

theorem holder_stepTask (ht : m.tasks[t]? = some task) (i : ℕ) :
    (m.stepTask t s).holder i = if i = t then s.task.phase.handler else m.holder i := by
  rw [Pipeline.holder, getElem?_stepTask ht]
  split
  · rfl
  · rfl

theorem taskOf_stepTask (hnote : ∀ e, (s.note e).task = e.task) (b : String) :
    (m.stepTask t s).taskOf b = m.taskOf b := by
  unfold Pipeline.taskOf Pipeline.stepTask
  dsimp only
  split
  · rw [Option.map_map]
    exact congrArg (fun f => (m.entries b).map f) (funext hnote)
  · rfl

/-- A move takes what it adds into custody and gives up what the task held. -/
theorem Tidy.kept_stepTask (h : Tidy base m) (hbase : ∀ g ∈ base, g.broker = none)
    (ht : m.tasks[t]? = some task) (hmove : TaskMove m.root task s) :
    InCustody base (m.stepTask t s).root.handlers (m.stepTask t s).holder := by
  have hholder : m.holder t = task.phase.handler := by rw [Pipeline.holder, ht]; rfl
  have hothers : ∀ i g, i ≠ t → m.holder i = some g → (m.stepTask t s).holder i = some g := by
    intro i g hi hg
    rw [holder_stepTask ht, if_neg hi, hg]
  have hself : (m.stepTask t s).holder t = s.task.phase.handler := by
    rw [holder_stepTask ht, if_pos rfl]
  have hroot : (m.stepTask t s).root = s.root := rfl
  rw [hroot]
  cases hmove.handlers with
  | same hsame hphase =>
      rw [hsame]
      refine h.kept.of_holder fun i g hg => ?_
      by_cases hi : i = t
      · subst hi
        rw [hself, hphase, ← hholder, hg]
      · exact hothers i g hi hg
  | added g hphase hnew _ hhandlers hheld =>
      rw [hhandlers]
      refine h.kept.acquire hnew (hself.trans hheld) fun i g' hg' => ?_
      refine hothers i g' (fun hi => ?_) hg'
      rw [hi, hholder, hphase] at hg'
      cases hg'
  | removed g hphase hhandlers _ =>
      rw [hhandlers]
      refine h.kept.release (hholder.trans hphase) (fun hmem => ?_) hothers
      have hbroker := h.own t task g ht hphase
      rw [hbase g hmem] at hbroker
      cases hbroker

theorem Tidy.own_stepTask (h : Tidy base m) (ht : m.tasks[t]? = some task)
    (hmove : TaskMove m.root task s) (i : ℕ) (task' : EngineTask) (g : LogHandler)
    (hi : (m.stepTask t s).tasks[i]? = some task') (hg : task'.phase.handler = some g) :
    g.broker = some task'.broker := by
  rw [getElem?_stepTask ht] at hi
  split at hi
  · cases hi
    rw [hmove.broker_eq]
    cases hmove.handlers with
    | same _ hphase => exact h.own t task g ht (hphase ▸ hg)
    | added g' _ _ hbroker _ hheld =>
        rw [hheld] at hg
        cases hg
        exact hbroker
    | removed _ _ _ hnone =>
        rw [hnone] at hg
        cases hg
  · exact h.own i task' g hi hg

/-- A move of a task keeps the invariant. -/
theorem Tidy.stepTask (h : Tidy base m) (hbase : ∀ g ∈ base, g.broker = none)
    (ht : m.tasks[t]? = some task) (hmove : TaskMove m.root task s) :
    Tidy base (m.stepTask t s) where
  kept := h.kept_stepTask hbase ht hmove
  own := h.own_stepTask ht hmove
  current := by
    intro i task' hi hlive
    rw [taskOf_stepTask hmove.task_eq]
    rw [getElem?_stepTask ht] at hi
    split at hi
    · next hit =>
        cases hi
        rw [hmove.broker_eq, hit]
        exact h.current t task ht (hmove.live hlive)
    · exact h.current i task' hi hlive
  waits := by
    intro w hw
    rw [taskOf_stepTask hmove.task_eq]
    exact h.waits w hw
  waits_nodup := h.waits_nodup

/-- A restart that waits for the task of its broker. -/
theorem Tidy.await (h : Tidy base m) (hbroker : broker ∉ m.waiting.map Prod.fst)
    (htask : m.taskOf broker = some t) :
    Tidy base { m with waiting := m.waiting ++ [(broker, t)] } where
  kept := h.kept
  own := h.own
  current := h.current
  waits := by
    intro w hw
    rcases List.mem_append.mp hw with hw | hw
    · exact h.waits w hw
    · rw [List.mem_singleton.mp hw]
      exact htask
  waits_nodup := by
    rw [List.map_append, List.map_singleton, ← List.concat_eq_append]
    exact h.waits_nodup.concat hbroker

theorem addTask_getElem? {i : ℕ} (hi : (m.addTask broker e).tasks[i]? = some task) :
    m.tasks[i]? = some task ∨ i = m.tasks.length ∧ task = { broker := broker } := by
  rw [Pipeline.addTask, List.getElem?_append] at hi
  split at hi
  · exact Or.inl hi
  · rw [List.getElem?_singleton] at hi
    split at hi
    · cases hi
      exact Or.inr ⟨by omega, rfl⟩
    · cases hi

/-- A new task for a broker whose tasks are all done and which no restart waits for. -/
theorem Tidy.addTask (h : Tidy base m) (hbroker : broker ∉ m.waiting.map Prod.fst)
    (hdone : ∀ (i : ℕ) (task : EngineTask), m.tasks[i]? = some task → task.broker = broker →
      task.phase = .done)
    (e : EngineEntry) : Tidy base (m.addTask broker e) := by
  have htaskOf : ∀ b, b ≠ broker → (m.addTask broker e).taskOf b = m.taskOf b := by
    intro b hb
    unfold Pipeline.taskOf Pipeline.addTask
    dsimp only
    rw [Function.update_of_ne hb]
  constructor
  · refine h.kept.of_holder fun i g hg => ?_
    obtain ⟨task, hi, hphase⟩ := holder_eq_some hg
    have hlt := (List.getElem?_eq_some_iff.mp hi).1
    rw [Pipeline.holder, Pipeline.addTask, List.getElem?_append_left hlt, hi]
    exact hphase
  · intro i task g hi hg
    rcases addTask_getElem? hi with hi | ⟨-, rfl⟩
    · exact h.own i task g hi hg
    · cases hg
  · intro i task hi hlive
    rcases addTask_getElem? hi with hi | ⟨rfl, rfl⟩
    · have hb : task.broker ≠ broker := fun hb => hlive (hdone i task hi hb)
      rw [htaskOf _ hb]
      exact h.current i task hi hlive
    · unfold Pipeline.taskOf Pipeline.addTask
      dsimp only
      rw [Function.update_self]
      rfl
  · intro w hw
    have hb : w.1 ≠ broker := fun hb => hbroker (hb ▸ List.mem_map_of_mem hw)
    rw [htaskOf _ hb]
    exact h.waits w hw
  · exact h.waits_nodup

/-- Once the task of its entry is done, a broker has no other. -/
theorem Tidy.all_done (h : Tidy base m) (htask : m.taskOf broker = some t)
    (hdone : m.tasks[t]?.map EngineTask.phase = some .done) {i : ℕ} (hi : m.tasks[i]? = some task)
    (hbroker : task.broker = broker) : task.phase = .done := by
  by_contra hlive
  have hit := h.current i task hi hlive
  rw [hbroker, htask] at hit
  cases hit
  rw [hi, Option.map_some, Option.some.injEq] at hdone
  exact hlive hdone

theorem Tidy.restart (h : Tidy base m) (hbase : ∀ g ∈ base, g.broker = none)
    (hbroker : broker ∉ m.waiting.map Prod.fst) : Tidy base (m.restart broker) := by
  unfold Pipeline.restart
  split
  · exact h
  next e he =>
  have htask : m.taskOf broker = some e.task := by rw [Pipeline.taskOf, he]; rfl
  split
  · exact h
  next task ht =>
  split
  · next hdone =>
      refine h.addTask hbroker (fun i task' hi hb => h.all_done htask ?_ hi hb) _
      rw [ht, Option.map_some, hdone]
  · next hlive =>
      have hmove : TaskMove m.root task ⟨m.root, { task with cancelling := true }, id⟩ :=
        ⟨rfl, fun _ => hlive, fun _ => rfl, .same rfl rfl⟩
      refine (h.stepTask hbase ht hmove).await hbroker ?_
      rw [taskOf_stepTask hmove.task_eq]
      exact htask

/-- The waiting restarts of other brokers stay; this one is over. -/
theorem Tidy.resume (h : Tidy base m) (hmem : (broker, t) ∈ m.waiting) :
    Tidy base { m with waiting := m.waiting.erase (broker, t) } ∧
      broker ∉ (m.waiting.erase (broker, t)).map Prod.fst := by
  have hnodup : m.waiting.Nodup := List.Nodup.of_map Prod.fst h.waits_nodup
  refine ⟨⟨h.kept, h.own, h.current, fun w hw => h.waits w (List.mem_of_mem_erase hw),
    h.waits_nodup.sublist (List.Sublist.map _ List.erase_sublist)⟩, fun hin => ?_⟩
  obtain ⟨w, hw, hfst⟩ := List.mem_map.mp hin
  rw [hnodup.mem_erase_iff] at hw
  exact hw.1 (List.inj_on_of_nodup_map h.waits_nodup hw.2 hmem hfst)

/-- A careful event keeps the invariant. -/
theorem Tidy.apply (h : Tidy base m) (hbase : ∀ g ∈ base, g.broker = none)
    (event : PipelineEvent) (hcareful : CarefulEvent m event) : Tidy base (m.apply event) := by
  cases event with
  | task t event =>
      rw [Pipeline.apply]
      split
      · exact h
      · next s hs =>
          obtain ⟨task, ht, hnext⟩ := Option.bind_eq_some_iff.mp hs
          refine h.stepTask hbase ht (next_move hnext fun built hevent => ?_)
          subst hevent
          exact hcareful
  | restart broker => exact h.restart hbase hcareful
  | resumed broker t =>
      rw [Pipeline.apply]
      split
      · exact h
      next e he =>
      split
      · next hwait =>
          obtain ⟨hresumed, hfree⟩ := h.resume hwait.1
          exact hresumed.addTask hfree
            (fun i task hi hb => h.all_done (h.waits _ hwait.1) hwait.2 hi hb) _
      · exact h

/-- One task for each of some new brokers. -/
theorem Tidy.addTasks {sources : List String} (hnodup : sources.Nodup) (h : Tidy base m)
    (hwaiting : m.waiting = [])
    (hfresh : ∀ (i : ℕ) (task : EngineTask), m.tasks[i]? = some task → task.broker ∉ sources) :
    Tidy base (sources.foldl (fun m broker => m.addTask broker ⟨0, .starting, 0⟩) m) := by
  induction sources generalizing m with
  | nil => exact h
  | cons broker rest ih =>
      rw [List.nodup_cons] at hnodup
      rw [List.foldl_cons]
      refine ih hnodup.2 (h.addTask ?_ ?_ _) hwaiting ?_
      · rw [hwaiting]
        exact List.not_mem_nil
      · intro i task hi hb
        exact absurd (hb ▸ List.mem_cons_self) (hfresh i task hi)
      · intro i task hi
        rcases addTask_getElem? hi with hi | ⟨-, rfl⟩
        · exact fun hmem => hfresh i task hi (List.mem_cons_of_mem _ hmem)
        · exact hnodup.1

theorem tidy_start (root : RootLogger) {sources : List String} (hnodup : sources.Nodup) :
    Tidy root.handlers (Pipeline.start root sources) := by
  refine Tidy.addTasks hnodup ⟨inCustody_base _ _, ?_, ?_, ?_, List.nodup_nil⟩ rfl ?_
  · exact fun i task g hi _ => by cases hi
  · exact fun i task hi _ => by cases hi
  · exact fun w hw => by cases hw
  · exact fun i task hi => by cases hi

theorem Tidy.fileCount_le_one (h : Tidy base m) (hbase : ∀ g ∈ base, g.broker = none)
    (broker : String) : m.fileCount broker ≤ 1 := by
  refine h.kept.countP_le_one (fun g hg => ?_) fun i j a b ha hb hpa hpb => ?_
  · rw [hbase g hg]
    rfl
  · obtain ⟨task, hi, hheld⟩ := holder_eq_some ha
    obtain ⟨task', hj, hheld'⟩ := holder_eq_some hb
    have hbroker := h.own i task a hi hheld
    have hbroker' := h.own j task' b hj hheld'
    rw [of_decide_eq_true hpa] at hbroker
    rw [of_decide_eq_true hpb] at hbroker'
    cases hbroker
    have htask := h.current i task hi (fun hdone => by rw [hdone] at hheld; cases hheld)
    have htask' := h.current j task' hj (fun hdone => by rw [hdone] at hheld'; cases hheld')
    rw [← Option.some.inj hbroker', htask] at htask'
    exact Option.some.inj htask'

theorem Tidy.handlers_of_idle (h : Tidy base m) (hidle : m.Idle) : m.root.handlers = base := by
  refine h.kept.eq_of_idle fun i => ?_
  rw [Option.eq_none_iff_forall_ne_some]
  intro g hg
  obtain ⟨task, hi, hheld⟩ := holder_eq_some hg
  rcases hidle task (List.mem_of_getElem? hi) with hphase | hphase | hphase
  all_goals
    rw [hphase] at hheld
    cases hheld

theorem tidy_run {sources : List String} (hbase : ∀ g ∈ root.handlers, g.broker = none)
    (hnodup : sources.Nodup) {events : List PipelineEvent}
    (hcareful : CarefulRun (Pipeline.start root sources) events) (n : ℕ) :
    Tidy root.handlers ((Pipeline.start root sources).run (events.take n)) :=
  foldl_take_invariant (Tidy root.handlers) (fun _ event h hok => h.apply hbase event hok)
    (tidy_start root hnodup) hcareful n

/-! ## Runs -/

/-- A run of an engine leaves the handlers it found, unless it leaks. -/
theorem runEngine_handlers_iff (root : RootLogger) (broker : String) (built : Built)
    (body : BodyEnd) :
    (runEngine root broker built body).1.handlers = root.handlers ↔ built.leaks = false := by
  cases built with
  | fileRaises => exact iff_of_true rfl rfl
  | forBrokerRaises | engineRaises =>
      refine iff_of_false (fun h => ?_) Bool.noConfusion
      exact List.cons_ne_nil _ _ (List.append_right_eq_self.mp h)
  | ready =>
      refine iff_of_true ?_ rfl
      change (root.handlers ++ [root.fileHandler broker]).erase (root.fileHandler broker) = _
      rw [List.erase_append_right _ (fileHandler_notMem root broker), List.erase_cons_head,
        List.append_nil]

/-- **Handlers are restored**: by a run, however it ends, if and only if nothing raises between
    `addHandler` and the `try`; and in every careful run of a manager of different sources, each
    broker has one file at most, and none is left when no engine is up. -/
theorem handlers_restored_iff (root : RootLogger) :
    (∀ (broker : String) (built : Built) (body : BodyEnd),
      (runEngine root broker built body).1.handlers = root.handlers ↔ built.leaks = false) ∧
    ∀ (sources : List String) (events : List PipelineEvent) (n : ℕ),
      (∀ g ∈ root.handlers, g.broker = none) → sources.Nodup →
      CarefulRun (Pipeline.start root sources) events →
      (∀ broker, ((Pipeline.start root sources).run (events.take n)).fileCount broker ≤ 1) ∧
        (((Pipeline.start root sources).run (events.take n)).Idle →
          ((Pipeline.start root sources).run (events.take n)).root.handlers = root.handlers) :=
  ⟨runEngine_handlers_iff root, fun _ _ n hbase hnodup hcareful =>
    ⟨(tidy_run hbase hnodup hcareful n).fileCount_le_one hbase,
      (tidy_run hbase hnodup hcareful n).handlers_of_idle⟩⟩

/-- The handler `setup_logging` installs. -/
def consoleRoot : RootLogger where
  handlers := [⟨0, none⟩]
  made := 1
  id_lt := by simp

/-- Two engines start; one is restarted while the other crashes and tries again. -/
def restartedRun : List PipelineEvent :=
  [.task 0 (.attempt .ready), .task 1 (.attempt .ready), .task 0 .started, .restart "exness",
    .task 1 .raised, .task 0 .cancelled, .task 0 .metricsEnded, .task 1 (.attempt .fileRaises),
    .resumed "exness" 0, .task 2 (.attempt .ready), .task 1 (.attempt .ready)]

theorem restartedRun_handlers :
    ((Pipeline.start consoleRoot ["exness", "icmarkets"]).run restartedRun).root.handlers =
        [⟨0, none⟩, ⟨3, some "exness"⟩, ⟨4, some "icmarkets"⟩] ∧
      ((Pipeline.start consoleRoot ["exness", "icmarkets"]).run
        (restartedRun.take 11)).fileCount "exness" ≤ 1 :=
  ⟨by decide +kernel, ((handlers_restored_iff consoleRoot).2 ["exness", "icmarkets"] restartedRun 11
    (by decide) (by decide) (by decide +kernel)).1 "exness"⟩

/-- A profile that `for_broker` rejects leaves a handler behind at each attempt; two restarts of a
    broker at once, or a source named twice, give it two engines. -/
theorem handlers_left :
    (runEngine consoleRoot "exness" .forBrokerRaises .cancelled).1.handlers ≠
        consoleRoot.handlers ∧
      ((Pipeline.start consoleRoot ["exness"]).run [.task 0 (.attempt .forBrokerRaises),
        .task 0 (.attempt .forBrokerRaises)]).fileCount "exness" = 2 ∧
      ((Pipeline.start consoleRoot ["exness"]).run [.task 0 (.attempt .ready), .restart "exness",
        .restart "exness", .task 0 .cancelled, .resumed "exness" 0, .resumed "exness" 0,
        .task 1 (.attempt .ready), .task 2 (.attempt .ready)]).fileCount "exness" = 2 ∧
      ((Pipeline.start consoleRoot ["exness", "exness"]).run [.task 0 (.attempt .ready),
        .task 1 (.attempt .ready)]).fileCount "exness" = 2 := by
  decide +kernel

end SignalEngine
