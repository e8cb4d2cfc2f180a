/-
  One broker's engine among the others: what its supervision depends on.

  Model. `m.solo broker` is what the manager holds of a broker: its entry, its tasks in order and
  the restarts that wait for one, each task under its place among them; only the handlers are
  left out. `ownEvents` is what concerns a broker in a run: the events of its tasks, and its
  restarts. `SoloEngine.apply` is the supervision of an engine that is alone.

  Proved: `engines_apart`: in every run, crashes, leaks and overlapping restarts included, a broker
  is where its own events bring an engine that is alone; so two runs of two managers in which the
  same happens to a broker leave it in the same state.
-/
import SignalEngine.Lib.Parts
import SignalEngine.Manager.Supervision

namespace SignalEngine

open Lib

/-! ## An engine alone -/

/-- A phase without its handler. -/
inductive Stage where
  | spawned
  | starting
  | running
  | stopping (how : RunEnd)
  | backingOff
  | done
  deriving DecidableEq, Repr

structure SoloTask where
  stage : Stage := .spawned
  cancelling : Bool := false
  backoff : ℕ := 5
  deriving DecidableEq, Repr

structure SoloStep where
  task : SoloTask
  note : EngineEntry → EngineEntry

namespace SoloTask

variable (task : SoloTask)

def crash : SoloStep :=
  ⟨{ task with stage := .backingOff, cancelling := false },
    fun e => { e with health := .error, restartCount := e.restartCount + 1 }⟩

def stop : SoloStep :=
  ⟨{ task with stage := .done, cancelling := false }, fun e => { e with health := .stopped }⟩

def leave : RunEnd → SoloStep
  | .exception => task.crash
  | .cancelledError => task.stop

def attempt : Built → SoloStep
  | .ready => ⟨{ task with stage := .starting }, fun e => { e with health := .starting }⟩
  | .fileRaises | .forBrokerRaises | .engineRaises => task.crash

def next : TaskEvent → Option SoloStep
  | .attempt built =>
      match task.stage, task.cancelling with
      | .spawned, false => some (task.attempt built)
      | .backingOff, false =>
          some (SoloTask.attempt { task with backoff := min (task.backoff * 2) 300 } built)
      | _, _ => none
  | .started =>
      match task.stage, task.cancelling with
      | .starting, false =>
          some ⟨{ task with stage := .running }, fun e => { e with health := .running }⟩
      | _, _ => none
  | .raised =>
      match task.stage, task.cancelling with
      | .starting, false => some task.crash
      | .running, false => some ⟨{ task with stage := .stopping .exception }, id⟩
      | _, _ => none
  | .cancelled =>
      match task.stage, task.cancelling with
      | .spawned, true => some ⟨{ task with stage := .done, cancelling := false }, id⟩
      | .starting, true | .backingOff, true => some task.stop
      | .running, true =>
          some ⟨{ task with stage := .stopping .cancelledError, cancelling := false }, id⟩
      | .stopping how, true => some (task.leave how)
      | _, _ => none
  | .metricsEnded =>
      match task.stage with
      | .stopping how => some (task.leave how)
      | _ => none

end SoloTask

@[ext]
structure SoloEngine where
  entry : Option EngineEntry := none
  tasks : List SoloTask := []
  waiting : List ℕ := []
  deriving DecidableEq, Repr

inductive SoloEvent where
  | task (i : ℕ) (event : TaskEvent)
  | restart
  | resumed (i : ℕ)
  deriving DecidableEq, Repr

namespace SoloEngine

variable (v : SoloEngine)

def stepTask (i : ℕ) (s : SoloStep) : SoloEngine :=
  { v with tasks := v.tasks.set i s.task, entry := v.entry.map s.note }

def respawn (e : EngineEntry) : SoloEngine :=
  { v with
    tasks := v.tasks ++ [{}]
    entry := some { e with restartCount := 0, task := v.tasks.length } }

def apply : SoloEvent → SoloEngine
  | .task i event =>
      match v.tasks[i]?.bind (fun task => task.next event) with
      | none => v
      | some s => v.stepTask i s
  | .restart =>
      match v.entry with
      | none => v
      | some e =>
          match v.tasks[e.task]? with
          | none => v
          | some task =>
              if task.stage = .done then v.respawn e
              else
                { v with
                  tasks := v.tasks.set e.task { task with cancelling := true }
                  waiting := v.waiting ++ [e.task] }
  | .resumed i =>
      match v.entry with
      | none => v
      | some e =>
          if i ∈ v.waiting ∧ v.tasks[i]?.map SoloTask.stage = some .done then
            SoloEngine.respawn { v with waiting := v.waiting.erase i } e
          else v

def run (events : List SoloEvent) : SoloEngine := events.foldl apply v

end SoloEngine

/-! ## What the manager holds of a broker -/

def TaskPhase.stage : TaskPhase → Stage
  | .spawned => .spawned
  | .starting _ => .starting
  | .running _ => .running
  | .stopping _ how => .stopping how
  | .backingOff => .backingOff
  | .done => .done

def EngineTask.solo (task : EngineTask) : SoloTask :=
  ⟨task.phase.stage, task.cancelling, task.backoff⟩

def EngineTask.ofBroker (broker : String) (task : EngineTask) : Bool :=
  decide (task.broker = broker)

/-- The place of a task among those of the broker. -/
def Pipeline.place (m : Pipeline) (broker : String) (t : ℕ) : ℕ :=
  m.tasks.countPBefore (EngineTask.ofBroker broker) t

def Pipeline.solo (m : Pipeline) (broker : String) : SoloEngine where
  entry := (m.entries broker).map fun e => { e with task := m.place broker e.task }
  tasks := (m.tasks.filter (EngineTask.ofBroker broker)).map EngineTask.solo
  waiting := (m.waiting.filter fun w => decide (w.1 = broker)).map fun w => m.place broker w.2

/-- The event of a broker, as one of an engine alone. -/
def Pipeline.soloEvent (m : Pipeline) (broker : String) : PipelineEvent → Option SoloEvent
  | .task t event =>
      if (m.tasks[t]?).any (EngineTask.ofBroker broker) then some (.task (m.place broker t) event)
      else none
  | .restart b => if b = broker then some .restart else none
  | .resumed b t =>
      if b = broker ∧ (m.tasks[t]?).any (EngineTask.ofBroker broker) = true then
        some (.resumed (m.place broker t))
      else none

/-- What happens to a broker in a run. -/
def Pipeline.ownEvents (broker : String) (m : Pipeline) : List PipelineEvent → List SoloEvent
  | [] => []
  | event :: rest =>
      (m.soloEvent broker event).toList ++ Pipeline.ownEvents broker (m.apply event) rest

/-- Task `t` is one of the broker. -/
def Pipeline.Owns (m : Pipeline) (broker : String) (t : ℕ) : Prop :=
  ∃ task, m.tasks[t]? = some task ∧ task.broker = broker

/-- Each entry and each waiting restart names a task of its broker. -/
structure Placed (m : Pipeline) : Prop where
  named : ∀ broker e, m.entries broker = some e → m.Owns broker e.task
  waits : ∀ w ∈ m.waiting, m.Owns w.1 w.2

variable {root : RootLogger} {task : EngineTask} {s : TaskStep} {event : TaskEvent}
  {m : Pipeline} {broker b : String} {t : ℕ} {e : EngineEntry} {sources : List String}
  {events : List PipelineEvent}

theorem ofBroker_iff : task.ofBroker broker = true ↔ task.broker = broker := decide_eq_true_iff

/-! ## Steps of a task -/

theorem attempt_solo (root : RootLogger) (task : EngineTask) (built : Built) :
    (task.attempt root built).task.solo = (task.solo.attempt built).task ∧
      (task.attempt root built).note = (task.solo.attempt built).note := by
  cases built <;> exact ⟨rfl, rfl⟩

/-- A task steps as it would alone. -/
theorem next_solo (root : RootLogger) (task : EngineTask) (event : TaskEvent) :
    (task.next root event).map (fun s => (s.task.solo, s.note)) =
      (task.solo.next event).map fun s => (s.task, s.note) := by
  obtain ⟨broker, phase, cancelling, backoff⟩ := task
  cases event with
  | attempt built =>
      cases phase <;> cases cancelling <;> first
        | rfl
        | exact congrArg some (Prod.ext (attempt_solo root _ built).1 (attempt_solo root _ built).2)
  | started | raised => cases phase <;> cases cancelling <;> rfl
  | cancelled =>
      cases phase with
      | stopping h how => cases cancelling <;> cases how <;> rfl
      | spawned | starting | running | backingOff | done => cases cancelling <;> rfl
  | metricsEnded =>
      cases phase with
      | stopping h how => cases how <;> rfl
      | spawned | starting | running | backingOff | done => rfl

theorem next_solo_some (hstep : task.next root event = some s) :
    task.solo.next event = some ⟨s.task.solo, s.note⟩ := by
  have hmap := next_solo root task event
  rw [hstep, Option.map_some] at hmap
  obtain ⟨⟨task', note⟩, hsolo, heq⟩ := Option.map_eq_some_iff.mp hmap.symm
  cases heq
  exact hsolo

theorem next_solo_none (hstep : task.next root event = none) : task.solo.next event = none := by
  have hmap := next_solo root task event
  rw [hstep, Option.map_none] at hmap
  exact Option.map_eq_none_iff.mp hmap.symm

/-- A step notes the same whatever task the entry names. -/
theorem note_place {s : SoloStep} {task : SoloTask} (hstep : task.next event = some s) (k : ℕ)
    (e : EngineEntry) : { s.note e with task := k } = s.note { e with task := k } := by
  obtain ⟨stage, cancelling, backoff⟩ := task
  cases event with
  | attempt built =>
      cases stage <;> cases cancelling <;> cases hstep
      all_goals
        cases built <;> rfl
  | started | raised => cases stage <;> cases cancelling <;> cases hstep <;> rfl
  | cancelled =>
      cases stage with
      | stopping how =>
          cases cancelling <;> cases hstep
          cases how <;> rfl
      | spawned | starting | running | backingOff | done =>
          cases cancelling <;> cases hstep <;> rfl
  | metricsEnded =>
      cases stage with
      | stopping how => cases hstep; cases how <;> rfl
      | spawned | starting | running | backingOff | done => cases hstep

/-! ## Tasks set and added -/

theorem owns_stepTask (ht : m.tasks[t]? = some task) (hbroker : s.task.broker = task.broker)
    {i : ℕ} (h : m.Owns b i) : (m.stepTask t s).Owns b i := by
  obtain ⟨task', hi, hb⟩ := h
  rw [Pipeline.Owns, getElem?_stepTask ht]
  by_cases hit : i = t
  · rw [hit, ht] at hi
    obtain rfl := Option.some.inj hi
    exact ⟨s.task, if_pos hit, hbroker.trans hb⟩
  · exact ⟨task', (if_neg hit).trans hi, hb⟩

theorem Placed.stepTask (h : Placed m) (ht : m.tasks[t]? = some task)
    (hbroker : s.task.broker = task.broker) (hname : ∀ e, (s.note e).task = e.task) :
    Placed (m.stepTask t s) := by
  refine ⟨fun b e he => ?_, fun w hw => owns_stepTask ht hbroker (h.waits w hw)⟩
  apply owns_stepTask ht hbroker
  by_cases hb : b = s.task.broker
  · obtain ⟨e₀, he₀, rfl⟩ := Option.map_eq_some_iff.mp ((if_pos hb).symm.trans he)
    rw [hname]
    exact h.named b e₀ he₀
  · exact h.named b e ((if_neg hb).symm.trans he)

theorem addTask_entries_self (m : Pipeline) (broker : String) (e : EngineEntry) :
    (m.addTask broker e).entries broker = some { e with task := m.tasks.length } :=
  Function.update_self _ _ _

theorem addTask_entries_of_ne (m : Pipeline) (hb : b ≠ broker) (e : EngineEntry) :
    (m.addTask broker e).entries b = m.entries b :=
  Function.update_of_ne hb _ _

theorem owns_addTask {i : ℕ} (h : m.Owns b i) (broker : String) (e : EngineEntry) :
    (m.addTask broker e).Owns b i := by
  obtain ⟨task, hi, hb⟩ := h
  exact ⟨task, (List.getElem?_append_left (List.getElem?_eq_some_iff.mp hi).1).trans hi, hb⟩

theorem Placed.addTask (h : Placed m) (broker : String) (e : EngineEntry) :
    Placed (m.addTask broker e) := by
  refine ⟨fun b e' he' => ?_, fun w hw => owns_addTask (h.waits w hw) broker e⟩
  by_cases hb : b = broker
  · rw [hb, addTask_entries_self] at he'
    obtain rfl := Option.some.inj he'
    exact ⟨{ broker := broker }, List.getElem?_concat_length, hb.symm⟩
  · rw [addTask_entries_of_ne m hb] at he'
    exact owns_addTask (h.named b e' he') broker e

theorem place_stepTask (ht : m.tasks[t]? = some task) (hbroker : s.task.broker = task.broker)
    (broker : String) (i : ℕ) : (m.stepTask t s).place broker i = m.place broker i :=
  countPBefore_set ht (by rw [EngineTask.ofBroker, EngineTask.ofBroker, hbroker]) i

theorem place_addTask {i : ℕ} (h : m.Owns b i) (broker' : String) (e : EngineEntry) :
    (m.addTask broker' e).place broker i = m.place broker i := by
  obtain ⟨task, hi, -⟩ := h
  exact countPBefore_append_of_le _ (List.getElem?_eq_some_iff.mp hi).1.le

/-- The step of a task of another broker is none of this one. -/
theorem solo_stepTask_of_ne (ht : m.tasks[t]? = some task)
    (hbroker : s.task.broker = task.broker) (hb : task.broker ≠ broker) :
    (m.stepTask t s).solo broker = m.solo broker := by
  have htasks : (m.stepTask t s).tasks.filter (EngineTask.ofBroker broker) =
      m.tasks.filter (EngineTask.ofBroker broker) := by
    refine filter_set_of_neg ht (decide_eq_false hb) (decide_eq_false ?_)
    rw [hbroker]
    exact hb
  have hentries : (m.stepTask t s).entries broker = m.entries broker := by
    refine if_neg fun heq => hb ?_
    rw [heq, hbroker]
  simp only [Pipeline.solo, htasks, hentries, place_stepTask ht hbroker]
  rfl

theorem solo_stepTask (ht : m.tasks[t]? = some task) (hbroker : s.task.broker = task.broker)
    (hb : task.broker = broker) (hname : ∀ e, (s.note e).task = e.task)
    (hnote : ∀ k e, { s.note e with task := k } = s.note { e with task := k }) :
    (m.stepTask t s).solo broker =
      (m.solo broker).stepTask (m.place broker t) ⟨s.task.solo, s.note⟩ := by
  have htasks : (m.stepTask t s).tasks.filter (EngineTask.ofBroker broker) =
      (m.tasks.filter (EngineTask.ofBroker broker)).set (m.place broker t) s.task :=
    filter_set_of_pos ht (decide_eq_true hb) (decide_eq_true (hbroker.trans hb))
  have hentries : (m.stepTask t s).entries broker = (m.entries broker).map s.note :=
    if_pos (hbroker.trans hb).symm
  simp only [Pipeline.solo, SoloEngine.stepTask, htasks, hentries, place_stepTask ht hbroker,
    List.map_set, Option.map_map, Function.comp_def, hnote, hname]
  rfl

theorem waiting_addTask (h : Placed m) (broker b : String) (e : EngineEntry) :
    ((m.addTask b e).solo broker).waiting = (m.solo broker).waiting := by
  refine List.map_congr_left fun w hw => ?_
  exact place_addTask (h.waits w (List.mem_of_mem_filter hw)) b e

theorem solo_addTask_of_ne (h : Placed m) (hb : b ≠ broker) (e : EngineEntry) :
    (m.addTask b e).solo broker = m.solo broker := by
  have htasks : (m.addTask b e).tasks.filter (EngineTask.ofBroker broker) =
      m.tasks.filter (EngineTask.ofBroker broker) := by
    change (m.tasks ++ [({ broker := b } : EngineTask)]).filter _ = _
    rw [List.filter_append, List.filter_singleton, EngineTask.ofBroker, decide_eq_false hb]
    exact List.append_nil _
  refine SoloEngine.ext ?_ (congrArg (List.map EngineTask.solo) htasks)
    (waiting_addTask h broker b e)
  change ((m.addTask b e).entries broker).map _ = (m.entries broker).map _
  rw [addTask_entries_of_ne m (Ne.symm hb)]
  refine Option.map_congr fun e' he' => ?_
  rw [place_addTask (h.named broker e' he')]

theorem solo_respawn (h : Placed m) (broker : String) (e : EngineEntry) :
    (m.respawn broker e).solo broker = (m.solo broker).respawn e := by
  have hlength : (m.respawn broker e).place broker m.tasks.length =
      (m.solo broker).tasks.length := by
    refine (countPBefore_append_of_le _ le_rfl).trans ?_
    rw [List.countPBefore_length, List.countP_eq_length_filter]
    exact (List.length_map _).symm
  have htasks : (m.respawn broker e).tasks.filter (EngineTask.ofBroker broker) =
      m.tasks.filter (EngineTask.ofBroker broker) ++ [{ broker := broker }] := by
    change (m.tasks ++ [({ broker := broker } : EngineTask)]).filter _ = _
    rw [List.filter_append, List.filter_singleton, EngineTask.ofBroker, decide_eq_true rfl]
    rfl
  refine SoloEngine.ext ?_ ?_ (waiting_addTask h broker broker _)
  · change ((m.respawn broker e).entries broker).map _ = _
    rw [Pipeline.respawn, addTask_entries_self, ← Pipeline.respawn, Option.map_some, hlength]
    rfl
  · change ((m.respawn broker e).tasks.filter _).map _ = _
    rw [htasks, List.map_append]
    rfl

theorem solo_await (m : Pipeline) (b : String) (t : ℕ) (broker : String) :
    ({ m with waiting := m.waiting ++ [(b, t)] } : Pipeline).solo broker =
      { m.solo broker with
        waiting := (m.solo broker).waiting ++ if b = broker then [m.place broker t] else [] } := by
  refine SoloEngine.ext rfl rfl ?_
  change ((m.waiting ++ [(b, t)]).filter _).map (fun w => m.place broker w.2) = _
  rw [List.filter_append, List.map_append, List.filter_singleton]
  by_cases hb : b = broker
  · rw [if_pos hb, decide_eq_true hb]
    rfl
  · rw [if_neg hb, decide_eq_false hb]
    rfl

/-! ## Events -/

theorem solo_getElem? (ht : m.tasks[t]? = some task) (hb : task.broker = broker) :
    (m.solo broker).tasks[m.place broker t]? = some task.solo := by
  have hfilter := getElem?_filter_countPBefore ht (ofBroker_iff.mpr hb)
  change ((m.tasks.filter (EngineTask.ofBroker broker)).map EngineTask.solo)[_]? = _
  rw [List.getElem?_map]
  exact congrArg (Option.map EngineTask.solo) hfilter

theorem soloEvent_task (ht : m.tasks[t]? = some task) (broker : String) (event : TaskEvent) :
    m.soloEvent broker (.task t event) =
      if task.broker = broker then some (.task (m.place broker t) event) else none := by
  rw [Pipeline.soloEvent, ht, Option.any_some]
  simp only [ofBroker_iff]

/-- The manager does to a broker what the broker's own event does to an engine alone. -/
def Follows (m m' : Pipeline) (broker : String) (event : Option SoloEvent) : Prop :=
  Placed m' ∧ m'.solo broker = event.elim (m.solo broker) (m.solo broker).apply

theorem follows_task (h : Placed m) (broker : String) (t : ℕ) (event : TaskEvent) :
    Follows m (m.apply (.task t event)) broker (m.soloEvent broker (.task t event)) := by
  rw [Pipeline.apply]
  cases ht : m.tasks[t]? with
  | none => rw [Pipeline.soloEvent, ht]; exact ⟨h, rfl⟩
  | some task =>
      rw [soloEvent_task ht, Option.bind_some]
      cases hstep : task.next m.root event with
      | none =>
          refine ⟨h, ?_⟩
          by_cases hb : task.broker = broker
          · rw [if_pos hb, Option.elim_some, SoloEngine.apply, solo_getElem? ht hb,
              Option.bind_some, next_solo_none hstep]
          · rw [if_neg hb, Option.elim_none]
      | some s =>
          have hturn := next_turn hstep
          refine ⟨h.stepTask ht hturn.broker_eq hturn.task_eq, ?_⟩
          by_cases hb : task.broker = broker
          · rw [if_pos hb, Option.elim_some, SoloEngine.apply, solo_getElem? ht hb,
              Option.bind_some, next_solo_some hstep]
            exact solo_stepTask ht hturn.broker_eq hb hturn.task_eq
              (note_place (next_solo_some hstep))
          · rw [if_neg hb]
            exact solo_stepTask_of_ne ht hturn.broker_eq hb

theorem follows_respawn (h : Placed m) (broker b : String) (e : EngineEntry) :
    Placed (m.respawn b e) ∧ (m.respawn b e).solo broker =
      if b = broker then (m.solo broker).respawn e else m.solo broker := by
  refine ⟨h.addTask b _, ?_⟩
  by_cases hb : b = broker
  · subst hb
    rw [if_pos rfl]
    exact solo_respawn h b e
  · rw [if_neg hb]
    exact solo_addTask_of_ne h hb _

theorem stage_done_iff : task.solo.stage = .done ↔ task.phase = .done := by
  obtain ⟨b, phase, cancelling, backoff⟩ := task
  cases phase <;> simp [EngineTask.solo, TaskPhase.stage]

theorem follows_restart (h : Placed m) (broker b : String) :
    Follows m (m.restart b) broker (m.soloEvent broker (.restart b)) := by
  rw [Pipeline.restart, Pipeline.soloEvent]
  cases he : m.entries b with
  | none =>
      refine ⟨h, ?_⟩
      by_cases hb : b = broker
      · have hentry : (m.solo broker).entry = none := by rw [Pipeline.solo, ← hb, he]; rfl
        rw [if_pos hb, Option.elim_some, SoloEngine.apply, hentry]
      · rw [if_neg hb]
        rfl
  | some e =>
      obtain ⟨task, ht, hown⟩ := h.named b e he
      have hsolo : b = broker → (m.solo broker).entry =
            some { e with task := m.place broker e.task } ∧
          (m.solo broker).tasks[m.place broker e.task]? = some task.solo := by
        intro hb
        refine ⟨?_, solo_getElem? ht (hown.trans hb)⟩
        rw [Pipeline.solo, ← hb, he]
        rfl
      dsimp only
      rw [ht]
      dsimp only
      by_cases hdone : task.phase = .done
      · rw [if_pos hdone]
        obtain ⟨hplaced, hrespawn⟩ := follows_respawn h broker b e
        refine ⟨hplaced, hrespawn.trans ?_⟩
        by_cases hb : b = broker
        · obtain ⟨hentry, htask⟩ := hsolo hb
          rw [if_pos hb, if_pos hb, Option.elim_some, SoloEngine.apply, hentry]
          dsimp only
          rw [htask]
          dsimp only
          rw [if_pos (stage_done_iff.mpr hdone)]
          rfl
        · rw [if_neg hb, if_neg hb]
          rfl
      · rw [if_neg hdone]
        have hstep : Placed (m.stepTask e.task ⟨m.root, { task with cancelling := true }, id⟩) :=
          h.stepTask ht rfl fun _ => rfl
        refine ⟨⟨hstep.named, fun w hw => ?_⟩, ?_⟩
        · rcases List.mem_append.mp hw with hw | hw
          · exact hstep.waits w hw
          · rw [List.mem_singleton.mp hw]
            exact owns_stepTask ht rfl ⟨task, ht, hown⟩
        · refine (solo_await (m.stepTask e.task _) b e.task broker).trans ?_
          rw [place_stepTask ht rfl]
          by_cases hb : b = broker
          · obtain ⟨hentry, htask⟩ := hsolo hb
            rw [if_pos hb, if_pos hb, Option.elim_some, SoloEngine.apply, hentry]
            dsimp only
            rw [htask]
            dsimp only
            rw [if_neg (stage_done_iff.not.mpr hdone),
              solo_stepTask ht rfl (hown.trans hb) (fun _ => rfl) fun _ _ => rfl]
            rw [SoloEngine.stepTask, hentry]
            rfl
          · rw [if_neg hb, if_neg hb, List.append_nil,
              solo_stepTask_of_ne ht rfl fun heq => hb (hown.symm.trans heq)]
            rfl

/-- The waiting restarts of a broker are for different tasks at different places. -/
theorem place_inj (h : Placed m) {w : String × ℕ} (hw : w ∈ m.waiting) (hb : w.1 = broker)
    (ht : m.Owns broker t) (hplace : m.place broker w.2 = m.place broker t) : w = (broker, t) := by
  obtain ⟨task, hi, hown⟩ := h.waits w hw
  obtain ⟨task', ht', hown'⟩ := ht
  exact Prod.ext hb (countPBefore_inj hi (ofBroker_iff.mpr (hown.trans hb)) ht'
    (ofBroker_iff.mpr hown') hplace)

theorem mem_waiting_iff (h : Placed m) (ht : m.Owns broker t) :
    m.place broker t ∈ (m.solo broker).waiting ↔ (broker, t) ∈ m.waiting := by
  constructor
  · intro hmem
    obtain ⟨w, hw, hplace⟩ := List.mem_map.mp hmem
    obtain ⟨hin, hb⟩ := List.mem_filter.mp hw
    rw [← place_inj h hin (of_decide_eq_true hb) ht hplace]
    exact hin
  · intro hmem
    exact List.mem_map.mpr ⟨(broker, t), List.mem_filter.mpr ⟨hmem, decide_eq_true rfl⟩, rfl⟩

theorem solo_eraseWaiting (h : Placed m) (ht : m.Owns b t) (broker : String) :
    ({ m with waiting := m.waiting.erase (b, t) } : Pipeline).solo broker =
      if b = broker then
        { m.solo broker with waiting := (m.solo broker).waiting.erase (m.place broker t) }
      else m.solo broker := by
  by_cases hb : b = broker
  · subst hb
    rw [if_pos rfl]
    refine SoloEngine.ext rfl rfl ?_
    change ((m.waiting.erase (b, t)).filter _).map (fun w => m.place b w.2) = _
    rw [← List.erase_filter]
    refine map_erase_of_inj (x := (b, t)) (f := fun w : String × ℕ => m.place b w.2)
      fun w hw hplace => ?_
    obtain ⟨hin, hown⟩ := List.mem_filter.mp hw
    exact place_inj h hin (of_decide_eq_true hown) ht hplace
  · rw [if_neg hb]
    have hsame : (m.waiting.erase (b, t)).filter (fun w => decide (w.1 = broker)) =
        m.waiting.filter fun w => decide (w.1 = broker) := by
      rw [← List.erase_filter]
      refine List.erase_of_not_mem fun hmem => hb ?_
      exact of_decide_eq_true (List.mem_filter.mp hmem).2
    refine SoloEngine.ext rfl rfl ?_
    change ((m.waiting.erase (b, t)).filter _).map _ = _
    rw [hsame]
    rfl

theorem any_ofBroker_iff : (m.tasks[t]?).any (EngineTask.ofBroker broker) = true ↔
    m.Owns broker t := by
  rw [Option.any_eq_true]
  exact exists_congr fun task => and_congr_right fun _ => ofBroker_iff

/-- One that waits for no task of its broker is not waiting. -/
theorem follows_resumed_of_not (h : Placed m) (broker : String) (ht : ¬ m.Owns b t) :
    Follows m (m.apply (.resumed b t)) broker (m.soloEvent broker (.resumed b t)) := by
  have hfree : (b, t) ∉ m.waiting := fun hmem => ht (h.waits _ hmem)
  have hnone : m.soloEvent broker (.resumed b t) = none := by
    rw [Pipeline.soloEvent, if_neg]
    rintro ⟨hb, hany⟩
    exact ht (hb ▸ any_ofBroker_iff.mp hany)
  rw [hnone, Pipeline.apply]
  cases m.entries b with
  | none => exact ⟨h, rfl⟩
  | some e =>
      dsimp only
      rw [if_neg fun hwait => hfree hwait.1]
      exact ⟨h, rfl⟩

theorem follows_resumed (h : Placed m) (broker b : String) (t : ℕ) :
    Follows m (m.apply (.resumed b t)) broker (m.soloEvent broker (.resumed b t)) := by
  by_cases hown : m.Owns b t
  case neg => exact follows_resumed_of_not h broker hown
  have hevent : m.soloEvent broker (.resumed b t) =
      if b = broker then some (.resumed (m.place broker t)) else none := by
    rw [Pipeline.soloEvent]
    by_cases hb : b = broker
    · rw [if_pos hb, if_pos ⟨hb, any_ofBroker_iff.mpr (hb ▸ hown)⟩]
    · rw [if_neg hb, if_neg fun hboth => hb hboth.1]
  rw [hevent, Pipeline.apply]
  obtain ⟨task, ht, htask⟩ := id hown
  cases he : m.entries b with
  | none =>
      refine ⟨h, ?_⟩
      by_cases hb : b = broker
      · have hentry : (m.solo broker).entry = none := by rw [Pipeline.solo, ← hb, he]; rfl
        rw [if_pos hb, Option.elim_some, SoloEngine.apply, hentry]
      · rw [if_neg hb, Option.elim_none]
  | some e =>
      have hsolo : b = broker → (m.solo broker).entry =
            some { e with task := m.place broker e.task } ∧
          (m.place broker t ∈ (m.solo broker).waiting ↔ (b, t) ∈ m.waiting) ∧
          ((m.solo broker).tasks[m.place broker t]?.map SoloTask.stage = some .done ↔
            m.tasks[t]?.map EngineTask.phase = some .done) := by
        rintro rfl
        refine ⟨?_, mem_waiting_iff h hown, ?_⟩
        · rw [Pipeline.solo, he]
          rfl
        · rw [solo_getElem? ht htask, ht]
          simp only [Option.map_some, Option.some.injEq, stage_done_iff]
      dsimp only
      by_cases hwait : (b, t) ∈ m.waiting ∧ m.tasks[t]?.map EngineTask.phase = some .done
      · rw [if_pos hwait]
        have hkept : Placed { m with waiting := m.waiting.erase (b, t) } :=
          ⟨h.named, fun w hw => h.waits w (List.mem_of_mem_erase hw)⟩
        obtain ⟨hplaced, hrespawn⟩ := follows_respawn hkept broker b e
        refine ⟨hplaced, hrespawn.trans ?_⟩
        rw [solo_eraseWaiting h hown]
        by_cases hb : b = broker
        · obtain ⟨hentry, hmem, hdone⟩ := hsolo hb
          rw [if_pos hb, if_pos hb, if_pos hb, Option.elim_some, SoloEngine.apply, hentry]
          dsimp only
          rw [if_pos ⟨hmem.mpr hwait.1, hdone.mpr hwait.2⟩]
          rfl
        · rw [if_neg hb, if_neg hb, if_neg hb, Option.elim_none]
      · rw [if_neg hwait]
        refine ⟨h, ?_⟩
        by_cases hb : b = broker
        · obtain ⟨hentry, hmem, hdone⟩ := hsolo hb
          rw [if_pos hb, Option.elim_some, SoloEngine.apply, hentry]
          dsimp only
          rw [if_neg fun hboth => hwait ⟨hmem.mp hboth.1, hdone.mp hboth.2⟩]
        · rw [if_neg hb, Option.elim_none]

/-! ## Runs -/

theorem follows_apply (h : Placed m) (broker : String) (event : PipelineEvent) :
    Follows m (m.apply event) broker (m.soloEvent broker event) := by
  cases event with
  | task t event => exact follows_task h broker t event
  | restart b => exact follows_restart h broker b
  | resumed b t => exact follows_resumed h broker b t

theorem solo_run (h : Placed m) (broker : String) (events : List PipelineEvent) :
    (m.run events).solo broker = (m.solo broker).run (m.ownEvents broker events) := by
  induction events generalizing m with
  | nil => rfl
  | cons event rest ih =>
      obtain ⟨hplaced, hsolo⟩ := follows_apply h broker event
      rw [Pipeline.run, List.foldl_cons, ← Pipeline.run, ih hplaced, hsolo, Pipeline.ownEvents,
        SoloEngine.run, SoloEngine.run, List.foldl_append]
      cases m.soloEvent broker event <;> rfl

/-- A manager that has just been started holds one fresh task of each source. -/
theorem placed_addTasks (sources : List String) (h : Placed m) (hnodup : sources.Nodup)
    (broker : String) :
    Placed (sources.foldl (fun m b => m.addTask b ⟨0, .starting, 0⟩) m) ∧
      (sources.foldl (fun m b => m.addTask b ⟨0, .starting, 0⟩) m).solo broker =
        if broker ∈ sources then (m.solo broker).respawn ⟨0, .starting, 0⟩
        else m.solo broker := by
  induction sources generalizing m with
  | nil => exact ⟨h, (if_neg List.not_mem_nil).symm⟩
  | cons b rest ih =>
      rw [List.nodup_cons] at hnodup
      rw [List.foldl_cons]
      obtain ⟨hplaced, hrest⟩ := ih (h.addTask b _) hnodup.2
      obtain ⟨-, hrespawn⟩ := follows_respawn h broker b ⟨0, .starting, 0⟩
      have hfirst : (m.addTask b ⟨0, .starting, 0⟩).solo broker =
          if b = broker then (m.solo broker).respawn ⟨0, .starting, 0⟩ else m.solo broker :=
        hrespawn
      refine ⟨hplaced, hrest.trans ?_⟩
      rw [hfirst]
      by_cases hb : b = broker
      · rw [if_neg (hb ▸ hnodup.1), if_pos hb, if_pos (hb ▸ List.mem_cons_self)]
      · rw [if_neg hb]
        simp only [List.mem_cons, Ne.symm hb, false_or]

/-- **Independent engines**: what a manager of different sources holds of one of them after a run
    is where the source's own events bring an engine that is alone, whatever the other engines
    did meanwhile; so two managers in which the same happens to a source agree on it. -/
theorem engines_apart {root root' : RootLogger} {sources sources' : List String}
    {events events' : List PipelineEvent} (hnodup : sources.Nodup) (hnodup' : sources'.Nodup)
    (hmem : broker ∈ sources) (hmem' : broker ∈ sources')
    (hown : (Pipeline.start root sources).ownEvents broker events =
      (Pipeline.start root' sources').ownEvents broker events') :
    ((Pipeline.start root sources).run events).solo broker =
      ((Pipeline.start root' sources').run events').solo broker := by
  have hstart : ∀ (r : RootLogger) (l : List String), l.Nodup → broker ∈ l →
      Placed (Pipeline.start r l) ∧
        (Pipeline.start r l).solo broker = SoloEngine.respawn {} ⟨0, .starting, 0⟩ := by
    intro r l hl hb
    have hempty : Placed { root := r } :=
      ⟨(fun _ _ he => by cases he), fun _ hw => by cases hw⟩
    obtain ⟨hplaced, hsolo⟩ := placed_addTasks l hempty hl broker
    exact ⟨hplaced, hsolo.trans (if_pos hb)⟩
  obtain ⟨hplaced, hsolo⟩ := hstart root sources hnodup hmem
  obtain ⟨hplaced', hsolo'⟩ := hstart root' sources' hnodup' hmem'
  rw [solo_run hplaced, solo_run hplaced', hsolo, hsolo', hown]

/-- One engine crashes three times while the other is restarted: it is where it would be alone. -/
theorem crashingRun_apart :
    ((Pipeline.start consoleRoot ["exness", "icmarkets"]).run crashingRun).solo "exness" =
        ((Pipeline.start consoleRoot ["exness"]).run [.task 0 (.attempt .fileRaises),
          .task 0 (.attempt .fileRaises), .task 0 (.attempt .forBrokerRaises)]).solo "exness" :=
  engines_apart (by decide) (by decide) (by decide) (by decide) (by decide +kernel)

end SignalEngine
