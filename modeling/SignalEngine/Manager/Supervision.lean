/-
  Supervision: what the entry of a broker says of its engine, and how long a crashed engine waits.

  Model. The manager is that of the engine runs, with attempts that fail anywhere. `get_stats`
  reads `connected` off the entry. A run is steady if no broker is restarted while a restart of
  it is waiting.

  Proved: `supervised_run`: in every steady run of a manager of different sources, the entry of a
  broker names its one live task, reports it connected exactly while its engine is up, and the
  task sleeps off its n-th crash in a row for 5 · 2 ^ (n - 1) seconds, 300 at most. The invariant
  is `Watched`.
-/
import SignalEngine.Manager.EngineRuns

namespace SignalEngine

open Lib

/-! ## Entries and tasks -/

/-- The seconds before the next attempt, after so many crashes. -/
def backoffAfter (crashes : ℕ) : ℕ := min (5 * 2 ^ (crashes - 1)) 300

/-- `connected` in `get_stats`. -/
def EngineEntry.connected (e : EngineEntry) : Bool := decide (e.health = .running)

/-- The engine has started, and has not been stopped. -/
def TaskPhase.up : TaskPhase → Bool
  | .running _ | .stopping _ _ => true
  | .spawned | .starting _ | .backingOff | .done => false

/-- What the entry may say of a task; one that was cancelled before its first step leaves what it
    found. -/
def TaskPhase.healths : TaskPhase → List Health
  | .spawned | .done => [.starting, .stopped]
  | .starting _ => [.starting]
  | .running _ | .stopping _ _ => [.running]
  | .backingOff => [.error]

/-- The crashes that the back-off of a task is for. -/
def TaskPhase.crashes (phase : TaskPhase) (count : ℕ) : ℕ :=
  if phase = .backingOff then count else count + 1

structure Supervised (task : EngineTask) (e : EngineEntry) : Prop where
  health : e.health ∈ task.phase.healths
  backoff : task.phase ≠ .done → task.backoff = backoffAfter (task.phase.crashes e.restartCount)
  crashed : task.phase = .backingOff → 0 < e.restartCount

/-- No broker is restarted while a restart of it is waiting. -/
def SteadyEvent (m : Pipeline) : PipelineEvent → Prop
  | .restart broker => broker ∉ m.waiting.map Prod.fst
  | .task _ _ | .resumed _ _ => True

def SteadyRun (m : Pipeline) (events : List PipelineEvent) : Prop :=
  ∀ n, (hn : n < events.length) → SteadyEvent (m.run (events.take n)) events[n]

instance (m : Pipeline) : (event : PipelineEvent) → Decidable (SteadyEvent m event)
  | .restart broker => inferInstanceAs (Decidable (broker ∉ m.waiting.map Prod.fst))
  | .task _ _ | .resumed _ _ => .isTrue trivial

instance (m : Pipeline) (events : List PipelineEvent) : Decidable (SteadyRun m events) :=
  inferInstanceAs (Decidable (∀ n, (hn : n < events.length) →
    SteadyEvent (m.run (events.take n)) events[n]))

variable {root : RootLogger} {task : EngineTask} {s : TaskStep} {event : TaskEvent} {built : Built}
  {m : Pipeline} {broker : String} {t : ℕ} {e : EngineEntry} {sources : List String}
  {events : List PipelineEvent}

/-! ## The back-off -/

theorem backoffAfter_succ {crashes : ℕ} (h : 0 < crashes) :
    backoffAfter (crashes + 1) = min (backoffAfter crashes * 2) 300 := by
  obtain ⟨n, rfl⟩ := Nat.exists_eq_succ_of_ne_zero h.ne'
  have hpow : 2 ^ (n + 1) = 2 ^ n * 2 := pow_succ 2 n
  unfold backoffAfter
  simp only [Nat.succ_eq_add_one, Nat.add_sub_cancel]
  omega

theorem connected_iff (h : Supervised task e) : e.connected = true ↔ task.phase.up = true := by
  have hhealth := h.health
  unfold EngineEntry.connected
  rw [decide_eq_true_iff]
  cases hphase : task.phase <;> rw [hphase] at hhealth <;>
    simp_all [TaskPhase.healths, TaskPhase.up]
  all_goals
    rcases hhealth with hhealth | hhealth <;> rw [hhealth] <;> exact Health.noConfusion

theorem Supervised.spawn (h : e.health ∈ TaskPhase.done.healths) (t : ℕ) (broker : String) :
    Supervised { broker := broker } { e with task := t, restartCount := 0 } :=
  ⟨h, fun _ => rfl, fun hphase => by cases hphase⟩

/-! ## What a step of a task does -/

/-- A step of a task of the broker, which was not done, and what it notes in the entry. -/
structure TaskTurn (task : EngineTask) (s : TaskStep) : Prop where
  live : task.phase ≠ .done
  broker_eq : s.task.broker = task.broker
  task_eq : ∀ e, (s.note e).task = e.task
  supervised : ∀ e, Supervised task e → Supervised s.task (s.note e)

/-- A crash is one more, and the back-off was set for it. -/
theorem crash_turn (hlive : task.phase ≠ .done) {task' : EngineTask}
    (hbroker : task'.broker = task.broker)
    (hbackoff : ∀ e, Supervised task e → task'.backoff = backoffAfter (e.restartCount + 1)) :
    TaskTurn task (task'.crash root) := by
  refine ⟨hlive, hbroker, fun _ => rfl, fun e h => ⟨?_, fun _ => ?_, fun _ => ?_⟩⟩
  · exact List.mem_singleton_self _
  · exact hbackoff e h
  · exact Nat.succ_pos _

theorem stop_turn (hlive : task.phase ≠ .done) (root : RootLogger) :
    TaskTurn task (task.stop root) := by
  refine ⟨hlive, rfl, fun _ => rfl, fun e _ => ⟨?_, fun h => ?_, fun h => ?_⟩⟩
  · exact List.mem_cons_of_mem _ (List.mem_singleton_self _)
  · exact absurd rfl h
  · cases h

theorem leave_turn (hlive : task.phase ≠ .done) (hup : task.phase ≠ .backingOff)
    (root : RootLogger) (how : RunEnd) : TaskTurn task (task.leave root how) := by
  cases how with
  | exception =>
      refine crash_turn hlive rfl fun e h => ?_
      rw [h.backoff hlive, TaskPhase.crashes, if_neg hup]
  | cancelledError => exact stop_turn hlive root

theorem attempt_turn (hlive : task.phase ≠ .done) {task' : EngineTask}
    (hbroker : task'.broker = task.broker)
    (hbackoff : ∀ e, Supervised task e → task'.backoff = backoffAfter (e.restartCount + 1))
    (root : RootLogger) (built : Built) : TaskTurn task (task'.attempt root built) := by
  unfold EngineTask.attempt
  generalize root.enter task'.broker built = entered
  obtain ⟨root', _ | h⟩ := entered
  · exact crash_turn hlive hbroker hbackoff
  · refine ⟨hlive, hbroker, fun _ => rfl, fun e hsup => ⟨?_, fun _ => ?_, fun hphase => ?_⟩⟩
    · exact List.mem_singleton_self _
    · exact hbackoff e hsup
    · cases hphase

/-- A step that changes neither the back-off nor the count. -/
theorem quiet_turn (hlive : task.phase ≠ .done) (hup : task.phase ≠ .backingOff)
    {s : TaskStep} (hbroker : s.task.broker = task.broker)
    (hbackoff : s.task.backoff = task.backoff) (hphase : s.task.phase ≠ .backingOff)
    (hnote : ∀ e, (s.note e).task = e.task ∧ (s.note e).restartCount = e.restartCount)
    (hhealth : ∀ e : EngineEntry, e.health ∈ task.phase.healths →
      (s.note e).health ∈ s.task.phase.healths) : TaskTurn task s := by
  refine ⟨hlive, hbroker, fun e => (hnote e).1, fun e h => ⟨hhealth e h.health, fun _ => ?_,
    fun hback => absurd hback hphase⟩⟩
  rw [hbackoff, h.backoff hlive, (hnote e).2, TaskPhase.crashes, if_neg hup, TaskPhase.crashes,
    if_neg hphase]

theorem next_turn (hstep : task.next root event = some s) : TaskTurn task s := by
  obtain ⟨b, phase, cancelling, backoff⟩ := task
  cases event with
  | attempt built =>
      cases phase <;> cases cancelling <;> cases hstep
      · apply attempt_turn
        · simp
        · rfl
        · exact fun e h => h.backoff (by simp)
      · apply attempt_turn
        · simp
        · rfl
        · intro e h
          rw [backoffAfter_succ (h.crashed rfl)]
          exact congrArg (fun n => min (n * 2) 300) (h.backoff (by simp))
  | started =>
      cases phase <;> cases cancelling <;> cases hstep
      refine quiet_turn (by simp) (by simp) rfl rfl (by simp) (fun _ => ⟨rfl, rfl⟩) ?_
      exact fun _ _ => List.mem_singleton_self _
  | raised =>
      cases phase <;> cases cancelling <;> cases hstep
      · exact leave_turn (by simp) (by simp) _ _
      · exact quiet_turn (by simp) (by simp) rfl rfl (by simp) (fun _ => ⟨rfl, rfl⟩) fun _ h => h
  | cancelled =>
      cases phase <;> cases cancelling <;> cases hstep
      · exact quiet_turn (by simp) (by simp) rfl rfl (by simp) (fun _ => ⟨rfl, rfl⟩) fun _ h => h
      · exact leave_turn (by simp) (by simp) _ _
      · exact quiet_turn (by simp) (by simp) rfl rfl (by simp) (fun _ => ⟨rfl, rfl⟩) fun _ h => h
      · exact leave_turn (by simp) (by simp) _ _
      · exact stop_turn (by simp) _
  | metricsEnded =>
      cases phase <;> cases hstep
      exact leave_turn (by simp) (by simp) _ _

/-! ## The invariant -/

/-- Each entry names a task of its broker and tells its state, a task that is not done is the one
    its entry names, and each broker has one waiting restart at most. -/
structure Watched (m : Pipeline) : Prop where
  named : ∀ broker e, m.entries broker = some e →
    ∃ task, m.tasks[e.task]? = some task ∧ task.broker = broker ∧ Supervised task e
  current : ∀ (t : ℕ) (task : EngineTask), m.tasks[t]? = some task → task.phase ≠ .done →
    m.taskOf task.broker = some t
  waits : ∀ w ∈ m.waiting, m.taskOf w.1 = some w.2
  waits_nodup : (m.waiting.map Prod.fst).Nodup

theorem Watched.stepTask (h : Watched m) (ht : m.tasks[t]? = some task) (hturn : TaskTurn task s) :
    Watched (m.stepTask t s) where
  named := by
    intro b e he
    by_cases hb : b = s.task.broker
    · obtain ⟨e₀, he₀, rfl⟩ := Option.map_eq_some_iff.mp ((if_pos hb).symm.trans he)
      obtain ⟨task₀, ht₀, hbroker, hsup⟩ := h.named b e₀ he₀
      have hcurrent := h.current t task ht hturn.live
      rw [← hturn.broker_eq, ← hb, Pipeline.taskOf, he₀] at hcurrent
      obtain rfl := Option.some.inj hcurrent
      obtain rfl := Option.some.inj (ht₀.symm.trans ht)
      refine ⟨s.task, ?_, hb.symm, hturn.supervised e₀ hsup⟩
      rw [hturn.task_eq, getElem?_stepTask ht, if_pos rfl]
    · obtain ⟨task₀, ht₀, hbroker, hsup⟩ := h.named b e ((if_neg hb).symm.trans he)
      refine ⟨task₀, ?_, hbroker, hsup⟩
      rw [getElem?_stepTask ht, if_neg, ht₀]
      intro heq
      rw [heq, ht] at ht₀
      obtain rfl := Option.some.inj ht₀
      exact hb (hbroker.symm.trans hturn.broker_eq.symm)
  current := by
    intro i task' hi hlive
    rw [taskOf_stepTask hturn.task_eq]
    rw [getElem?_stepTask ht] at hi
    split at hi
    · next hit =>
        obtain rfl := Option.some.inj hi
        rw [hturn.broker_eq, hit]
        exact h.current t task ht hturn.live
    · exact h.current i task' hi hlive
  waits := by
    intro w hw
    rw [taskOf_stepTask hturn.task_eq]
    exact h.waits w hw
  waits_nodup := h.waits_nodup

/-- A fresh task for a broker whose entry, if it has one, names a task that is done. -/
theorem Watched.addTask (h : Watched m) (hbroker : broker ∉ m.waiting.map Prod.fst)
    (hdone : ∀ (i : ℕ) (task : EngineTask), m.tasks[i]? = some task → task.broker = broker →
      task.phase = .done)
    (hhealth : e.health ∈ TaskPhase.done.healths) (hcount : e.restartCount = 0) :
    Watched (m.addTask broker e) := by
  have hothers : ∀ b, b ≠ broker → (m.addTask broker e).entries b = m.entries b :=
    fun b hb => Function.update_of_ne hb _ _
  have hself : (m.addTask broker e).entries broker = some { e with task := m.tasks.length } :=
    Function.update_self _ _ _
  have htaskOf : ∀ b, b ≠ broker → (m.addTask broker e).taskOf b = m.taskOf b := by
    intro b hb
    rw [Pipeline.taskOf, hothers b hb, Pipeline.taskOf]
  constructor
  · intro b e' he'
    by_cases hb : b = broker
    · rw [hb, hself] at he'
      obtain rfl := Option.some.inj he'
      refine ⟨{ broker := broker }, ?_, hb.symm, ?_⟩
      · exact List.getElem?_concat_length
      · obtain ⟨t, health, count⟩ := e
        obtain rfl : count = 0 := hcount
        exact Supervised.spawn hhealth _ _
    · rw [hothers b hb] at he'
      obtain ⟨task, ht, hrest⟩ := h.named b e' he'
      exact ⟨task, List.getElem?_append_left (List.getElem?_eq_some_iff.mp ht).1 ▸ ht, hrest⟩
  · intro i task hi hlive
    rcases addTask_getElem? hi with hi | ⟨rfl, rfl⟩
    · have hb : task.broker ≠ broker := fun hb => hlive (hdone i task hi hb)
      rw [htaskOf _ hb]
      exact h.current i task hi hlive
    · rw [Pipeline.taskOf, hself]
      rfl
  · intro w hw
    have hb : w.1 ≠ broker := fun hb => hbroker (hb ▸ List.mem_map_of_mem hw)
    rw [htaskOf _ hb]
    exact h.waits w hw
  · exact h.waits_nodup

/-- Once the task of its entry is done, a broker has no other. -/
theorem Watched.all_done (h : Watched m) (he : m.entries broker = some e)
    (ht : m.tasks[e.task]? = some task) (hdone : task.phase = .done) (i : ℕ) (task' : EngineTask)
    (hi : m.tasks[i]? = some task') (hbroker : task'.broker = broker) : task'.phase = .done := by
  by_contra hlive
  have hcurrent := h.current i task' hi hlive
  rw [hbroker, Pipeline.taskOf, he] at hcurrent
  obtain rfl := Option.some.inj hcurrent
  rw [ht] at hi
  exact hlive (Option.some.inj hi ▸ hdone)

theorem Watched.respawn (h : Watched m) (hbroker : broker ∉ m.waiting.map Prod.fst)
    (he : m.entries broker = some e) (ht : m.tasks[e.task]? = some task)
    (hdone : task.phase = .done) : Watched (m.respawn broker e) := by
  refine h.addTask hbroker (h.all_done he ht hdone) ?_ rfl
  obtain ⟨task', ht', -, hsup⟩ := h.named broker e he
  obtain rfl := Option.some.inj (ht'.symm.trans ht)
  rw [← hdone]
  exact hsup.health

theorem Watched.restart (h : Watched m) (hbroker : broker ∉ m.waiting.map Prod.fst) :
    Watched (m.restart broker) := by
  unfold Pipeline.restart
  split
  · exact h
  next e he =>
  split
  · exact h
  next task ht =>
  split
  · next hdone => exact h.respawn hbroker he ht hdone
  · next hlive =>
      have hturn : TaskTurn task ⟨m.root, { task with cancelling := true }, id⟩ :=
        ⟨hlive, rfl, fun _ => rfl, fun _ hsup => ⟨hsup.health, hsup.backoff, hsup.crashed⟩⟩
      have hstep := h.stepTask ht hturn
      refine ⟨hstep.named, hstep.current, fun w hw => ?_, ?_⟩
      · rcases List.mem_append.mp hw with hw | hw
        · exact hstep.waits w hw
        · rw [List.mem_singleton.mp hw]
          have htask : m.taskOf broker = some e.task := by rw [Pipeline.taskOf, he]; rfl
          rw [← htask]
          exact taskOf_stepTask (t := e.task) hturn.task_eq broker
      · rw [List.map_append, List.map_singleton, ← List.concat_eq_append]
        exact h.waits_nodup.concat hbroker

theorem Watched.resumed (h : Watched m) (he : m.entries broker = some e)
    (hmem : (broker, t) ∈ m.waiting) (hdone : m.tasks[t]?.map EngineTask.phase = some .done) :
    Watched (Pipeline.respawn { m with waiting := m.waiting.erase (broker, t) } broker e) := by
  have hnodup : m.waiting.Nodup := List.Nodup.of_map Prod.fst h.waits_nodup
  have hfree : broker ∉ (m.waiting.erase (broker, t)).map Prod.fst := by
    intro hin
    obtain ⟨w, hw, hfst⟩ := List.mem_map.mp hin
    rw [hnodup.mem_erase_iff] at hw
    exact hw.1 (List.inj_on_of_nodup_map h.waits_nodup hw.2 hmem hfst)
  have hkept : Watched { m with waiting := m.waiting.erase (broker, t) } :=
    ⟨h.named, h.current, fun w hw => h.waits w (List.mem_of_mem_erase hw),
      h.waits_nodup.sublist (List.Sublist.map _ List.erase_sublist)⟩
  have htask := h.waits _ hmem
  rw [Pipeline.taskOf, he] at htask
  obtain rfl := Option.some.inj htask
  obtain ⟨task, ht, hphase⟩ := Option.map_eq_some_iff.mp hdone
  exact hkept.respawn hfree he ht hphase

theorem Watched.apply (h : Watched m) (event : PipelineEvent) (hsteady : SteadyEvent m event) :
    Watched (m.apply event) := by
  cases event with
  | task t event =>
      rw [Pipeline.apply]
      split
      · exact h
      · next s hs =>
          obtain ⟨task, ht, hnext⟩ := Option.bind_eq_some_iff.mp hs
          exact h.stepTask ht (next_turn hnext)
  | restart broker => exact h.restart hsteady
  | resumed broker t =>
      rw [Pipeline.apply]
      split
      · exact h
      next e he =>
      split
      · next hwait => exact h.resumed he hwait.1 hwait.2
      · exact h

theorem Watched.addTasks (hnodup : sources.Nodup) (h : Watched m) (hwaiting : m.waiting = [])
    (hfresh : ∀ (i : ℕ) (task : EngineTask), m.tasks[i]? = some task → task.broker ∉ sources) :
    Watched (sources.foldl (fun m broker => m.addTask broker ⟨0, .starting, 0⟩) m) := by
  induction sources generalizing m with
  | nil => exact h
  | cons broker rest ih =>
      rw [List.nodup_cons] at hnodup
      rw [List.foldl_cons]
      refine ih hnodup.2 (h.addTask ?_ ?_ List.mem_cons_self rfl) hwaiting ?_
      · rw [hwaiting]
        exact List.not_mem_nil
      · intro i task hi hb
        exact absurd (hb ▸ List.mem_cons_self) (hfresh i task hi)
      · intro i task hi
        rcases addTask_getElem? hi with hi | ⟨-, rfl⟩
        · exact fun hmem => hfresh i task hi (List.mem_cons_of_mem _ hmem)
        · exact hnodup.1

theorem watched_start (root : RootLogger) (hnodup : sources.Nodup) :
    Watched (Pipeline.start root sources) := by
  refine Watched.addTasks hnodup ⟨?_, ?_, ?_, List.nodup_nil⟩ rfl ?_
  · exact fun b e he => by cases he
  · exact fun i task hi _ => by cases hi
  · exact fun w hw => by cases hw
  · exact fun i task hi => by cases hi

/-! ## Runs -/

/-- **Supervision**: in every steady run of a manager of different sources, the entry of a broker
    names its only live task, says connected exactly while the engine is up, and counts the crashes
    that the task has backed off for: the n-th costs 5 · 2 ^ (n - 1) seconds, at most 300. -/
theorem supervised_run (hnodup : sources.Nodup)
    (hsteady : SteadyRun (Pipeline.start root sources) events)
    (hm : m = (Pipeline.start root sources).run events) (he : m.entries broker = some e) :
    ∃ task, m.tasks[e.task]? = some task ∧ task.broker = broker ∧
      (e.connected = true ↔ task.phase.up = true) ∧
      (task.phase = .backingOff → e.health = .error ∧ 0 < e.restartCount ∧
        task.backoff = min (5 * 2 ^ (e.restartCount - 1)) 300) ∧
      ∀ (i : ℕ) (task' : EngineTask), m.tasks[i]? = some task' → task'.broker = broker →
        task'.phase ≠ .done → i = e.task := by
  have hwatched : Watched m := by
    have hrun := foldl_take_invariant Watched (fun _ event h hok => h.apply event hok)
      (watched_start root hnodup) hsteady events.length
    rw [List.take_length] at hrun
    rw [hm]
    exact hrun
  obtain ⟨task, ht, hbroker, hsup⟩ := hwatched.named broker e he
  refine ⟨task, ht, hbroker, connected_iff hsup, fun hphase => ⟨?_, hsup.crashed hphase, ?_⟩, ?_⟩
  · have hhealth := hsup.health
    rw [hphase] at hhealth
    exact List.mem_singleton.mp hhealth
  · have hback := hsup.backoff (by rw [hphase]; simp)
    rw [hphase] at hback
    exact hback
  · intro i task' hi hb hlive
    have hcurrent := hwatched.current i task' hi hlive
    rw [hb, Pipeline.taskOf, he] at hcurrent
    exact (Option.some.inj hcurrent).symm

/-- An engine that cannot open its log file three times, while the other one is restarted. -/
def crashingRun : List PipelineEvent :=
  [.task 0 (.attempt .fileRaises), .task 1 (.attempt .ready), .task 0 (.attempt .fileRaises),
    .task 1 .started, .restart "icmarkets", .task 1 .cancelled, .task 1 .metricsEnded,
    .resumed "icmarkets" 1, .task 0 (.attempt .forBrokerRaises), .task 2 (.attempt .ready)]

theorem crashingRun_backoff :
    ∃ e task, ((Pipeline.start consoleRoot ["exness", "icmarkets"]).run
        crashingRun).entries "exness" = some e ∧
      ((Pipeline.start consoleRoot ["exness", "icmarkets"]).run crashingRun).tasks[e.task]? =
        some task ∧
      e.restartCount = 3 ∧ task.phase = .backingOff ∧
      task.backoff = min (5 * 2 ^ (e.restartCount - 1)) 300 := by
  have hentry : ((Pipeline.start consoleRoot ["exness", "icmarkets"]).run
      crashingRun).entries "exness" = some ⟨0, .error, 3⟩ := by decide +kernel
  obtain ⟨task, ht, -, -, hback, -⟩ := supervised_run (by decide)
    (show SteadyRun (Pipeline.start consoleRoot ["exness", "icmarkets"]) crashingRun by
      decide +kernel) rfl hentry
  have hphase : task.phase = .backingOff := by
    have hlast : (((Pipeline.start consoleRoot ["exness", "icmarkets"]).run
        crashingRun).tasks[0]?).map EngineTask.phase = some .backingOff := by decide +kernel
    rw [ht] at hlast
    exact Option.some.inj hlast
  exact ⟨_, task, hentry, ht, rfl, hphase, (hback hphase).2.2⟩

end SignalEngine
