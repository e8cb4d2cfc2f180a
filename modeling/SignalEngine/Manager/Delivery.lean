/-
  Delivery: the broadcasts of `server/gateway_server.py`, each a task of its own.

  Model. A task takes its snapshot of the clients when it begins and waits in every `send`; what
  comes between two of its steps is any order of client events and of the steps of other tasks.
  Tasks are numbered as they are created. `held` are the symbols of each client object, which a
  snapshot keeps when the client has gone. Whether a `send` fails is up to the connection. The
  metrics loop and the replies to a client are left out.

  Proved: `sends_sound`: a client is sent a message at most once, and only one it has asked for;
  `sent_of_subscribed`: a client that is there when a broadcast begins and stays subscribed is
  sent it exactly once, and is off the list if that failed.
-/
import SignalEngine.Manager.ClientMessages

namespace SignalEngine

open Lib

/-! ## Tasks -/

/-- Where a broadcast stands. In a `send`, `todo` are the clients of the snapshot still to come
    and `dead` those whose `send` has failed. -/
inductive Progress where
  | created
  | sending (client : ℕ) (todo dead : List ℕ)
  | finished
  deriving DecidableEq, Repr

/-- With the empty symbol a message goes to every client. -/
structure BroadcastTask (Msg : Type) where
  message : Msg
  symbol : String
  counted : Bool
  progress : Progress := .created

/-- `_broadcast_async`. -/
def broadcastTask {Msg : Type} (upper : String → String) (symbol : String) (message : Msg) :
    BroadcastTask Msg :=
  { message := message, symbol := upper symbol, counted := true }

/-- `_broadcast_event_async`. -/
def broadcastEventTask {Msg : Type} (message : Msg) : BroadcastTask Msg :=
  { message := message, symbol := "", counted := false }

/-- A `send` that has returned, or raised. -/
structure Send where
  client : ℕ
  task : ℕ
  ok : Bool
  deriving DecidableEq, Repr

structure Gateway (Msg : Type) where
  srv : GatewayServer
  held : ℕ → Finset String := fun _ => ∅
  tasks : List (BroadcastTask Msg) := []
  sends : List Send := []

variable {Raw Msg : Type}

/-- `if symbol and symbol not in client.symbols: continue`. -/
def Gateway.Wants (g : Gateway Msg) (task : BroadcastTask Msg) (id : ℕ) : Prop :=
  task.symbol = "" ∨ task.symbol ∈ g.held id

instance (g : Gateway Msg) (task : BroadcastTask Msg) (id : ℕ) : Decidable (g.Wants task id) :=
  inferInstanceAs (Decidable (_ ∨ _))

/-- The loop of a broadcast up to its next `send`. -/
def nextSend (wants : ℕ → Bool) (todo dead : List ℕ) : Progress :=
  match todo.dropWhile (fun id => !wants id) with
  | [] => .finished
  | id :: todo => .sending id todo dead

/-- `self._clients.pop(cid, None)` for each of the dead. -/
def GatewayServer.pop (srv : GatewayServer) (dead : List ℕ) : GatewayServer :=
  { srv with
    clients := dead.foldl (fun clients id => erase GatewayClient.clientId id clients) srv.clients }

/-- A task goes on until it waits again or is over. -/
def Gateway.goOn (g : Gateway Msg) (t : ℕ) (task : BroadcastTask Msg) (todo dead : List ℕ) :
    Gateway Msg :=
  let progress := nextSend (fun id => decide (g.Wants task id)) todo dead
  { g with
    tasks := g.tasks.set t { task with progress := progress }
    srv := if progress = .finished then g.srv.pop dead else g.srv }

/-- Of the messages only those of `_broadcast_async` count as delivered. -/
def Gateway.record (g : Gateway Msg) (s : Send) (counted : Bool) : Gateway Msg :=
  { g with
    srv := { g.srv with
      signalsDelivered := g.srv.signalsDelivered + if s.ok && counted then 1 else 0 }
    sends := g.sends ++ [s] }

/-- A task runs for the first time. -/
def Gateway.begin (g : Gateway Msg) (t : ℕ) : Gateway Msg :=
  match g.tasks[t]? with
  | none => g
  | some task =>
      if task.progress = .created then g.goOn t task (keys GatewayClient.clientId g.srv.clients) []
      else g

/-- The `send` of a task returns, or raises. -/
def Gateway.sent (g : Gateway Msg) (t : ℕ) (ok : Bool) : Gateway Msg :=
  match g.tasks[t]? with
  | none => g
  | some task =>
      match task.progress with
      | .sending id todo dead =>
          (g.record ⟨id, t, ok⟩ task.counted).goOn t task todo (if ok then dead else dead ++ [id])
      | _ => g

/-- The object of a client, after an event of the client. A handler goes on with it when a
    broadcast has popped the client. -/
def Gateway.heldAfter (loads : Raw → Loaded) (upper : String → String) (g : Gateway Msg) :
    GatewayEvent Raw → ℕ → Finset String
  | .connected => Function.update g.held (g.srv.counter + 1) ∅
  | .message id raw io =>
      match g.srv.onMessage upper io { clientId := id, symbols := g.held id } (loads raw) with
      | .error _ => g.held
      | .ok (client, _) => Function.update g.held id client.symbols
  | .closed _ => g.held

inductive GatewayStep (Raw Msg : Type) where
  | client (event : GatewayEvent Raw)
  | broadcast (symbol : String) (message : Msg)
  | broadcastEvent (message : Msg)
  | begin (t : ℕ)
  | sent (t : ℕ) (ok : Bool)

def Gateway.apply (loads : Raw → Loaded) (upper : String → String) (g : Gateway Msg) :
    GatewayStep Raw Msg → Gateway Msg
  | .client event =>
      { g with srv := g.srv.apply loads upper event, held := g.heldAfter loads upper event }
  | .broadcast symbol message =>
      { g with tasks := g.tasks ++ [broadcastTask upper symbol message] }
  | .broadcastEvent message => { g with tasks := g.tasks ++ [broadcastEventTask message] }
  | .begin t => g.begin t
  | .sent t ok => g.sent t ok

def Gateway.run (loads : Raw → Loaded) (upper : String → String) (g : Gateway Msg)
    (steps : List (GatewayStep Raw Msg)) : Gateway Msg :=
  steps.foldl (Gateway.apply loads upper) g

def Gateway.new (supported : Finset String) (startedAt : ℚ) : Gateway Msg :=
  { srv := { supported := supported, startedAt := startedAt } }

/-! ## One task -/

/-- The clients a task may still send to. -/
def Progress.Ahead : Progress → ℕ → Prop
  | .created, _ => True
  | .sending id todo _, x => x ∈ id :: todo
  | .finished, _ => False

/-- The clients whose `send` has failed, before they are popped. -/
def Progress.dead : Progress → List ℕ
  | .sending _ _ dead => dead
  | .created | .finished => []

variable {loads : Raw → Loaded} {upper : String → String} {g : Gateway Msg} {t x : ℕ} {ok : Bool}
  {task : BroadcastTask Msg} {wants : ℕ → Bool} {todo dead : List ℕ} {id : ℕ}
  {step : GatewayStep Raw Msg} {steps : List (GatewayStep Raw Msg)}

theorem dropWhile_wants {rest : List ℕ} (h : todo.dropWhile (fun id => !wants id) = id :: rest) :
    wants id = true ∧ id :: rest <:+ todo := by
  have hsuffix := List.dropWhile_suffix (fun id => !wants id) (l := todo)
  have hhead := List.head_dropWhile_not (fun id => !wants id) (l := todo) (by rw [h]; simp)
  rw [h] at hsuffix
  simp only [h, List.head_cons, Bool.not_eq_false'] at hhead
  exact ⟨hhead, hsuffix⟩

/-- What the loop comes to. -/
theorem nextSend_cases (wants : ℕ → Bool) (todo dead : List ℕ) :
    nextSend wants todo dead = .finished ∨
      ∃ id rest, nextSend wants todo dead = .sending id rest dead ∧ wants id = true ∧
        id :: rest <:+ todo := by
  rw [nextSend]
  cases hdrop : todo.dropWhile (fun id => !wants id) with
  | nil => exact Or.inl rfl
  | cons id rest => exact Or.inr ⟨id, rest, rfl, dropWhile_wants hdrop⟩

/-- A client that wants the message is not passed over. -/
theorem ahead_nextSend (hx : x ∈ todo) (hwants : wants x = true) :
    (nextSend wants todo dead).Ahead x := by
  rw [← List.takeWhile_append_dropWhile (p := fun id => !wants id) (l := todo),
    List.mem_append] at hx
  rcases hx with hx | hx
  · have hnot := List.mem_takeWhile_imp hx
    simp [hwants] at hnot
  · rw [nextSend]
    cases hdrop : todo.dropWhile (fun id => !wants id) with
    | nil => rw [hdrop] at hx; cases hx
    | cons id rest => rwa [hdrop] at hx

theorem mem_of_ahead_nextSend (h : (nextSend wants todo dead).Ahead x) : x ∈ todo := by
  rcases nextSend_cases wants todo dead with heq | ⟨id, rest, heq, -, hsuffix⟩
  · rw [heq] at h
    exact h.elim
  · rw [heq] at h
    exact hsuffix.subset h

theorem nextSend_ne_created : nextSend wants todo dead ≠ .created := by
  rcases nextSend_cases wants todo dead with heq | ⟨id, rest, heq, -⟩ <;> rw [heq] <;> simp

/-! ## One step -/

@[simp] theorem goOn_held : (g.goOn t task todo dead).held = g.held := rfl

@[simp] theorem goOn_sends : (g.goOn t task todo dead).sends = g.sends := rfl

@[simp] theorem goOn_wants {other : BroadcastTask Msg} :
    (g.goOn t task todo dead).Wants other x ↔ g.Wants other x := Iff.rfl

@[simp] theorem goOn_counter : (g.goOn t task todo dead).srv.counter = g.srv.counter := by
  rw [Gateway.goOn]
  split <;> rfl

@[simp] theorem goOn_signalsDelivered :
    (g.goOn t task todo dead).srv.signalsDelivered = g.srv.signalsDelivered := by
  rw [Gateway.goOn]
  split <;> rfl

/-- The bookkeeping of a `send` and the way to the next one do not touch each other. -/
theorem goOn_record (s : Send) (counted : Bool) :
    (g.record s counted).goOn t task todo dead = (g.goOn t task todo dead).record s counted := by
  by_cases hover : nextSend (fun id => decide (g.Wants task id)) todo dead = .finished
  · have hover' : nextSend (fun id => decide ((g.record s counted).Wants task id)) todo dead =
        .finished := hover
    rw [Gateway.goOn, Gateway.goOn, if_pos hover, if_pos hover']
    rfl
  · have hover' : nextSend (fun id => decide ((g.record s counted).Wants task id)) todo dead ≠
        .finished := hover
    rw [Gateway.goOn, Gateway.goOn, if_neg hover, if_neg hover']
    rfl

theorem mem_keys_pop {srv : GatewayServer} :
    x ∈ keys GatewayClient.clientId (srv.pop dead).clients ↔
      x ∈ keys GatewayClient.clientId srv.clients ∧ x ∉ dead := by
  rw [GatewayServer.pop]
  dsimp only
  generalize srv.clients = clients
  induction dead generalizing clients with
  | nil => simp
  | cons id dead ih =>
      rw [List.foldl_cons, ih, mem_keys_erase, List.mem_cons, not_or, and_assoc]

theorem nodup_pop {srv : GatewayServer} (h : (keys GatewayClient.clientId srv.clients).Nodup) :
    (keys GatewayClient.clientId (srv.pop dead).clients).Nodup :=
  List.foldlRecOn (motive := fun clients => (keys GatewayClient.clientId clients).Nodup) dead _ h
    (fun _ h _ _ => nodup_keys_erase h)

theorem goOn_task (ht : g.tasks[t]? = some task) :
    (g.goOn t task todo dead).tasks[t]? =
      some { task with progress := nextSend (fun id => decide (g.Wants task id)) todo dead } := by
  rw [Gateway.goOn]
  dsimp only
  obtain ⟨hlt, -⟩ := List.getElem?_eq_some_iff.mp ht
  exact List.getElem?_set_self hlt

theorem goOn_task_ne {t' : ℕ} (h : t' ≠ t) :
    (g.goOn t task todo dead).tasks[t']? = g.tasks[t']? := by
  rw [Gateway.goOn]
  exact List.getElem?_set_ne h.symm

theorem begin_eq (ht : g.tasks[t]? = some task) (hcreated : task.progress = .created) :
    g.begin t = g.goOn t task (keys GatewayClient.clientId g.srv.clients) [] := by
  rw [Gateway.begin, ht]
  exact if_pos hcreated

theorem sent_eq (ht : g.tasks[t]? = some task) (hsending : task.progress = .sending id todo dead)
    (ok : Bool) : g.sent t ok =
      (g.goOn t task todo (if ok then dead else dead ++ [id])).record ⟨id, t, ok⟩ task.counted := by
  rw [Gateway.sent, ht]
  dsimp only
  rw [hsending]
  exact goOn_record _ _

/-- A task begins once. -/
theorem begin_cases (g : Gateway Msg) (t : ℕ) :
    g.begin t = g ∨ ∃ task, g.tasks[t]? = some task ∧ task.progress = .created ∧
      g.begin t = g.goOn t task (keys GatewayClient.clientId g.srv.clients) [] := by
  cases ht : g.tasks[t]? with
  | none => exact Or.inl (by rw [Gateway.begin, ht])
  | some task =>
      by_cases hcreated : task.progress = .created
      · exact Or.inr ⟨task, rfl, hcreated, begin_eq ht hcreated⟩
      · refine Or.inl ?_
        rw [Gateway.begin, ht]
        exact if_neg hcreated

/-- Only a task that waits in a `send` goes on after it. -/
theorem sent_cases (g : Gateway Msg) (t : ℕ) (ok : Bool) :
    g.sent t ok = g ∨ ∃ task id todo dead, g.tasks[t]? = some task ∧
      task.progress = .sending id todo dead ∧ g.sent t ok =
        (g.goOn t task todo (if ok then dead else dead ++ [id])).record ⟨id, t, ok⟩
          task.counted := by
  cases ht : g.tasks[t]? with
  | none => exact Or.inl (by rw [Gateway.sent, ht])
  | some task =>
      cases hprogress : task.progress with
      | sending id todo dead =>
          exact Or.inr ⟨task, id, todo, dead, rfl, hprogress, sent_eq ht hprogress ok⟩
      | created | finished => exact Or.inl (by rw [Gateway.sent, ht]; dsimp only; rw [hprogress])

/-! ## Every run -/

/-- What holds of the gateway in every run. -/
structure Delivering (g : Gateway Msg) : Prop where
  keys_nodup : (keys GatewayClient.clientId g.srv.clients).Nodup
  todo_nodup : ∀ (t : ℕ) (task : BroadcastTask Msg) (id : ℕ) (todo dead : List ℕ),
    g.tasks[t]? = some task → task.progress = .sending id todo dead → (id :: todo).Nodup
  sent_once : (g.sends.map (fun s => (s.client, s.task))).Nodup
  not_ahead : ∀ s ∈ g.sends, ∃ task, g.tasks[s.task]? = some task ∧ ¬ task.progress.Ahead s.client

theorem nodup_apply {srv : GatewayServer} (h : (keys GatewayClient.clientId srv.clients).Nodup)
    (event : GatewayEvent Raw) :
    (keys GatewayClient.clientId (srv.apply loads upper event).clients).Nodup := by
  cases event with
  | connected => exact nodup_keys_put h
  | message clientId raw io =>
      rw [GatewayServer.apply]
      split
      · exact h
      · split
        · exact nodup_keys_erase h
        · exact nodup_keys_put h
  | closed clientId => exact nodup_keys_erase h

theorem getElem?_concat_cases {α : Type} {xs : List α} {x y : α} {i : ℕ}
    (h : (xs ++ [x])[i]? = some y) : xs[i]? = some y ∨ xs[i]? = none ∧ y = x := by
  rw [List.getElem?_append] at h
  split at h
  · exact Or.inl h
  · next hlt =>
      exact Or.inr ⟨List.getElem?_eq_none (not_lt.mp hlt),
        List.mem_singleton.mp (List.mem_of_getElem? h)⟩

/-- A new task has sent nothing yet. -/
theorem Delivering.concat (h : Delivering g) (hcreated : task.progress = .created) :
    Delivering { g with tasks := g.tasks ++ [task] } where
  keys_nodup := h.keys_nodup
  todo_nodup := by
    intro t task' id todo dead ht hsending
    rcases getElem?_concat_cases ht with ht | ⟨-, rfl⟩
    · exact h.todo_nodup t task' id todo dead ht hsending
    · rw [hcreated] at hsending
      cases hsending
  sent_once := h.sent_once
  not_ahead := by
    intro s hs
    obtain ⟨task', ht, hnot⟩ := h.not_ahead s hs
    obtain ⟨hlt, -⟩ := List.getElem?_eq_some_iff.mp ht
    exact ⟨task', (List.getElem?_append_left hlt).trans ht, hnot⟩

theorem Delivering.goOn (h : Delivering g) (ht : g.tasks[t]? = some task) (htodo : todo.Nodup)
    (hsub : ∀ x ∈ todo, task.progress.Ahead x) : Delivering (g.goOn t task todo dead) where
  keys_nodup := by
    rw [Gateway.goOn]
    split
    · exact nodup_pop h.keys_nodup
    · exact h.keys_nodup
  todo_nodup := by
    intro t' task' id rest dead' ht' hsending
    by_cases heq : t' = t
    · subst heq
      rw [goOn_task ht, Option.some.injEq] at ht'
      subst ht'
      dsimp only at hsending
      rcases nextSend_cases (fun id => decide (g.Wants task id)) todo dead with
        hover | ⟨id', rest', hnext, -, hsuffix⟩
      · rw [hover] at hsending
        cases hsending
      · rw [hnext] at hsending
        cases hsending
        exact htodo.sublist hsuffix.sublist
    · rw [goOn_task_ne heq] at ht'
      exact h.todo_nodup t' task' id rest dead' ht' hsending
  sent_once := h.sent_once
  not_ahead := by
    intro s hs
    obtain ⟨task', ht', hnot⟩ := h.not_ahead s hs
    by_cases heq : s.task = t
    · subst heq
      rw [ht, Option.some.injEq] at ht'
      subst ht'
      exact ⟨_, goOn_task ht, fun hahead => hnot (hsub _ (mem_of_ahead_nextSend hahead))⟩
    · exact ⟨task', (goOn_task_ne heq).trans ht', hnot⟩

/-- A `send` to a client that was still to come, and is so no more. -/
theorem Delivering.record (h : Delivering g) {s : Send} {counted : Bool}
    (hnew : ∀ s' ∈ g.sends, s'.task = s.task → s'.client ≠ s.client)
    (ht : g.tasks[s.task]? = some task) (hnot : ¬ task.progress.Ahead s.client) :
    Delivering (g.record s counted) where
  keys_nodup := h.keys_nodup
  todo_nodup := h.todo_nodup
  sent_once := by
    rw [Gateway.record, List.map_append, List.map_singleton, List.nodup_append]
    refine ⟨h.sent_once, List.nodup_singleton _, ?_⟩
    rintro a ha b hb rfl
    rw [List.mem_singleton] at hb
    obtain ⟨s', hs', rfl⟩ := List.mem_map.mp ha
    obtain ⟨hclient, htask⟩ := Prod.mk.inj hb
    exact hnew s' hs' htask hclient
  not_ahead := by
    intro s' hs'
    rcases List.mem_append.mp hs' with hs' | hs'
    · exact h.not_ahead s' hs'
    · rw [List.mem_singleton] at hs'
      subst hs'
      exact ⟨task, ht, hnot⟩

theorem Delivering.begin (h : Delivering g) (t : ℕ) : Delivering (g.begin t) := by
  rcases begin_cases g t with heq | ⟨task, ht, hcreated, heq⟩
  · rwa [heq]
  · rw [heq]
    refine h.goOn ht h.keys_nodup fun x _ => ?_
    rw [hcreated]
    trivial

theorem Delivering.sent (h : Delivering g) (t : ℕ) (ok : Bool) : Delivering (g.sent t ok) := by
  rcases sent_cases g t ok with heq | ⟨task, id, todo, dead, ht, hsending, heq⟩
  · rwa [heq]
  · rw [heq]
    have hnodup := h.todo_nodup t task id todo dead ht hsending
    rw [List.nodup_cons] at hnodup
    have hgone : ¬ (nextSend (fun id => decide (g.Wants task id)) todo
        (if ok then dead else dead ++ [id])).Ahead id :=
      fun hahead => hnodup.1 (mem_of_ahead_nextSend hahead)
    refine (h.goOn ht hnodup.2 fun x hx => ?_).record ?_ (goOn_task ht) hgone
    · rw [hsending]
      exact List.mem_cons_of_mem _ hx
    · rintro s' hs' htask rfl
      obtain ⟨task', ht', hnot⟩ := h.not_ahead s' hs'
      rw [htask] at ht'
      rw [ht, Option.some.injEq] at ht'
      subst ht'
      rw [hsending] at hnot
      exact hnot List.mem_cons_self

theorem Delivering.apply (h : Delivering g) (step : GatewayStep Raw Msg) :
    Delivering (g.apply loads upper step) := by
  cases step with
  | client event => exact ⟨nodup_apply h.keys_nodup event, h.todo_nodup, h.sent_once, h.not_ahead⟩
  | broadcast symbol message => exact h.concat rfl
  | broadcastEvent message => exact h.concat rfl
  | begin t => exact h.begin t
  | sent t ok => exact h.sent t ok

theorem delivering_run (h : Delivering g) (steps : List (GatewayStep Raw Msg)) :
    Delivering (g.run loads upper steps) :=
  List.foldlRecOn steps _ h (fun _ h step _ => h.apply step)

theorem delivering_new (supported : Finset String) (startedAt : ℚ) :
    Delivering (Gateway.new supported startedAt : Gateway Msg) where
  keys_nodup := List.nodup_nil
  todo_nodup := by simp [Gateway.new]
  sent_once := List.nodup_nil
  not_ahead := by simp [Gateway.new]

/-! ## What a step changes -/

/-- A task after a step is as it was, new, or has gone on to its next `send`. -/
theorem task_apply_cases {task' : BroadcastTask Msg}
    (h : (g.apply loads upper step).tasks[t]? = some task') :
    g.tasks[t]? = some task' ∨ g.tasks[t]? = none ∧ task'.progress = .created ∨
      ∃ task todo dead, g.tasks[t]? = some task ∧ task' = { task with
          progress := nextSend (fun id => decide (g.Wants task id)) todo dead } ∧
        ((task.progress = .created ∧ todo = keys GatewayClient.clientId g.srv.clients) ∨
          ∃ id dead, task.progress = .sending id todo dead) := by
  cases step with
  | client event => exact Or.inl h
  | broadcast symbol message | broadcastEvent message =>
      rcases getElem?_concat_cases h with h | ⟨hnone, rfl⟩
      · exact Or.inl h
      · exact Or.inr (Or.inl ⟨hnone, rfl⟩)
  | begin t' =>
      rw [show g.apply loads upper (.begin t') = g.begin t' from rfl] at h
      rcases begin_cases g t' with heq | ⟨task, ht, hcreated, heq⟩ <;> rw [heq] at h
      · exact Or.inl h
      · by_cases hne : t = t'
        · subst hne
          rw [goOn_task ht, Option.some.injEq] at h
          exact Or.inr (Or.inr ⟨task, _, _, ht, h.symm, Or.inl ⟨hcreated, rfl⟩⟩)
        · rw [goOn_task_ne hne] at h
          exact Or.inl h
  | sent t' ok =>
      rw [show g.apply loads upper (.sent t' ok) = g.sent t' ok from rfl] at h
      rcases sent_cases g t' ok with heq | ⟨task, id, todo, dead, ht, hsending, heq⟩ <;>
        rw [heq] at h
      · exact Or.inl h
      · rw [Gateway.record] at h
        dsimp only at h
        by_cases hne : t = t'
        · subst hne
          rw [goOn_task ht, Option.some.injEq] at h
          exact Or.inr (Or.inr ⟨task, todo, _, ht, h.symm, Or.inr ⟨id, dead, hsending⟩⟩)
        · rw [goOn_task_ne hne] at h
          exact Or.inl h

/-- A step sends at most one message, to the client its task waits for. -/
theorem sends_apply_cases (g : Gateway Msg) (step : GatewayStep Raw Msg) :
    (g.apply loads upper step).sends = g.sends ∨ ∃ t ok task id todo dead, step = .sent t ok ∧
      g.tasks[t]? = some task ∧ task.progress = .sending id todo dead ∧
      (g.apply loads upper step).sends = g.sends ++ [⟨id, t, ok⟩] := by
  cases step with
  | client event | broadcast symbol message | broadcastEvent message => exact Or.inl rfl
  | begin t =>
      rw [show g.apply loads upper (.begin t) = g.begin t from rfl]
      rcases begin_cases g t with heq | ⟨task, -, -, heq⟩ <;> rw [heq] <;> exact Or.inl rfl
  | sent t ok =>
      rw [show g.apply loads upper (.sent t ok) = g.sent t ok from rfl]
      rcases sent_cases g t ok with heq | ⟨task, id, todo, dead, ht, hsending, heq⟩ <;> rw [heq]
      · exact Or.inl rfl
      · exact Or.inr ⟨t, ok, task, id, todo, dead, rfl, ht, hsending, rfl⟩

/-- A task stays the same message. -/
theorem task_apply (loads : Raw → Loaded) (upper : String → String) (ht : g.tasks[t]? = some task)
    (step : GatewayStep Raw Msg) :
    ∃ progress, (g.apply loads upper step).tasks[t]? = some { task with progress := progress } := by
  have hlt := (List.getElem?_eq_some_iff.mp ht).1
  have hgoOn : ∀ t' task' todo dead, g.tasks[t']? = some task' → ∃ progress,
      (g.goOn t' task' todo dead).tasks[t]? = some { task with progress := progress } := by
    intro t' task' todo dead ht'
    by_cases heq : t = t'
    · subst heq
      rw [ht, Option.some.injEq] at ht'
      subst ht'
      exact ⟨_, goOn_task ht⟩
    · exact ⟨_, (goOn_task_ne heq).trans ht⟩
  cases step with
  | client event => exact ⟨_, ht⟩
  | broadcast symbol message | broadcastEvent message =>
      exact ⟨_, (List.getElem?_append_left hlt).trans ht⟩
  | begin t' =>
      rcases begin_cases g t' with heq | ⟨task', ht', -, heq⟩
      · exact ⟨_, (congrArg (fun g => g.tasks[t]?) heq).trans ht⟩
      · rw [Gateway.apply, heq]
        exact hgoOn t' task' _ _ ht'
  | sent t' ok =>
      rcases sent_cases g t' ok with heq | ⟨task', id, todo, dead, ht', -, heq⟩
      · exact ⟨_, (congrArg (fun g => g.tasks[t]?) heq).trans ht⟩
      · rw [Gateway.apply, heq]
        exact hgoOn t' task' _ _ ht'

/-! ## The count of deliveries -/

/-- A `send` that `signals_delivered` counts. -/
def Gateway.counts (g : Gateway Msg) (s : Send) : Bool :=
  s.ok && (g.tasks[s.task]?).any BroadcastTask.counted

theorem counts_apply (loads : Raw → Loaded) (upper : String → String) (h : Delivering g)
    (step : GatewayStep Raw Msg) :
    g.sends.countP (g.apply loads upper step).counts = g.sends.countP g.counts := by
  refine List.countP_congr fun s hs => ?_
  obtain ⟨task, ht, -⟩ := h.not_ahead s hs
  obtain ⟨progress, ht'⟩ := task_apply loads upper ht step
  rw [Gateway.counts, Gateway.counts, ht, ht']
  rfl

theorem signalsDelivered_client {srv : GatewayServer} (event : GatewayEvent Raw) :
    (srv.apply loads upper event).signalsDelivered = srv.signalsDelivered := by
  cases event with
  | connected | closed clientId => rfl
  | message clientId raw io =>
      rw [GatewayServer.apply]
      split
      · rfl
      · split <;> rfl

theorem delivered_apply (h : Delivering g)
    (hcount : g.srv.signalsDelivered = g.sends.countP g.counts) (step : GatewayStep Raw Msg) :
    (g.apply loads upper step).srv.signalsDelivered =
      (g.apply loads upper step).sends.countP (g.apply loads upper step).counts := by
  have hkept := counts_apply loads upper h step
  cases step with
  | client event =>
      rw [show ((g.apply loads upper (.client event)).srv.signalsDelivered : ℤ) =
        g.srv.signalsDelivered from signalsDelivered_client event, hcount, ← hkept]
      rfl
  | broadcast symbol message | broadcastEvent message =>
      rw [show ((g.apply loads upper _).sends : List Send) = g.sends from rfl, hkept, ← hcount]
      rfl
  | begin t =>
      rw [show g.apply loads upper (.begin t) = g.begin t from rfl] at hkept ⊢
      rcases begin_cases g t with heq | ⟨task, -, -, heq⟩ <;> rw [heq] at hkept ⊢
      · exact hcount
      · rw [goOn_signalsDelivered, goOn_sends, hkept, hcount]
  | sent t ok =>
      rw [show g.apply loads upper (.sent t ok) = g.sent t ok from rfl] at hkept ⊢
      rcases sent_cases g t ok with heq | ⟨task, id, todo, dead, ht, -, heq⟩ <;> rw [heq] at hkept ⊢
      · exact hcount
      · generalize hg : g.goOn t task todo (if ok then dead else dead ++ [id]) = g' at hkept ⊢
        have hsends : g'.sends = g.sends := by rw [← hg, goOn_sends]
        have hdelivered : g'.srv.signalsDelivered = g.srv.signalsDelivered := by
          rw [← hg, goOn_signalsDelivered]
        have hnew : (g'.record ⟨id, t, ok⟩ task.counted).counts ⟨id, t, ok⟩ =
            (ok && task.counted) := by
          rw [Gateway.counts, Gateway.record]
          dsimp only
          rw [← hg, goOn_task ht]
          rfl
        rw [show (g'.record ⟨id, t, ok⟩ task.counted).sends = g.sends ++ [⟨id, t, ok⟩] by
          rw [Gateway.record, hsends], List.countP_append, hkept, List.countP_singleton, hnew,
          Gateway.record]
        dsimp only
        rw [hdelivered, hcount]
        split <;> simp

/-! ## Where a message goes -/

theorem run_concat (g : Gateway Msg) (steps : List (GatewayStep Raw Msg))
    (step : GatewayStep Raw Msg) :
    g.run loads upper (steps ++ [step]) = (g.run loads upper steps).apply loads upper step := by
  rw [Gateway.run, List.foldl_append]
  rfl

/-- The client was connected once the broadcast had been made. -/
def Reached (loads : Raw → Loaded) (upper : String → String) (g : Gateway Msg)
    (steps : List (GatewayStep Raw Msg)) (t x : ℕ) : Prop :=
  ∃ before, before <+: steps ∧ t < (g.run loads upper before).tasks.length ∧
    x ∈ keys GatewayClient.clientId (g.run loads upper before).srv.clients

/-- And it asked for the message later on. -/
def Offered (loads : Raw → Loaded) (upper : String → String) (g : Gateway Msg)
    (steps : List (GatewayStep Raw Msg)) (t : ℕ) (task : BroadcastTask Msg) (x : ℕ) : Prop :=
  ∃ asked, asked <+: steps ∧ Reached loads upper g asked t x ∧
    (g.run loads upper asked).Wants task x

theorem Reached.mono {steps' : List (GatewayStep Raw Msg)}
    (h : Reached loads upper g steps t x) (hsteps : steps <+: steps') :
    Reached loads upper g steps' t x := by
  obtain ⟨before, hbefore, hrest⟩ := h
  exact ⟨before, hbefore.trans hsteps, hrest⟩

theorem Offered.mono {steps' : List (GatewayStep Raw Msg)}
    (h : Offered loads upper g steps t task x) (hsteps : steps <+: steps') :
    Offered loads upper g steps' t task x := by
  obtain ⟨asked, hasked, hrest⟩ := h
  exact ⟨asked, hasked.trans hsteps, hrest⟩

/-- A waiting task is in the `send` to a client that has asked for the message, and goes on to
    clients that were connected. -/
theorem waiting_run (g : Gateway Msg) (hnew : g.tasks = []) (steps : List (GatewayStep Raw Msg)) :
    ∀ (t : ℕ) (task : BroadcastTask Msg) (id : ℕ) (todo dead : List ℕ),
      (g.run loads upper steps).tasks[t]? = some task → task.progress = .sending id todo dead →
      Offered loads upper g steps t task id ∧ ∀ x ∈ todo, Reached loads upper g steps t x := by
  induction steps using List.reverseRecOn with
  | nil =>
      intro t task id todo dead ht
      rw [Gateway.run, List.foldl_nil, hnew] at ht
      cases ht
  | append_singleton steps step ih =>
      intro t task id todo dead ht hsending
      have hprefix := List.prefix_append steps [step]
      rw [run_concat] at ht
      rcases task_apply_cases ht with ht | ⟨-, hcreated⟩ | ⟨task, todo', dead', ht₀, rfl, hfrom⟩
      · obtain ⟨hoffered, htodo⟩ := ih t task id todo dead ht hsending
        exact ⟨hoffered.mono hprefix, fun x hx => (htodo x hx).mono hprefix⟩
      · rw [hcreated] at hsending
        cases hsending
      · have hreached : ∀ x ∈ todo', Reached loads upper g steps t x := by
          rcases hfrom with ⟨-, rfl⟩ | ⟨id', dead'', hsending'⟩
          · exact fun x hx => ⟨steps, List.prefix_refl _, (List.getElem?_eq_some_iff.mp ht₀).1, hx⟩
          · exact (ih t task id' todo' dead'' ht₀ hsending').2
        dsimp only at hsending
        rcases nextSend_cases (fun id => decide ((g.run loads upper steps).Wants task id)) todo'
          dead' with hover | ⟨id', rest, hnext, hwants, hsuffix⟩
        · rw [hover] at hsending
          cases hsending
        · rw [hnext] at hsending
          cases hsending
          refine ⟨⟨steps, hprefix, hreached id (hsuffix.subset List.mem_cons_self),
            of_decide_eq_true hwants⟩, fun x hx => ?_⟩
          exact (hreached x (hsuffix.subset (List.mem_cons_of_mem _ hx))).mono hprefix

theorem offered_run (g : Gateway Msg) (hnew : g.tasks = []) (hsends : g.sends = [])
    (steps : List (GatewayStep Raw Msg)) :
    ∀ s ∈ (g.run loads upper steps).sends, ∃ task,
      (g.run loads upper steps).tasks[s.task]? = some task ∧
        Offered loads upper g steps s.task task s.client := by
  induction steps using List.reverseRecOn with
  | nil =>
      intro s hs
      rw [Gateway.run, List.foldl_nil, hsends] at hs
      cases hs
  | append_singleton steps step ih =>
      intro s hs
      have hprefix := List.prefix_append steps [step]
      rw [run_concat] at hs ⊢
      have hkept : ∀ task, (g.run loads upper steps).tasks[s.task]? = some task →
          Offered loads upper g steps s.task task s.client → ∃ task',
            ((g.run loads upper steps).apply loads upper step).tasks[s.task]? = some task' ∧
              Offered loads upper g (steps ++ [step]) s.task task' s.client := by
        intro task ht hoffered
        obtain ⟨progress, ht'⟩ := task_apply loads upper ht step
        exact ⟨_, ht', hoffered.mono hprefix⟩
      rcases sends_apply_cases (g.run loads upper steps) step with
        heq | ⟨t, ok, task, id, todo, dead, -, ht, hsending, heq⟩ <;> rw [heq] at hs
      · obtain ⟨task, ht, hoffered⟩ := ih s hs
        exact hkept task ht hoffered
      · rcases List.mem_append.mp hs with hs | hs
        · obtain ⟨task, ht, hoffered⟩ := ih s hs
          exact hkept task ht hoffered
        · rw [List.mem_singleton] at hs
          subst hs
          exact hkept task ht (waiting_run g hnew steps t task id todo dead ht hsending).1

/-- **Sound deliveries**: in every run a message is sent to a client at most once, and only to
    one that was connected when its broadcast had been made and has asked for it since then;
    `signals_delivered` is the number of setups that went out. -/
theorem sends_sound (loads : Raw → Loaded) (upper : String → String) (supported : Finset String)
    (startedAt : ℚ) (steps : List (GatewayStep Raw Msg)) :
    let g₀ : Gateway Msg := Gateway.new supported startedAt
    let g := g₀.run loads upper steps
    (g.sends.map (fun s => (s.client, s.task))).Nodup ∧
      (∀ s ∈ g.sends, ∃ task, g.tasks[s.task]? = some task ∧
        Offered loads upper g₀ steps s.task task s.client) ∧
      g.srv.signalsDelivered = g.sends.countP g.counts := by
  intro g₀ g
  refine ⟨(delivering_run (delivering_new supported startedAt) steps).sent_once,
    offered_run g₀ rfl rfl steps, ?_⟩
  have hrun : Delivering g ∧ g.srv.signalsDelivered = g.sends.countP g.counts :=
    List.foldlRecOn (motive := fun g : Gateway Msg =>
      Delivering g ∧ g.srv.signalsDelivered = g.sends.countP g.counts) steps _
      ⟨delivering_new supported startedAt, rfl⟩
      (fun _ h step _ => ⟨h.1.apply step, delivered_apply h.1 h.2 step⟩)
  exact hrun.2

/-! ## Who is not forgotten -/

theorem counter_le_step (loads : Raw → Loaded) (upper : String → String) (g : Gateway Msg)
    (step : GatewayStep Raw Msg) :
    g.srv.counter ≤ (g.apply loads upper step).srv.counter := by
  cases step with
  | client event => exact counter_le_apply loads upper event
  | broadcast symbol message | broadcastEvent message => exact le_refl _
  | begin t =>
      rw [Gateway.apply]
      rcases begin_cases g t with heq | ⟨task, -, -, heq⟩ <;> rw [heq]
      exact goOn_counter.ge
  | sent t ok =>
      rw [Gateway.apply]
      rcases sent_cases g t ok with heq | ⟨task, id, todo, dead, -, -, heq⟩ <;> rw [heq]
      exact goOn_counter.ge

theorem mem_keys_goOn (h : x ∈ keys GatewayClient.clientId (g.goOn t task todo dead).srv.clients) :
    x ∈ keys GatewayClient.clientId g.srv.clients := by
  rw [Gateway.goOn] at h
  dsimp only at h
  split at h
  · exact (mem_keys_pop.mp h).1
  · exact h

/-- A client that is off the list stays off: ids are not given out again. -/
theorem mem_keys_step (hx : x ≤ g.srv.counter)
    (h : x ∈ keys GatewayClient.clientId (g.apply loads upper step).srv.clients) :
    x ∈ keys GatewayClient.clientId g.srv.clients := by
  cases step with
  | client event => exact ((mem_clients_apply event hx).mp h).1
  | broadcast symbol message | broadcastEvent message => exact h
  | begin t =>
      rw [Gateway.apply] at h
      rcases begin_cases g t with heq | ⟨task, -, -, heq⟩ <;> rw [heq] at h
      · exact h
      · exact mem_keys_goOn h
  | sent t ok =>
      rw [Gateway.apply] at h
      rcases sent_cases g t ok with heq | ⟨task, id, todo, dead, -, -, heq⟩ <;> rw [heq] at h
      · exact h
      · exact mem_keys_goOn h

/-- Those whose `send` has failed are popped when the task is over. -/
theorem dead_goOn (todo : List ℕ) (ht : g.tasks[t]? = some task) (hx : x ∈ dead) :
    (∃ task', (g.goOn t task todo dead).tasks[t]? = some task' ∧ x ∈ task'.progress.dead) ∨
      x ∉ keys GatewayClient.clientId (g.goOn t task todo dead).srv.clients := by
  rcases nextSend_cases (fun id => decide (g.Wants task id)) todo dead with
    hover | ⟨id, rest, hnext, -, -⟩
  · refine Or.inr ?_
    rw [Gateway.goOn, if_pos hover, mem_keys_pop]
    exact fun h => h.2 hx
  · refine Or.inl ⟨_, goOn_task ht, ?_⟩
    dsimp only
    rw [hnext]
    exact hx

/-- How a task that has begun stands with a client that wants its message: the client is still to
    come, or has been sent the message. One whose `send` failed is popped with the task's end. -/
structure Tracked (g : Gateway Msg) (t x : ℕ) (task : BroadcastTask Msg) : Prop where
  here : g.tasks[t]? = some task
  begun : task.progress ≠ .created
  ahead_or_sent : task.progress.Ahead x ∨ ∃ s ∈ g.sends, s.client = x ∧ s.task = t ∧
    (s.ok = false → x ∈ task.progress.dead ∨ x ∉ keys GatewayClient.clientId g.srv.clients)

theorem Tracked.begin (ht : g.tasks[t]? = some task) (hcreated : task.progress = .created)
    (hx : x ∈ keys GatewayClient.clientId g.srv.clients) (hwants : g.Wants task x) :
    ∃ progress, Tracked (g.begin t) t x { task with progress := progress } := by
  rw [begin_eq ht hcreated]
  exact ⟨_, goOn_task ht, nextSend_ne_created,
    Or.inl (ahead_nextSend hx (decide_eq_true hwants))⟩

/-- A step of the task itself. -/
theorem Tracked.goOn (ht : g.tasks[t]? = some task) {ok : Bool} {counted : Bool}
    (hsending : task.progress = .sending id todo dead) (hwants : g.Wants task x)
    (h : Tracked g t x task) :
    ∃ progress, Tracked ((g.goOn t task todo (if ok then dead else dead ++ [id])).record
      ⟨id, t, ok⟩ counted) t x { task with progress := progress } := by
  refine ⟨_, goOn_task ht, nextSend_ne_created, ?_⟩
  have hdead : ∀ s : Send, s.client = x → (s.ok = false →
      x ∈ (if ok then dead else dead ++ [id]) ∨ x ∉ keys GatewayClient.clientId g.srv.clients) →
      s.ok = false → x ∈ (nextSend (fun id => decide (g.Wants task id)) todo
        (if ok then dead else dead ++ [id])).dead ∨ x ∉ keys GatewayClient.clientId
          (g.goOn t task todo (if ok then dead else dead ++ [id])).srv.clients := by
    intro s _ hfailed hs
    rcases hfailed hs with hmem | hoff
    · rcases dead_goOn todo ht hmem with ⟨task', ht', hmem'⟩ | hoff
      · rw [goOn_task ht, Option.some.injEq] at ht'
        subst ht'
        exact Or.inl hmem'
      · exact Or.inr hoff
    · exact Or.inr fun hmem => hoff (mem_keys_goOn hmem)
  rcases h.ahead_or_sent with hahead | ⟨s, hs, hclient, htask, hfailed⟩
  · rw [hsending] at hahead
    rcases List.mem_cons.mp hahead with rfl | hahead
    · refine Or.inr ⟨⟨x, t, ok⟩, List.mem_append_right _ List.mem_cons_self, rfl, rfl,
        hdead ⟨x, t, ok⟩ rfl fun hfalse => Or.inl ?_⟩
      dsimp only at hfalse
      rw [hfalse]
      exact List.mem_append_right _ List.mem_cons_self
    · exact Or.inl (ahead_nextSend hahead (decide_eq_true hwants))
  · refine Or.inr ⟨s, List.mem_append_left _ hs, hclient, htask, hdead s hclient fun hs => ?_⟩
    rcases hfailed hs with hmem | hoff
    · rw [hsending] at hmem
      refine Or.inl ?_
      split
      · exact hmem
      · exact List.mem_append_left _ hmem
    · exact Or.inr hoff

/-- A step that leaves the task alone. -/
theorem Tracked.kept {g' : Gateway Msg} (h : Tracked g t x task) (ht : g'.tasks[t]? = some task)
    (hsends : ∀ s ∈ g.sends, s ∈ g'.sends)
    (hkeys : x ∈ keys GatewayClient.clientId g'.srv.clients →
      x ∈ keys GatewayClient.clientId g.srv.clients) :
    ∃ progress, Tracked g' t x { task with progress := progress } := by
  refine ⟨task.progress, ht, h.begun, h.ahead_or_sent.imp_right ?_⟩
  rintro ⟨s, hs, hclient, htask, hfailed⟩
  exact ⟨s, hsends s hs, hclient, htask, fun hfalse => (hfailed hfalse).imp_right (mt hkeys)⟩

theorem sends_subset_apply (g : Gateway Msg) (step : GatewayStep Raw Msg) :
    ∀ s ∈ g.sends, s ∈ (g.apply loads upper step).sends := by
  intro s hs
  rcases sends_apply_cases g step with heq | ⟨_, _, _, _, _, _, -, -, -, heq⟩ <;> rw [heq]
  · exact hs
  · exact List.mem_append_left _ hs

theorem Tracked.apply (loads : Raw → Loaded) (upper : String → String) (h : Tracked g t x task)
    (hx : x ≤ g.srv.counter) (hwants : g.Wants task x) (step : GatewayStep Raw Msg) :
    ∃ progress, Tracked (g.apply loads upper step) t x { task with progress := progress } := by
  have hkept : (g.apply loads upper step).tasks[t]? = some task → ∃ progress,
      Tracked (g.apply loads upper step) t x { task with progress := progress } :=
    fun hsame => h.kept hsame (sends_subset_apply g step) (mem_keys_step hx)
  cases step with
  | client event => exact hkept h.here
  | broadcast symbol message | broadcastEvent message =>
      have hlt := (List.getElem?_eq_some_iff.mp h.here).1
      exact hkept ((List.getElem?_append_left hlt).trans h.here)
  | begin t' =>
      rcases begin_cases g t' with heq | ⟨task', ht', hcreated, heq⟩
      · exact hkept ((congrArg (fun g => g.tasks[t]?) heq).trans h.here)
      · have hne : t ≠ t' := by
          rintro rfl
          rw [h.here, Option.some.injEq] at ht'
          exact h.begun (ht' ▸ hcreated)
        refine hkept ?_
        rw [Gateway.apply, heq, goOn_task_ne hne]
        exact h.here
  | sent t' ok =>
      rcases sent_cases g t' ok with heq | ⟨task', id, todo, dead, ht', hsending, heq⟩
      · exact hkept ((congrArg (fun g => g.tasks[t]?) heq).trans h.here)
      · by_cases hne : t = t'
        · subst hne
          rw [h.here, Option.some.injEq] at ht'
          subst ht'
          rw [Gateway.apply, heq]
          exact h.goOn h.here hsending hwants
        · refine hkept ?_
          rw [Gateway.apply, heq]
          exact (goOn_task_ne hne).trans h.here

theorem tracked_run (h : Tracked g t x task) (hx : x ≤ g.srv.counter)
    (steps : List (GatewayStep Raw Msg))
    (hwants : ∀ earlier, earlier <+: steps → (g.run loads upper earlier).Wants task x) :
    x ≤ (g.run loads upper steps).srv.counter ∧
      ∃ progress, Tracked (g.run loads upper steps) t x { task with progress := progress } := by
  induction steps using List.reverseRecOn with
  | nil => exact ⟨hx, task.progress, h⟩
  | append_singleton steps step ih =>
      have hprefix := List.prefix_append steps [step]
      obtain ⟨hcounter, progress, htracked⟩ :=
        ih fun earlier hearlier => hwants earlier (hearlier.trans hprefix)
      rw [run_concat]
      exact ⟨hcounter.trans (counter_le_step loads upper _ step),
        htracked.apply loads upper hcounter (hwants steps hprefix) step⟩

/-! ## Every broadcast comes to its end -/

/-- How many `send`s a task that has begun can still wait for. -/
def Progress.left : Progress → ℕ
  | .sending _ todo _ => todo.length + 1
  | .created | .finished => 0

/-- A `send` of the task returns. -/
def GatewayStep.returns (t : ℕ) : GatewayStep Raw Msg → Bool
  | .sent t' _ => decide (t' = t)
  | _ => false

theorem left_nextSend : (nextSend wants todo dead).left ≤ todo.length := by
  rcases nextSend_cases wants todo dead with heq | ⟨id, rest, heq, -, hsuffix⟩ <;> rw [heq]
  · exact Nat.zero_le _
  · exact hsuffix.length_le

theorem left_apply (loads : Raw → Loaded) (upper : String → String) (ht : g.tasks[t]? = some task)
    (hbegun : task.progress ≠ .created) (step : GatewayStep Raw Msg) :
    ∃ progress, (g.apply loads upper step).tasks[t]? = some { task with progress := progress } ∧
      progress ≠ .created ∧
      progress.left ≤ task.progress.left - if step.returns t then 1 else 0 := by
  by_cases hreturns : step.returns t = true
  · rw [if_pos hreturns]
    cases step with
    | client event | broadcast symbol message | broadcastEvent message | begin t' => cases hreturns
    | sent t' ok =>
        obtain rfl : t' = t := of_decide_eq_true hreturns
        cases hprogress : task.progress with
        | created => exact absurd hprogress hbegun
        | sending id todo dead =>
            rw [Gateway.apply, sent_eq ht hprogress]
            exact ⟨_, goOn_task ht, nextSend_ne_created, left_nextSend⟩
        | finished =>
            have hover : g.sent t' ok = g := by
              rw [Gateway.sent, ht]
              dsimp only
              rw [hprogress]
            refine ⟨.finished, ?_, by simp, Nat.zero_le _⟩
            rw [Gateway.apply, hover, ← hprogress]
            exact ht
  · rw [if_neg hreturns, Nat.sub_zero]
    obtain ⟨progress, ht'⟩ := task_apply loads upper ht step
    refine ⟨progress, ht', ?_⟩
    rcases task_apply_cases ht' with hsame | ⟨hnone, -⟩ | ⟨task', todo, dead, ht₀, heq, hfrom⟩
    · rw [ht, Option.some.injEq] at hsame
      rw [hsame] at hbegun ⊢
      exact ⟨hbegun, le_refl _⟩
    · rw [ht] at hnone
      cases hnone
    · rw [ht, Option.some.injEq] at ht₀
      subst ht₀
      obtain rfl : progress = nextSend (fun id => decide (g.Wants task id)) todo dead :=
        congrArg BroadcastTask.progress heq
      refine ⟨nextSend_ne_created, left_nextSend.trans ?_⟩
      rcases hfrom with ⟨hcreated, -⟩ | ⟨id, dead', hsending⟩
      · exact absurd hcreated hbegun
      · rw [hsending]
        exact Nat.le_succ _

theorem left_run (loads : Raw → Loaded) (upper : String → String) (ht : g.tasks[t]? = some task)
    (hbegun : task.progress ≠ .created) (steps : List (GatewayStep Raw Msg)) :
    ∃ progress, (g.run loads upper steps).tasks[t]? = some { task with progress := progress } ∧
      progress ≠ .created ∧
      progress.left ≤ task.progress.left - steps.countP (GatewayStep.returns t) := by
  induction steps generalizing g task with
  | nil => exact ⟨task.progress, ht, hbegun, le_refl _⟩
  | cons step steps ih =>
      obtain ⟨progress, ht', hbegun', hleft⟩ :=
        left_apply loads upper ht hbegun step
      obtain ⟨progress', ht'', hbegun'', hleft'⟩ := ih ht' hbegun'
      refine ⟨progress', ht'', hbegun'', hleft'.trans ?_⟩
      dsimp only
      rw [List.countP_cons]
      omega

theorem finished_of_left {p : Progress} (hbegun : p ≠ .created) (hleft : p.left = 0) :
    p = .finished := by
  cases p with
  | created => exact absurd rfl hbegun
  | sending id todo dead => cases hleft
  | finished => rfl

theorem Registered.pop {srv : GatewayServer} (h : Registered srv) (dead : List ℕ) :
    Registered (srv.pop dead) := by
  rw [GatewayServer.pop]
  induction dead generalizing srv with
  | nil => exact h
  | cons id dead ih => exact ih (h.erase id)

theorem Registered.goOn (h : Registered g.srv) : Registered (g.goOn t task todo dead).srv := by
  rw [Gateway.goOn]
  dsimp only
  split
  · exact h.pop dead
  · exact h

theorem Registered.next (h : Registered g.srv) (step : GatewayStep Raw Msg) :
    Registered (g.apply loads upper step).srv := by
  cases step with
  | client event => exact h.apply event
  | broadcast symbol message | broadcastEvent message => exact h
  | begin t =>
      rw [Gateway.apply]
      rcases begin_cases g t with heq | ⟨task, -, -, heq⟩ <;> rw [heq]
      · exact h
      · exact h.goOn
  | sent t ok =>
      rw [Gateway.apply]
      rcases sent_cases g t ok with heq | ⟨task, id, todo, dead, -, -, heq⟩ <;> rw [heq]
      · exact h
      · exact ⟨h.goOn.id_le, h.goOn.subset⟩

theorem registered_gateway (supported : Finset String) (startedAt : ℚ)
    (steps : List (GatewayStep Raw Msg)) :
    Registered ((Gateway.new supported startedAt : Gateway Msg).run loads upper steps).srv :=
  List.foldlRecOn (motive := fun g : Gateway Msg => Registered g.srv) steps _
    (registered_new supported startedAt) (fun _ h step _ => h.next step)

/-- **No client is forgotten**: a broadcast is over once as many of its `send`s have returned as
    there were clients when it began. A client that was there then, and that wanted the message
    all the time, has been sent it exactly once; if that `send` failed, it is off the list. -/
theorem sent_of_subscribed {supported : Finset String} {startedAt : ℚ}
    {before steps : List (GatewayStep Raw Msg)} {after : Gateway Msg}
    (hg : g = (Gateway.new supported startedAt).run loads upper before)
    (ht : g.tasks[t]? = some task) (hcreated : task.progress = .created)
    (hx : x ∈ keys GatewayClient.clientId g.srv.clients)
    (hafter : after = (g.begin t).run loads upper steps)
    (hwants : ∀ earlier, earlier <+: steps →
      ((g.begin t).run loads upper earlier).Wants task x)
    (hreturns : g.srv.clients.length ≤ steps.countP (GatewayStep.returns t)) :
    after.tasks[t]? = some { task with progress := .finished } ∧
      ∃ s ∈ after.sends, (∀ s' ∈ after.sends, s'.client = x ∧ s'.task = t ↔ s' = s) ∧
        (s.ok = false → x ∉ keys GatewayClient.clientId after.srv.clients) := by
  have hdelivering : Delivering after := by
    rw [hafter, hg]
    exact delivering_run ((delivering_run (delivering_new supported startedAt) before).begin t) _
  have hle : x ≤ g.srv.counter := by
    obtain ⟨c, hc, rfl⟩ := mem_keys.mp hx
    rw [hg] at hc ⊢
    exact (registered_gateway supported startedAt before).id_le c hc
  have hlast : after.tasks[t]? = some { task with progress := .finished } := by
    obtain ⟨first, hbegin, hbegun, hfirst⟩ : ∃ first,
        (g.begin t).tasks[t]? = some { task with progress := first } ∧ first ≠ .created ∧
          first.left ≤ g.srv.clients.length := by
      rw [begin_eq ht hcreated]
      refine ⟨_, goOn_task ht, nextSend_ne_created, left_nextSend.trans ?_⟩
      rw [keys, List.length_map]
    obtain ⟨progress, hlast, hbegun, hleft⟩ := left_run loads upper hbegin hbegun steps
    dsimp only at hleft
    rw [hafter, hlast, finished_of_left hbegun (by omega)]
  refine ⟨hlast, ?_⟩
  have hfirst : g.Wants task x := by
    have hnow := hwants [] List.nil_prefix
    rw [begin_eq ht hcreated] at hnow
    exact hnow
  obtain ⟨progress₀, hbegin⟩ := Tracked.begin ht hcreated hx hfirst
  have hcounter : g.srv.counter ≤ (g.begin t).srv.counter :=
    counter_le_step loads upper g (.begin t)
  obtain ⟨-, progress, htracked⟩ := tracked_run hbegin (hle.trans hcounter) steps hwants
  rw [← hafter] at htracked
  have hprogress : progress = .finished := by
    have hhere := htracked.here
    rw [hlast, Option.some.injEq] at hhere
    exact (congrArg BroadcastTask.progress hhere).symm
  rcases htracked.ahead_or_sent with hahead | ⟨s, hs, hclient, htask, hfailed⟩
  · rw [hprogress] at hahead
    exact hahead.elim
  · refine ⟨s, hs, fun s' hs' => ⟨?_, ?_⟩, fun hfalse => ?_⟩
    · rintro ⟨hclient', htask'⟩
      exact List.inj_on_of_nodup_map hdelivering.sent_once hs' hs
        (Prod.ext (hclient'.trans hclient.symm) (htask'.trans htask.symm))
    · rintro rfl
      exact ⟨hclient, htask⟩
    · rcases hfailed hfalse with hdead | hoff
      · rw [hprogress] at hdead
        cases hdead
      · exact hoff

/-- Two clients subscribe to gold, and a setup is broadcast. -/
def goldSteps : List (GatewayStep String String) :=
  [.client .connected, .client (.message 1 subscription ⟨0, []⟩), .client .connected,
    .client (.message 2 subscription ⟨0, []⟩), .broadcast "XAUUSD" "setup"]

def goldGateway : Gateway String :=
  (Gateway.new {"XAUUSD"} 0).run sampleLoads (fun s => s) goldSteps

/-- While the setup is on its way a third client connects and a second broadcast begins; the
    `send` to the second client fails. -/
def goldSends : List (GatewayStep String String) :=
  [.client .connected, .broadcast "XAUUSD" "second setup", .sent 0 true, .begin 1, .sent 0 false]

theorem gold_setup_sent :
    ∃ s ∈ ((goldGateway.begin 0).run sampleLoads (fun s => s) goldSends).sends,
      s = ⟨2, 0, false⟩ ∧
      (∀ s' ∈ ((goldGateway.begin 0).run sampleLoads (fun s => s) goldSends).sends,
        s'.client = 2 ∧ s'.task = 0 ↔ s' = s) ∧
      2 ∉ keys GatewayClient.clientId
        ((goldGateway.begin 0).run sampleLoads (fun s => s) goldSends).srv.clients := by
  have hwants : ∀ earlier, earlier <+: goldSends →
      ((goldGateway.begin 0).run sampleLoads (fun s => s) earlier).Wants
        (broadcastTask (fun s => s) "XAUUSD" "setup") 2 := by
    intro earlier hearlier
    rw [List.prefix_iff_eq_take.mp hearlier]
    have hlen : earlier.length < 6 := Nat.lt_succ_of_le hearlier.length_le
    generalize earlier.length = n at hlen
    interval_cases n <;> decide +kernel
  obtain ⟨-, s, hs, honly, hoff⟩ := sent_of_subscribed (t := 0) (x := 2)
    (show goldGateway = (Gateway.new {"XAUUSD"} 0).run sampleLoads (fun s => s) goldSteps from rfl)
    rfl rfl (by decide +kernel) rfl hwants (by decide +kernel)
  have hfailed : (⟨2, 0, false⟩ : Send) ∈
      ((goldGateway.begin 0).run sampleLoads (fun s => s) goldSends).sends := by
    decide +kernel
  obtain rfl := (honly _ hfailed).mp ⟨rfl, rfl⟩
  exact ⟨_, hfailed, rfl, honly, hoff rfl⟩

end SignalEngine
