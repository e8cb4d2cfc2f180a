/-
  Relay: what a client of the gateway gets of what the router is told.

  Model. `SignalManager` is the router with the gateway behind it: each call the router makes on
  the gateway is a task, and the tasks, the clients and the router take their steps in any order.
  Between two moments at which no broadcast is going on, the messages a client has been sent are
  set against the calls that the router has made.

  Proved: `relayed_once`: a client that is there at the end and whose subscriptions do not change
  has been sent each call it subscribes to exactly once, and nothing else.
-/
import SignalEngine.Manager.Broadcasts
import SignalEngine.Manager.Delivery

namespace SignalEngine

open Lib

variable {Raw Msg : Type} {loads : Raw → Loaded} {upper : String → String} {g after : Gateway Msg}
  {t x : ℕ} {task : BroadcastTask Msg} {subscribed : Finset String}
  {step : GatewayStep Raw Msg} {steps : List (GatewayStep Raw Msg)}

/-! ## Between two quiet moments -/

/-- A message that a client with these subscriptions is sent. -/
def BroadcastTask.For (task : BroadcastTask Msg) (subscribed : Finset String) : Prop :=
  task.symbol = "" ∨ task.symbol ∈ subscribed

instance (task : BroadcastTask Msg) (subscribed : Finset String) :
    Decidable (task.For subscribed) :=
  inferInstanceAs (Decidable (_ ∨ _))

/-- No broadcast is going on. -/
def Gateway.Quiet (g : Gateway Msg) : Prop := ∀ task ∈ g.tasks, task.progress = .finished

instance (g : Gateway Msg) : Decidable g.Quiet :=
  inferInstanceAs (Decidable (∀ task ∈ g.tasks, _))

/-- The messages sent to a client since `g`. -/
def Gateway.receivedSince (g after : Gateway Msg) (x : ℕ) : List Msg :=
  (after.sends.drop g.sends.length).filterMap fun s =>
    if s.client = x ∧ s.ok = true then (after.tasks[s.task]?).map BroadcastTask.message else none

/-- What has happened since a quiet moment: the tasks of then are over, and what is sent belongs
    to later ones. -/
structure Since (g after : Gateway Msg) (new : List Send) : Prop where
  sends : after.sends = g.sends ++ new
  later : ∀ s ∈ new, g.tasks.length ≤ s.task
  length_le : g.tasks.length ≤ after.tasks.length
  finished : ∀ t task, t < g.tasks.length → after.tasks[t]? = some task → task.progress = .finished

theorem since_refl (hquiet : g.Quiet) : Since g g [] where
  sends := (List.append_nil _).symm
  later := fun _ hs => absurd hs List.not_mem_nil
  length_le := le_refl _
  finished := fun _ task _ ht => hquiet task (List.mem_of_getElem? ht)

theorem length_le_apply (loads : Raw → Loaded) (upper : String → String) (g : Gateway Msg)
    (step : GatewayStep Raw Msg) :
    g.tasks.length ≤ (g.apply loads upper step).tasks.length := by
  by_contra hlt
  have hlast : (g.apply loads upper step).tasks.length < g.tasks.length := not_le.mp hlt
  obtain ⟨progress, ht⟩ := task_apply loads upper (List.getElem?_eq_getElem hlast) step
  exact lt_irrefl _ (List.getElem?_eq_some_iff.mp ht).1

theorem length_le_run (loads : Raw → Loaded) (upper : String → String) (g : Gateway Msg)
    {early late : List (GatewayStep Raw Msg)} (h : early <+: late) :
    (g.run loads upper early).tasks.length ≤ (g.run loads upper late).tasks.length := by
  obtain ⟨rest, rfl⟩ := h
  rw [Gateway.run, Gateway.run, List.foldl_append]
  exact List.foldlRecOn (motive := fun g' : Gateway Msg =>
    (early.foldl (Gateway.apply loads upper) g).tasks.length ≤ g'.tasks.length) rest _ (le_refl _)
    (fun _ h step _ => h.trans (length_le_apply loads upper _ step))

theorem Since.apply {new : List Send} (h : Since g after new) (step : GatewayStep Raw Msg) :
    ∃ new', Since g (after.apply loads upper step) new' := by
  have hlength := h.length_le.trans (length_le_apply loads upper after step)
  have hover : ∀ t task, t < g.tasks.length →
      (after.apply loads upper step).tasks[t]? = some task → task.progress = .finished := by
    intro t task hlt ht
    rcases task_apply_cases ht with ht | ⟨hnone, -⟩ | ⟨task', todo, dead, ht', -, hfrom⟩
    · exact h.finished t task hlt ht
    · exact absurd (List.getElem?_eq_none_iff.mp hnone) (not_le.mpr (hlt.trans_le h.length_le))
    · have hfinished := h.finished t task' hlt ht'
      rcases hfrom with ⟨hcreated, -⟩ | ⟨id, dead', hsending⟩
      · rw [hfinished] at hcreated
        cases hcreated
      · rw [hfinished] at hsending
        cases hsending
  rcases sends_apply_cases after step with
    heq | ⟨t, ok, task, id, todo, dead, -, ht, hsending, heq⟩
  · exact ⟨new, heq.trans h.sends, h.later, hlength, hover⟩
  · refine ⟨new ++ [⟨id, t, ok⟩], ?_, ?_, hlength, hover⟩
    · rw [heq, h.sends, List.append_assoc]
    · intro s hs
      rcases List.mem_append.mp hs with hs | hs
      · exact h.later s hs
      · rw [List.mem_singleton] at hs
        subst hs
        by_contra hlt
        rw [h.finished t task (not_le.mp hlt) ht] at hsending
        cases hsending

theorem since_run (loads : Raw → Loaded) (upper : String → String) (hquiet : g.Quiet)
    (steps : List (GatewayStep Raw Msg)) :
    ∃ new, Since g (g.run loads upper steps) new :=
  List.foldlRecOn (motive := fun after : Gateway Msg => ∃ new, Since g after new) steps _
    ⟨[], since_refl hquiet⟩ (fun _ h step _ => h.elim fun _ h => h.apply step)

/-! ## Every broadcast since then -/

/-- Of a broadcast that the client subscribes to, the client loses nothing. -/
def Listed (g : Gateway Msg) (n x : ℕ) (subscribed : Finset String) : Prop :=
  ∀ t task, n ≤ t → g.tasks[t]? = some task → task.For subscribed →
    task.progress = .created ∨ Tracked g t x task

theorem Listed.apply {n : ℕ} (h : Listed g n x subscribed) (hheld : g.held x = subscribed)
    (hx : x ∈ keys GatewayClient.clientId g.srv.clients) (hle : x ≤ g.srv.counter)
    (step : GatewayStep Raw Msg) : Listed (g.apply loads upper step) n x subscribed := by
  intro t task hn ht hfor
  have hwants : ∀ task : BroadcastTask Msg, task.For subscribed → g.Wants task x := by
    intro task hfor
    rw [Gateway.Wants, hheld]
    exact hfor
  -- a task that has begun goes on as tracked
  have hbegun : ∀ task₀, g.tasks[t]? = some task₀ → task₀.For subscribed →
      task₀.progress ≠ .created → Tracked (g.apply loads upper step) t x task := by
    intro task₀ ht₀ hfor₀ hne
    have htracked := (h t task₀ hn ht₀ hfor₀).resolve_left hne
    obtain ⟨progress, hnext⟩ := htracked.apply loads upper hle
      (hwants task₀ hfor₀) step
    have hhere := hnext.here
    rw [ht, Option.some.injEq] at hhere
    rwa [← hhere] at hnext
  rcases task_apply_cases ht with hsame | ⟨-, hcreated⟩ | ⟨task₀, todo, dead, ht₀, rfl, hfrom⟩
  · by_cases hcreated : task.progress = .created
    · exact Or.inl hcreated
    · exact Or.inr (hbegun task hsame hfor hcreated)
  · exact Or.inl hcreated
  · rcases hfrom with ⟨hcreated, rfl⟩ | ⟨id, dead', hsending⟩
    · exact Or.inr ⟨ht, nextSend_ne_created,
        Or.inl (ahead_nextSend hx (decide_eq_true (hwants task₀ hfor)))⟩
    · refine Or.inr (hbegun task₀ ht₀ hfor ?_)
      rw [hsending]
      simp

theorem listed_run {n : ℕ} (h : Listed g n x subscribed) (hle : x ≤ g.srv.counter)
    (steps : List (GatewayStep Raw Msg))
    (hx : x ∈ keys GatewayClient.clientId (g.run loads upper steps).srv.clients)
    (hheld : ∀ earlier, earlier <+: steps → (g.run loads upper earlier).held x = subscribed) :
    Listed (g.run loads upper steps) n x subscribed ∧
      x ≤ (g.run loads upper steps).srv.counter := by
  induction steps using List.reverseRecOn with
  | nil => exact ⟨h, hle⟩
  | append_singleton steps step ih =>
      have hprefix := List.prefix_append steps [step]
      have hcounter : x ≤ (g.run loads upper steps).srv.counter :=
        List.foldlRecOn (motive := fun g' : Gateway Msg => x ≤ g'.srv.counter) steps _ hle
          (fun _ h step _ => h.trans (counter_le_step loads upper _ step))
      rw [run_concat] at hx ⊢
      have hx' := mem_keys_step hcounter hx
      obtain ⟨hkept, -⟩ := ih hx' fun earlier hearlier => hheld earlier (hearlier.trans hprefix)
      exact ⟨hkept.apply (hheld steps hprefix) hx' hcounter step,
        hcounter.trans (counter_le_step loads upper _ step)⟩

/-- A client is sent no broadcast since then that it does not subscribe to. -/
theorem for_of_sent {g₀ : Gateway Msg} {before : List (GatewayStep Raw Msg)}
    (htasks : g₀.tasks = []) (hsends : g₀.sends = []) (hg : g = g₀.run loads upper before)
    (hheld : ∀ earlier, earlier <+: steps → (g.run loads upper earlier).held x = subscribed)
    {s : Send} (hs : s ∈ (g.run loads upper steps).sends) (hclient : s.client = x)
    (hlater : g.tasks.length ≤ s.task) (ht : (g.run loads upper steps).tasks[s.task]? = some task) :
    task.For subscribed := by
  have hrun : g.run loads upper steps = g₀.run loads upper (before ++ steps) := by
    rw [hg, Gateway.run, Gateway.run, ← List.foldl_append]
    rfl
  rw [hrun] at hs ht
  obtain ⟨task', ht', asked, hasked, ⟨early, hearly, hlt, -⟩, hwants⟩ :=
    offered_run g₀ htasks hsends (before ++ steps) s hs
  rw [ht, Option.some.injEq] at ht'
  subst ht'
  -- the client has asked since the quiet moment, for the task was not there before it
  obtain ⟨earlier, rfl, hearlier⟩ : ∃ earlier, asked = before ++ earlier ∧ earlier <+: steps := by
    rcases List.prefix_or_prefix_of_prefix hasked (List.prefix_append before steps) with
      hbefore | ⟨earlier, rfl⟩
    · have hle := length_le_run loads upper g₀ (hearly.trans hbefore)
      rw [← hg] at hle
      exact absurd (hlt.trans_le (hle.trans hlater)) (lt_irrefl _)
    · exact ⟨earlier, rfl, (List.prefix_append_right_inj before).mp hasked⟩
  have hnow := hheld earlier hearlier
  rw [hg, show (g₀.run loads upper before).run loads upper earlier =
    g₀.run loads upper (before ++ earlier) from (List.foldl_append ..).symm] at hnow
  rw [hclient, Gateway.Wants, hnow] at hwants
  exact hwants

/-! ## Exactly once -/

theorem filterMap_getElem?_range' {α : Type} (xs : List α) (n : ℕ) :
    (List.range' n (xs.length - n)).filterMap (fun t => xs[t]?) = xs.drop n := by
  induction hk : xs.length - n generalizing n with
  | zero => rw [List.drop_eq_nil_of_le (by omega)]; rfl
  | succ k ih =>
      have hn : n < xs.length := by omega
      rw [List.range'_succ, List.drop_eq_getElem_cons hn, ← ih (n + 1) (by omega),
        List.filterMap_cons_some (List.getElem?_eq_getElem hn)]

/-- The new sends to a client are one for each later task that the client subscribes to. -/
theorem tasks_perm {new : List Send} {n : ℕ} (hsent : (new.map Send.task).Nodup)
    (hmem : ∀ t, t ∈ new.map Send.task ↔
      n ≤ t ∧ ∃ task, g.tasks[t]? = some task ∧ task.For subscribed) :
    (new.filterMap fun s => g.tasks[s.task]?).Perm
      ((g.tasks.drop n).filter fun task => decide (task.For subscribed)) := by
  have hperm : (new.map Send.task).Perm ((List.range' n (g.tasks.length - n)).filter fun t =>
      (g.tasks[t]?).any fun task => decide (task.For subscribed)) := by
    refine (List.perm_ext_iff_of_nodup hsent ((List.nodup_range').filter _)).mpr fun t => ?_
    rw [hmem, List.mem_filter, List.mem_range'_1]
    constructor
    · rintro ⟨hn, task, ht, hfor⟩
      have hlt := (List.getElem?_eq_some_iff.mp ht).1
      refine ⟨⟨hn, by omega⟩, ?_⟩
      rw [ht]
      exact decide_eq_true hfor
    · rintro ⟨⟨hn, -⟩, hany⟩
      obtain ⟨task, ht, hfor⟩ := (Option.any_eq_true _ _).mp hany
      exact ⟨hn, task, ht, of_decide_eq_true hfor⟩
  have hmap := hperm.filterMap fun t => g.tasks[t]?
  rw [List.filterMap_map, List.filterMap_filter] at hmap
  rw [← filterMap_getElem?_range', List.filter_filterMap]
  refine hmap.trans (List.Perm.of_eq (List.filterMap_congr fun t _ => ?_))
  cases g.tasks[t]? <;> simp [Option.filter]

theorem received_perm {supported : Finset String} {startedAt : ℚ}
    {before : List (GatewayStep Raw Msg)}
    (hg : g = (Gateway.new supported startedAt).run loads upper before) (hquiet : g.Quiet)
    (hafter : after = g.run loads upper steps) (hover : after.Quiet)
    (hfirst : x ∈ keys GatewayClient.clientId g.srv.clients)
    (hlast : x ∈ keys GatewayClient.clientId after.srv.clients)
    (hheld : ∀ earlier, earlier <+: steps → (g.run loads upper earlier).held x = subscribed) :
    (g.receivedSince after x).Perm (((after.tasks.drop g.tasks.length).filter fun task =>
      decide (task.For subscribed)).map BroadcastTask.message) := by
  have hreg : Registered g.srv := by
    rw [hg]
    exact registered_gateway supported startedAt before
  have hdelivering : Delivering after := by
    rw [hafter, hg]
    exact delivering_run (delivering_run (delivering_new supported startedAt) before) steps
  have hbefore : Delivering g := by
    rw [hg]
    exact delivering_run (delivering_new supported startedAt) before
  obtain ⟨new, hsince⟩ := since_run loads upper hquiet steps
  rw [← hafter] at hsince
  have hkept : Listed after g.tasks.length x subscribed := by
    obtain ⟨c, hc, rfl⟩ := mem_keys.mp hfirst
    rw [hafter] at hlast ⊢
    refine (listed_run (fun t task hn ht _ => ?_) (hreg.id_le c hc) steps hlast hheld).1
    exact absurd (List.getElem?_eq_some_iff.mp ht).1 (not_lt.mpr hn)
  -- a subscribed task has sent to the client, and the `send` did not fail
  have hsent : ∀ t task, g.tasks.length ≤ t → after.tasks[t]? = some task →
      task.For subscribed → ⟨x, t, true⟩ ∈ new := by
    intro t task hn ht hfor
    have hfinished := hover task (List.mem_of_getElem? ht)
    have htracked : Tracked after t x task := by
      refine (hkept t task hn ht hfor).resolve_left ?_
      rw [hfinished]
      simp
    rcases htracked.ahead_or_sent with hahead | ⟨⟨_, _, ok⟩, hs, rfl, rfl, hfailed⟩
    · rw [hfinished] at hahead
      exact hahead.elim
    · have hok : ok = true := by
        by_contra hfalse
        rcases hfailed (Bool.eq_false_iff.mpr hfalse) with hdead | hoff
        · rw [hfinished] at hdead
          cases hdead
        · exact hoff hlast
      rw [hok] at hs
      rw [hsince.sends] at hs
      refine (List.mem_append.mp hs).resolve_left fun hold => ?_
      obtain ⟨task', ht', -⟩ := hbefore.not_ahead _ hold
      exact absurd (List.getElem?_eq_some_iff.mp ht').1 (not_lt.mpr hn)
  have hfor : ∀ s ∈ new, s.client = x → ∃ task, after.tasks[s.task]? = some task ∧
      task.For subscribed := by
    intro s hs hclient
    have hs' : s ∈ after.sends := by
      rw [hsince.sends]
      exact List.mem_append_right _ hs
    obtain ⟨task, ht, -⟩ := hdelivering.not_ahead s hs'
    refine ⟨task, ht, ?_⟩
    rw [hafter] at hs' ht
    exact for_of_sent rfl rfl hg hheld hs' hclient (hsince.later s hs) ht
  have hpairs : (new.map fun s => (s.client, s.task)).Nodup := by
    have hall := hdelivering.sent_once
    rw [hsince.sends, List.map_append] at hall
    exact (List.nodup_append.mp hall).2.1
  have hinj : ∀ s ∈ new, ∀ s' ∈ new, s.client = x → s'.client = x → s.task = s'.task → s = s' :=
    fun s hs s' hs' hclient hclient' htask =>
      List.inj_on_of_nodup_map hpairs hs hs' (Prod.ext (hclient.trans hclient'.symm) htask)
  have hok : ∀ s ∈ new, s.client = x → s.ok = true := by
    intro s hs hclient
    obtain ⟨task, ht, htaskFor⟩ := hfor s hs hclient
    have hsame := hinj s hs _ (hsent s.task task (hsince.later s hs) ht htaskFor) hclient rfl rfl
    rw [hsame]
  have hreceived : g.receivedSince after x =
      ((new.filter fun s => decide (s.client = x)).filterMap fun s =>
        after.tasks[s.task]?).map BroadcastTask.message := by
    rw [Gateway.receivedSince, hsince.sends, List.drop_left, List.filterMap_filter,
      List.map_filterMap]
    refine List.filterMap_congr fun s hs => ?_
    by_cases hclient : s.client = x
    · simp [hclient, hok s hs hclient]
    · simp [hclient]
  rw [hreceived]
  refine (tasks_perm ?_ fun t => ?_).map _
  · refine (hpairs.of_map.filter _).map_on fun s hs s' hs' htask => ?_
    rw [List.mem_filter, decide_eq_true_eq] at hs hs'
    exact hinj s hs.1 s' hs'.1 hs.2 hs'.2 htask
  · rw [List.mem_map]
    constructor
    · rintro ⟨s, hs, rfl⟩
      rw [List.mem_filter, decide_eq_true_eq] at hs
      exact ⟨hsince.later s hs.1, hfor s hs.1 hs.2⟩
    · rintro ⟨hn, task, ht, htaskFor⟩
      exact ⟨_, List.mem_filter.mpr ⟨hsent t task hn ht htaskFor, decide_eq_true rfl⟩, rfl⟩

/-! ## The router before the gateway -/

/-- A call of the router on the gateway. -/
inductive GatewayCall where
  | setup (signal : ConsensusSignal)
  | notice (event : SignalEvent) (payload : SignalDict)
  deriving DecidableEq, Repr

/-- The calls between two states of the router. -/
def Router.callsSince (R R' : Router) : List GatewayCall :=
  (R'.broadcasts.drop R.broadcasts.length).map GatewayCall.setup ++
    (R'.events.drop R.events.length).map fun e => GatewayCall.notice e.1 e.2

/-- `broadcast` for a setup, `broadcast_event` for everything else. -/
def GatewayCall.make : GatewayCall → GatewayStep Raw GatewayCall
  | .setup signal => .broadcast signal.signal.symbol (.setup signal)
  | .notice event payload => .broadcastEvent (.notice event payload)

def GatewayCall.symbol (upper : String → String) : GatewayCall → String
  | .setup signal => upper signal.signal.symbol
  | .notice _ _ => ""

/-- A call that a client with these subscriptions is sent. -/
def GatewayCall.For (upper : String → String) (subscribed : Finset String) (call : GatewayCall) :
    Prop :=
  call.symbol upper = "" ∨ call.symbol upper ∈ subscribed

instance (upper : String → String) (subscribed : Finset String) (call : GatewayCall) :
    Decidable (call.For upper subscribed) :=
  inferInstanceAs (Decidable (_ ∨ _))

structure SignalManager where
  router : Router
  gateway : Gateway GatewayCall

inductive ManagerStep (Raw : Type) where
  | route (e : RouterEvent)
  | client (event : GatewayEvent Raw)
  | begin (t : ℕ)
  | sent (t : ℕ) (ok : Bool)

def ManagerStep.router (R : Router) : ManagerStep Raw → Router
  | .route e => R.apply e
  | _ => R

def ManagerStep.onGateway (R : Router) : ManagerStep Raw → List (GatewayStep Raw GatewayCall)
  | .route e => (R.callsSince (R.apply e)).map GatewayCall.make
  | .client event => [.client event]
  | .begin t => [.begin t]
  | .sent t ok => [.sent t ok]

def SignalManager.apply (loads : Raw → Loaded) (upper : String → String) (m : SignalManager)
    (step : ManagerStep Raw) : SignalManager where
  router := step.router m.router
  gateway := m.gateway.run loads upper (step.onGateway m.router)

def SignalManager.run (loads : Raw → Loaded) (upper : String → String) (m : SignalManager)
    (steps : List (ManagerStep Raw)) : SignalManager :=
  steps.foldl (SignalManager.apply loads upper) m

def SignalManager.new (windowMs : ℤ) (supported : Finset String) (startedAt : ℚ) :
    SignalManager :=
  { router := { engine := .new windowMs }, gateway := .new supported startedAt }

/-- The steps of the gateway in a run of the manager. -/
def onGateway (R : Router) : List (ManagerStep Raw) → List (GatewayStep Raw GatewayCall)
  | [] => []
  | step :: steps => step.onGateway R ++ onGateway (step.router R) steps

variable {m : SignalManager} {R R' R'' : Router} {call : GatewayCall} {calls : List GatewayCall}

theorem run_gateway (m : SignalManager) (steps : List (ManagerStep Raw)) :
    (m.run loads upper steps).gateway = m.gateway.run loads upper (onGateway m.router steps) := by
  induction steps generalizing m with
  | nil => rfl
  | cons step steps ih =>
      rw [SignalManager.run, List.foldl_cons, ← SignalManager.run, ih, onGateway, Gateway.run,
        Gateway.run, List.foldl_append]
      rfl

/-- A call leaves the client objects alone. -/
theorem held_calls (g : Gateway GatewayCall) {early : List (GatewayStep Raw GatewayCall)}
    (h : early <+: calls.map GatewayCall.make) : (g.run loads upper early).held = g.held := by
  obtain ⟨early, -, rfl⟩ := List.prefix_map_iff.mp h
  clear h
  induction early generalizing g with
  | nil => rfl
  | cons call early ih =>
      rw [List.map_cons, Gateway.run, List.foldl_cons, ← Gateway.run, ih]
      cases call <;> rfl

/-- What a client object holds between two steps of the gateway, it holds between two steps of
    the manager. -/
theorem held_between (loads : Raw → Loaded) (upper : String → String) (m : SignalManager)
    (steps : List (ManagerStep Raw))
    {early : List (GatewayStep Raw GatewayCall)} (h : early <+: onGateway m.router steps) :
    ∃ earlier, earlier <+: steps ∧
      (m.gateway.run loads upper early).held = (m.run loads upper earlier).gateway.held := by
  induction steps generalizing m early with
  | nil =>
      rw [onGateway, List.prefix_nil] at h
      rw [h]
      exact ⟨[], List.nil_prefix, rfl⟩
  | cons step steps ih =>
      rw [onGateway] at h
      rcases List.prefix_or_prefix_of_prefix h (List.prefix_append _ _) with hfirst | ⟨rest, rfl⟩
      · cases step with
        | route e => exact ⟨[], List.nil_prefix, held_calls _ hfirst⟩
        | client event | begin t | sent t ok =>
            rcases List.prefix_cons_iff.mp hfirst with rfl | ⟨rest, rfl, hrest⟩
            · exact ⟨[], List.nil_prefix, rfl⟩
            · rw [List.prefix_nil.mp hrest]
              exact ⟨[_], List.prefix_append [_] steps, rfl⟩
      · obtain ⟨earlier, hearlier, hheld⟩ :=
          ih (m.apply loads upper step) ((List.prefix_append_right_inj _).mp h)
        refine ⟨step :: earlier, (List.prefix_cons_inj step).mpr hearlier, ?_⟩
        rw [Gateway.run, List.foldl_append]
        exact hheld

/-! ## The calls and their tasks -/

/-- What a task says of its call. -/
def BroadcastTask.label (task : BroadcastTask Msg) : Msg × String := (task.message, task.symbol)

theorem labels_goOn {todo dead : List ℕ} (ht : g.tasks[t]? = some task) :
    (g.goOn t task todo dead).tasks.map BroadcastTask.label =
      g.tasks.map BroadcastTask.label := by
  obtain ⟨hlt, rfl⟩ := List.getElem?_eq_some_iff.mp ht
  rw [Gateway.goOn]
  dsimp only
  rw [List.map_set]
  refine List.ext_getElem (by simp) fun i _ hi => ?_
  rw [List.getElem_set]
  split
  · next heq =>
      subst heq
      rw [List.getElem_map]
      rfl
  · rfl

theorem labels_begin (g : Gateway Msg) (t : ℕ) :
    (g.begin t).tasks.map BroadcastTask.label = g.tasks.map BroadcastTask.label := by
  rcases begin_cases g t with heq | ⟨task, ht, -, heq⟩ <;> rw [heq]
  exact labels_goOn ht

theorem labels_sent (g : Gateway Msg) (t : ℕ) (ok : Bool) :
    (g.sent t ok).tasks.map BroadcastTask.label = g.tasks.map BroadcastTask.label := by
  rcases sent_cases g t ok with heq | ⟨task, id, todo, dead, ht, -, heq⟩ <;> rw [heq]
  exact labels_goOn ht

theorem labels_calls (g : Gateway GatewayCall) (calls : List GatewayCall) :
    (g.run loads upper (calls.map GatewayCall.make)).tasks.map BroadcastTask.label =
      g.tasks.map BroadcastTask.label ++ calls.map fun call => (call, call.symbol upper) := by
  induction calls generalizing g with
  | nil => exact (List.append_nil _).symm
  | cons call calls ih =>
      rw [List.map_cons, Gateway.run, List.foldl_cons, ← Gateway.run, ih, List.map_cons,
        List.append_cons]
      cases call <;> simp [Gateway.apply, GatewayCall.make, BroadcastTask.label, broadcastTask,
        broadcastEventTask, GatewayCall.symbol]

theorem prefix_apply (R : Router) (e : RouterEvent) :
    R.broadcasts <+: (R.apply e).broadcasts ∧ R.events <+: (R.apply e).events := by
  cases e with
  | drain now => exact ⟨List.prefix_append _ _, List.prefix_refl _⟩
  | onSignal event payload broker now =>
      rw [Router.apply, Router.onSignal]
      split
      · exact ⟨List.prefix_append _ _, List.prefix_refl _⟩
      · exact ⟨List.prefix_refl _, List.prefix_append _ _⟩

theorem callsSince_eq {b : List ConsensusSignal} {n : List (SignalEvent × SignalDict)}
    (hb : R'.broadcasts = R.broadcasts ++ b) (hn : R'.events = R.events ++ n) :
    R.callsSince R' =
      b.map GatewayCall.setup ++ n.map fun e => GatewayCall.notice e.1 e.2 := by
  rw [Router.callsSince, hb, hn, List.drop_left, List.drop_left]

theorem callsSince_perm (hb : R.broadcasts <+: R'.broadcasts) (he : R.events <+: R'.events)
    (hb' : R'.broadcasts <+: R''.broadcasts) (he' : R'.events <+: R''.events) :
    (R.callsSince R' ++ R'.callsSince R'').Perm (R.callsSince R'') := by
  obtain ⟨b, hb⟩ := hb
  obtain ⟨n, hn⟩ := he
  obtain ⟨b', hb'⟩ := hb'
  obtain ⟨n', hn'⟩ := he'
  have hb'' : R''.broadcasts = R.broadcasts ++ (b ++ b') := by
    rw [← hb', ← hb, List.append_assoc]
  have hn'' : R''.events = R.events ++ (n ++ n') := by
    rw [← hn', ← hn, List.append_assoc]
  rw [callsSince_eq hb.symm hn.symm, callsSince_eq hb'.symm hn'.symm, callsSince_eq hb'' hn'',
    List.map_append, List.map_append, List.append_assoc, List.append_assoc]
  refine List.Perm.append_left _ ?_
  rw [← List.append_assoc, ← List.append_assoc]
  exact List.Perm.append_right _ List.perm_append_comm

theorem callsSince_self (R : Router) : R.callsSince R = [] := by
  rw [Router.callsSince, List.drop_length, List.drop_length]
  rfl

/-- In a run of the manager each new task is a call of the router, and each call a task. -/
theorem labels_run (loads : Raw → Loaded) (upper : String → String) (m : SignalManager)
    (steps : List (ManagerStep Raw)) :
    (m.router.broadcasts <+: (m.run loads upper steps).router.broadcasts ∧
      m.router.events <+: (m.run loads upper steps).router.events) ∧
    ∃ calls : List GatewayCall,
      (m.run loads upper steps).gateway.tasks.map BroadcastTask.label =
        m.gateway.tasks.map BroadcastTask.label ++
          calls.map (fun call => (call, call.symbol upper)) ∧
      calls.Perm (m.router.callsSince (m.run loads upper steps).router) := by
  induction steps using List.reverseRecOn with
  | nil => exact ⟨⟨List.prefix_refl _, List.prefix_refl _⟩, [], by simp [SignalManager.run],
      by rw [SignalManager.run, List.foldl_nil, callsSince_self]⟩
  | append_singleton steps step ih =>
      obtain ⟨⟨hb, he⟩, calls, hlabels, hcalls⟩ := ih
      rw [show m.run loads upper (steps ++ [step]) =
        (m.run loads upper steps).apply loads upper step from List.foldl_append ..]
      generalize m.run loads upper steps = m' at hb he hlabels hcalls ⊢
      cases step with
      | route e =>
          obtain ⟨hb', he'⟩ := prefix_apply m'.router e
          refine ⟨⟨hb.trans hb', he.trans he'⟩,
            calls ++ m'.router.callsSince (m'.router.apply e), ?_, ?_⟩
          · refine (labels_calls _ _).trans ?_
            rw [hlabels, List.map_append, List.append_assoc]
          · exact (hcalls.append_right _).trans (callsSince_perm hb he hb' he')
      | client event => exact ⟨⟨hb, he⟩, calls, hlabels, hcalls⟩
      | begin t => exact ⟨⟨hb, he⟩, calls, (labels_begin m'.gateway t).trans hlabels, hcalls⟩
      | sent t ok => exact ⟨⟨hb, he⟩, calls, (labels_sent m'.gateway t ok).trans hlabels, hcalls⟩

/-- **Relayed once**: between two quiet moments a client whose subscriptions do not change, and
    that is still there at the end, has been sent every call of the router that it subscribes to,
    setups and other events, each exactly once, and nothing else. -/
theorem relayed_once {windowMs : ℤ} {supported : Finset String} {startedAt : ℚ}
    {before steps : List (ManagerStep Raw)} {m after : SignalManager}
    (hm : m = (SignalManager.new windowMs supported startedAt).run loads upper before)
    (hquiet : m.gateway.Quiet) (hafter : after = m.run loads upper steps)
    (hover : after.gateway.Quiet)
    (hfirst : x ∈ keys GatewayClient.clientId m.gateway.srv.clients)
    (hlast : x ∈ keys GatewayClient.clientId after.gateway.srv.clients)
    (hheld : ∀ earlier, earlier <+: steps →
      (m.run loads upper earlier).gateway.held x = subscribed) :
    (m.gateway.receivedSince after.gateway x).Perm
      ((m.router.callsSince after.router).filter fun call =>
        decide (call.For upper subscribed)) := by
  have hg : m.gateway = (Gateway.new supported startedAt).run loads upper
      (onGateway { engine := .new windowMs } before) := by
    rw [hm, run_gateway]
    rfl
  have hrun : after.gateway = m.gateway.run loads upper (onGateway m.router steps) := by
    rw [hafter, run_gateway]
  have hbetween : ∀ early, early <+: onGateway m.router steps →
      (m.gateway.run loads upper early).held x = subscribed := by
    intro early hearly
    obtain ⟨earlier, hearlier, heq⟩ := held_between loads upper m steps hearly
    rw [heq]
    exact hheld earlier hearlier
  refine (received_perm hg hquiet hrun hover hfirst hlast hbetween).trans ?_
  obtain ⟨-, calls, hlabels, hcalls⟩ := labels_run loads upper m steps
  rw [← hafter] at hlabels hcalls
  have hnew : (after.gateway.tasks.drop m.gateway.tasks.length).map BroadcastTask.label =
      calls.map fun call => (call, call.symbol upper) := by
    rw [List.map_drop, hlabels, ← List.length_map (f := BroadcastTask.label), List.drop_left]
  have hfilter : (((after.gateway.tasks.drop m.gateway.tasks.length).filter fun task =>
      decide (task.For subscribed)).map BroadcastTask.message) =
        calls.filter fun call => decide (call.For upper subscribed) := by
    have hboth := congrArg (fun labels => (labels.filter fun label =>
      decide (label.2 = "" ∨ label.2 ∈ subscribed)).map Prod.fst) hnew
    rw [List.filter_map, List.filter_map, List.map_map, List.map_map] at hboth
    exact hboth.trans (List.map_id _)
  rw [hfilter]
  exact hcalls.filter _

/-- A client has subscribed to gold. -/
def goldManager : SignalManager :=
  (SignalManager.new 60000 {"XAUUSD"} 0).run sampleLoads (fun s => s)
    [.client .connected, .client (.message 1 subscription ⟨0, []⟩)]

/-- One broker's setup goes out when its window closes, and its first target at once. -/
def goldRelay : List (ManagerStep String) :=
  [.route (.onSignal .signalTriggered sampleDict "a" 0),
    .route (.onSignal .signalTp1Hit sampleDict "a" 30), .begin 0, .route (.drain 61), .begin 1,
    .sent 1 true, .sent 0 true]

theorem gold_relayed :
    (goldManager.gateway.receivedSince (goldManager.run sampleLoads (fun s => s)
      goldRelay).gateway 1).Perm ((goldManager.router.callsSince (goldManager.run sampleLoads
        (fun s => s) goldRelay).router).filter fun call =>
          decide (call.For (fun s => s) {"XAUUSD"})) := by
  have hheld : ∀ earlier, earlier <+: goldRelay →
      (goldManager.run sampleLoads (fun s => s) earlier).gateway.held 1 = {"XAUUSD"} := by
    intro earlier hearlier
    have hall : ∀ n ≤ 7, (goldManager.run sampleLoads (fun s => s)
        (goldRelay.take n)).gateway.held 1 = {"XAUUSD"} := by decide +kernel
    rw [List.prefix_iff_eq_take.mp hearlier]
    exact hall _ hearlier.length_le
  have hm : goldManager = (SignalManager.new 60000 {"XAUUSD"} 0).run sampleLoads (fun s => s)
      [.client .connected, .client (.message 1 subscription ⟨0, []⟩)] := rfl
  exact relayed_once hm (by decide +kernel) rfl (by decide +kernel) (by decide +kernel)
    (by decide +kernel) hheld

end SignalEngine
