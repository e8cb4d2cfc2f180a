/-
  Client messages: what `server/gateway_server.py` does with the messages of its clients.

  Model. A message is anything that `json.loads` reads: a JSON value, an error that
  `_on_message` catches (`ValueError`, with it broken JSON and broken UTF-8), or the
  `RecursionError` of a value nested too deep, which it does not. Sends succeed; a failing one
  ends the connection like the client's leave, the event `closed`. A client is named by the
  number of its id. The token check and log lines are left out.

  Proved: `client_messages_iff`: which messages are handled as they should be, and that a
  client's connection lasts as long as its messages are harmless.
-/
import SignalEngine.Config.AppSettings
import SignalEngine.Domain.Entities

namespace SignalEngine

open Lib

/-! ## Messages -/

/-- A dict holds each key once. -/
inductive JsonValue where
  | null
  | bool (b : Bool)
  | num (q : ℚ)
  | str (text : String)
  | arr (items : List JsonValue)
  | obj (fields : List (String × JsonValue))

/-- What `json.loads` makes of a message. -/
inductive Loaded where
  | value (v : JsonValue)
  | valueError
  | recursionError

inductive MessageError where
  | recursionError
  /-- `msg.get` of a root that is no object -/
  | attributeError
  /-- a loop over `symbols` that are not iterable -/
  | typeError
  deriving DecidableEq, Repr

def JsonValue.text? : JsonValue → Option String
  | .str text => some text
  | _ => none

/-- The strings that `for s in v` comes to: the items of a list, the characters of a string, the
    keys of a dict. -/
def JsonValue.strings : JsonValue → Except MessageError (List String)
  | .arr items => .ok (items.filterMap JsonValue.text?)
  | .str text => .ok (text.toList.map String.singleton)
  | .obj fields => .ok (fields.map Prod.fst)
  | .null | .bool _ | .num _ => .error .typeError

/-- `msg.get("action", "")`, where it is a string. -/
def actionOf (fields : PyDict JsonValue) : Option String :=
  ((fields.get "action").getD (.str "")).text?

/-- `[s.upper() for s in msg.get("symbols", []) if isinstance(s, str)]` -/
def symbolsOf (upper : String → String) (fields : PyDict JsonValue) :
    Except MessageError (List String) :=
  ((fields.get "symbols").getD (.arr [])).strings.map (List.map upper)

/-! ## Metrics -/

structure EngineMetrics where
  rawCounters : PyDict ℤ := []
  rawGauges : PyDict ℚ := []

/-- What the stats provider tells about a broker. -/
structure SourceStats where
  connected : Bool
  connectedSince : Option ℚ
  signalsReceived : ℤ
  latestMetrics : Option EngineMetrics
  scheduler : List (PyDict JsonValue)

structure Metrics where
  ts : ℤ
  uptimeMs : ℤ
  uptimeS : ℤ
  signalsDelivered : ℤ
  signalsReceived : ℤ
  gatewayClients : ℕ
  engineCount : ℕ
  engineOnline : ℕ
  rawCounters : PyDict ℤ
  rawGauges : PyDict ℚ
  counters : PyDict ℤ
  gauges : PyDict ℚ
  scheduler : List (PyDict JsonValue)
  bySource : List (String × SourceStats)

/-- The metrics read off one counter each. -/
def counterMetrics : List (String × String) :=
  [("scanner_ticks", "scanner.ticks"), ("scanner_tick_errors", "scanner.tick_errors"),
    ("analysis_started", "scanner.analysis_started"), ("signals_pending", "signals.pending"),
    ("signals_emitted", "signals.emitted"), ("signals_triggered", "signals.triggered"),
    ("signals_stale_skipped", "signals.stale_skipped"),
    ("signals_dedup_blocked", "signals.dedup_blocked"),
    ("signals_decision_blocked", "signals.decision_blocked"),
    ("signals_no_rejection", "signals.no_rejection"), ("mt5_calls", "mt5.calls"),
    ("mt5_errors", "mt5.errors")]

/-- The metrics read off one gauge each. -/
def gaugeMetrics : List (String × String) :=
  [("last_emit_lag_ms", "latency.last_signal_emit_lag_ms"),
    ("last_scan_lag_ms", "scanner.scan_lag_ms"), ("last_analysis_ms", "scanner.analysis_ms")]

/-- `agg_counters`. -/
def addCounters (agg : PyDict ℤ) (stats : SourceStats) : PyDict ℤ :=
  (stats.latestMetrics.getD {}).rawCounters.foldl
    (fun agg kv => agg.set kv.1 ((agg.get kv.1).getD 0 + kv.2)) agg

/-- `agg_gauges`: the largest value, and no less than zero. -/
def addGauges (agg : PyDict ℚ) (stats : SourceStats) : PyDict ℚ :=
  (stats.latestMetrics.getD {}).rawGauges.foldl
    (fun agg kv => agg.set kv.1 (max ((agg.get kv.1).getD 0) kv.2)) agg

/-! ## Server -/

structure GatewayClient where
  clientId : ℕ
  symbols : Finset String := ∅
  metricsSub : Bool := false

structure GatewayServer where
  supported : Finset String
  clients : List GatewayClient := []
  counter : ℕ := 0
  startedAt : ℚ
  signalsDelivered : ℤ := 0

/-- What a message makes the server read from outside: the clock in seconds, and the stats. -/
structure MetricsInputs where
  time : ℚ
  bySource : List (String × SourceStats)

/-- `_build_metrics`. -/
def GatewayServer.buildMetrics (srv : GatewayServer) (io : MetricsInputs) : Metrics :=
  let uptimeMs := pyInt ((io.time - srv.startedAt) * 1000)
  let counters := io.bySource.foldl (fun agg source => addCounters agg source.2) []
  let gauges := io.bySource.foldl (fun agg source => addGauges agg source.2) []
  { ts := pyInt (io.time * 1000)
    uptimeMs := uptimeMs
    uptimeS := uptimeMs / 1000
    signalsDelivered := srv.signalsDelivered
    signalsReceived := (io.bySource.map (fun source => source.2.signalsReceived)).sum
    gatewayClients := srv.clients.length
    engineCount := io.bySource.length
    engineOnline := io.bySource.countP (fun source => source.2.connected)
    rawCounters := counters
    rawGauges := gauges
    counters := counterMetrics.map (fun m => (m.1, (counters.get m.2).getD 0))
    gauges := gaugeMetrics.map (fun m => (m.1, (gauges.get m.2).getD 0))
    scheduler := io.bySource.flatMap (fun source =>
      source.2.scheduler.map (fun row => row.set "broker" (.str source.1)))
    bySource := io.bySource }

inductive Reply where
  | subscribed (symbols : Finset String) (newSymbols : List String)
  | unsubscribed (symbols : Finset String)
  | metricsSnapshot (metrics : Metrics)
  | metricsSubscribed (intervalMs : ℤ)

/-- The branches of `_on_message`. -/
def GatewayServer.act (srv : GatewayServer) (io : MetricsInputs) (client : GatewayClient)
    (action : Option String) (symbols : List String) : GatewayClient × List Reply :=
  if action = some "subscribe" then
    let valid := symbols.filter (fun s => decide (s ∈ srv.supported))
    let client := { client with symbols := client.symbols ∪ valid.toFinset }
    (client, [.subscribed client.symbols valid])
  else if action = some "unsubscribe" then
    let client := { client with symbols := client.symbols \ symbols.toFinset }
    (client, [.unsubscribed client.symbols])
  else if action = some "subscribe_metrics" then
    ({ client with metricsSub := true },
      [.metricsSnapshot (srv.buildMetrics io), .metricsSubscribed 5000])
  else if action = some "unsubscribe_metrics" then ({ client with metricsSub := false }, [])
  else (client, [])

/-- `_on_message`. -/
def GatewayServer.onMessage (upper : String → String) (srv : GatewayServer) (io : MetricsInputs)
    (client : GatewayClient) : Loaded → Except MessageError (GatewayClient × List Reply)
  | .valueError => .ok (client, [])
  | .recursionError => .error .recursionError
  | .value (.obj fields) =>
      match symbolsOf upper fields with
      | .error e => .error e
      | .ok symbols => .ok (srv.act io client (actionOf fields) symbols)
  | .value _ => .error .attributeError

/-- `_handle`, and what else takes a client off the list. -/
inductive GatewayEvent (Raw : Type) where
  | connected
  | message (clientId : ℕ) (raw : Raw) (io : MetricsInputs)
  | closed (clientId : ℕ)

/-- Any exception of `_on_message` ends `_handle`, which pops the client. -/
def GatewayServer.apply {Raw : Type} (loads : Raw → Loaded) (upper : String → String)
    (srv : GatewayServer) : GatewayEvent Raw → GatewayServer
  | .connected =>
      { srv with
        counter := srv.counter + 1
        clients := put GatewayClient.clientId { clientId := srv.counter + 1 } srv.clients }
  | .message clientId raw io =>
      match lookup GatewayClient.clientId clientId srv.clients with
      | none => srv
      | some client =>
          match srv.onMessage upper io client (loads raw) with
          | .error _ => { srv with clients := erase GatewayClient.clientId clientId srv.clients }
          | .ok (client, _) =>
              { srv with clients := put GatewayClient.clientId client srv.clients }
  | .closed clientId => { srv with clients := erase GatewayClient.clientId clientId srv.clients }

def GatewayServer.run {Raw : Type} (loads : Raw → Loaded) (upper : String → String)
    (srv : GatewayServer) (events : List (GatewayEvent Raw)) : GatewayServer :=
  events.foldl (GatewayServer.apply loads upper) srv

/-! ## Sound messages -/

/-- An object with a list of symbols. -/
def Loaded.HasSymbolList : Loaded → Prop
  | .value (.obj fields) => ∃ items, PyDict.get fields "symbols" = some (.arr items)
  | _ => False

/-- What the handling of a message should be. -/
def MessageSound (upper : String → String) (srv : GatewayServer) (io : MetricsInputs)
    (client : GatewayClient) (loaded : Loaded) : Prop :=
  ∃ client' replies, srv.onMessage upper io client loaded = .ok (client', replies) ∧
    client'.symbols ⊆ srv.supported ∧
    (¬ loaded.HasSymbolList → client'.symbols = client.symbols)

def JsonValue.Iterable : JsonValue → Prop
  | .arr _ | .str _ | .obj _ => True
  | .null | .bool _ | .num _ => False

/-- It is no JSON, or an object whose symbols, if any, can be iterated. -/
def Loaded.Harmless : Loaded → Prop
  | .valueError => True
  | .recursionError => False
  | .value (.obj fields) => ∀ v ∈ PyDict.get fields "symbols", v.Iterable
  | .value _ => False

/-- The names change nothing of the client's subscriptions. -/
def NoEffect (srv : GatewayServer) (client : GatewayClient) (action : Option String)
    (symbols : List String) : Prop :=
  (action = some "subscribe" → ∀ s ∈ symbols, s ∈ srv.supported → s ∈ client.symbols) ∧
    (action = some "unsubscribe" → ∀ s ∈ symbols, s ∉ client.symbols)

/-- The strings a string or a dict holds in place of a list of symbols. -/
def JsonValue.stray : JsonValue → List String
  | .str text => text.toList.map String.singleton
  | .obj fields => fields.map Prod.fst
  | .null | .bool _ | .num _ | .arr _ => []

/-- If a string or a dict stands in place of the list, what it holds changes nothing. -/
def Loaded.Inert (upper : String → String) (srv : GatewayServer) (client : GatewayClient) :
    Loaded → Prop
  | .value (.obj fields) => ∀ v ∈ PyDict.get fields "symbols",
      NoEffect srv client (actionOf fields) (v.stray.map upper)
  | _ => True

variable {Raw : Type} {loads : Raw → Loaded} {upper : String → String} {srv : GatewayServer}
  {io : MetricsInputs} {client : GatewayClient} {action : Option String} {symbols : List String}
  {fields : PyDict JsonValue} {loaded : Loaded} {event : GatewayEvent Raw} {id : ℕ}

/-! ## One message -/

theorem strings_isOk_iff (v : JsonValue) : (∃ names, v.strings = .ok names) ↔ v.Iterable := by
  cases v with
  | arr items => exact iff_of_true ⟨_, rfl⟩ trivial
  | str text => exact iff_of_true ⟨_, rfl⟩ trivial
  | obj fields => exact iff_of_true ⟨_, rfl⟩ trivial
  | null | bool _ | num _ => exact iff_of_false (fun ⟨_, h⟩ => by cases h) not_false

theorem act_symbols_subset (h : client.symbols ⊆ srv.supported) :
    (srv.act io client action symbols).1.symbols ⊆ srv.supported := by
  unfold GatewayServer.act
  split
  · refine Finset.union_subset h fun s hs => ?_
    rw [List.mem_toFinset, List.mem_filter] at hs
    exact of_decide_eq_true hs.2
  · split
    · exact Finset.sdiff_subset.trans h
    · split
      · exact h
      · split <;> exact h

theorem act_symbols_eq_iff (io : MetricsInputs) :
    (srv.act io client action symbols).1.symbols = client.symbols ↔
      NoEffect srv client action symbols := by
  unfold GatewayServer.act NoEffect
  by_cases hsub : action = some "subscribe"
  · have hne : action ≠ some "unsubscribe" := by rw [hsub]; decide
    simp only [hsub, if_true, Finset.union_eq_left, Finset.subset_iff, List.mem_toFinset,
      List.mem_filter, decide_eq_true_eq, and_imp, forall_const]
    exact ⟨fun h => ⟨h, fun heq => absurd (hsub.trans heq) hne⟩, And.left⟩
  · rw [if_neg hsub]
    by_cases hunsub : action = some "unsubscribe"
    · rw [if_pos hunsub]
      dsimp only
      rw [Finset.sdiff_eq_self_iff_disjoint, Finset.disjoint_left]
      simp only [List.mem_toFinset]
      exact ⟨fun h => ⟨fun heq => absurd heq hsub, fun _ s hs hmem => h hmem hs⟩,
        fun h s hmem hs => h.2 hunsub s hs hmem⟩
    · have heffect : NoEffect srv client action symbols :=
        ⟨fun heq => absurd heq hsub, fun heq => absurd heq hunsub⟩
      rw [if_neg hunsub]
      refine iff_of_true ?_ heffect
      split
      · rfl
      · split <;> rfl

theorem onMessage_obj (upper : String → String) (srv : GatewayServer) (io : MetricsInputs)
    (client : GatewayClient) (fields : PyDict JsonValue) :
    srv.onMessage upper io client (.value (.obj fields)) =
      (symbolsOf upper fields).map (srv.act io client (actionOf fields)) := by
  rw [GatewayServer.onMessage]
  cases symbolsOf upper fields <;> rfl

theorem symbolsOf_isOk_iff (upper : String → String) (fields : PyDict JsonValue) :
    (∃ names, symbolsOf upper fields = .ok names) ↔
      ∀ v ∈ PyDict.get fields "symbols", v.Iterable := by
  unfold symbolsOf
  cases PyDict.get fields "symbols" with
  | none => exact iff_of_true ⟨_, rfl⟩ (fun v hv => by cases hv)
  | some v =>
      rw [Option.getD_some]
      have hv := strings_isOk_iff v
      cases hstrings : v.strings with
      | error e =>
          rw [hstrings] at hv
          refine iff_of_false (fun ⟨_, h⟩ => by cases h) (fun h => ?_)
          obtain ⟨_, hok⟩ := hv.mpr (h v rfl)
          cases hok
      | ok names =>
          rw [hstrings] at hv
          refine iff_of_true ⟨_, rfl⟩ (fun w hw => ?_)
          cases hw
          exact hv.mp ⟨_, rfl⟩

/-- A harmless message is handled, and no other is. -/
theorem onMessage_isOk_iff (upper : String → String) (srv : GatewayServer) (io : MetricsInputs)
    (client : GatewayClient) (loaded : Loaded) :
    (∃ r, srv.onMessage upper io client loaded = .ok r) ↔ loaded.Harmless := by
  cases loaded with
  | valueError => exact iff_of_true ⟨_, rfl⟩ trivial
  | recursionError => exact iff_of_false (fun ⟨_, h⟩ => by cases h) not_false
  | value v =>
      cases v with
      | obj fields =>
          rw [Loaded.Harmless, ← symbolsOf_isOk_iff upper, onMessage_obj]
          cases symbolsOf upper fields with
          | error e => exact iff_of_false (fun ⟨_, h⟩ => by cases h) (fun ⟨_, h⟩ => by cases h)
          | ok names => exact iff_of_true ⟨_, rfl⟩ ⟨_, rfl⟩
      | null | bool _ | num _ | str _ | arr _ =>
          exact iff_of_false (fun ⟨_, h⟩ => by cases h) not_false

/-- What a message that raises nothing does. -/
theorem onMessage_cases {r : GatewayClient × List Reply}
    (hok : srv.onMessage upper io client loaded = .ok r) :
    loaded = .valueError ∧ r = (client, []) ∨
      ∃ fields names, loaded = .value (.obj fields) ∧ symbolsOf upper fields = .ok names ∧
        r = srv.act io client (actionOf fields) names := by
  cases loaded with
  | valueError =>
      cases hok
      exact Or.inl ⟨rfl, rfl⟩
  | recursionError => cases hok
  | value v =>
      cases v with
      | obj fields =>
          rw [onMessage_obj] at hok
          cases hnames : symbolsOf upper fields with
          | error e =>
              rw [hnames] at hok
              cases hok
          | ok names =>
              rw [hnames] at hok
              cases hok
              exact Or.inr ⟨fields, names, rfl, hnames, rfl⟩
      | null | bool _ | num _ | str _ | arr _ => cases hok

theorem act_clientId : (srv.act io client action symbols).1.clientId = client.clientId := by
  unfold GatewayServer.act
  split
  · rfl
  · split
    · rfl
    · split
      · rfl
      · split <;> rfl

theorem onMessage_clientId {r : GatewayClient × List Reply}
    (hok : srv.onMessage upper io client loaded = .ok r) : r.1.clientId = client.clientId := by
  rcases onMessage_cases hok with ⟨-, rfl⟩ | ⟨fields, names, -, -, rfl⟩
  · rfl
  · exact act_clientId

theorem onMessage_subset (h : client.symbols ⊆ srv.supported) {r : GatewayClient × List Reply}
    (hok : srv.onMessage upper io client loaded = .ok r) : r.1.symbols ⊆ srv.supported := by
  rcases onMessage_cases hok with ⟨-, rfl⟩ | ⟨fields, names, -, -, rfl⟩
  · exact h
  · exact act_symbols_subset h

theorem noEffect_nil (srv : GatewayServer) (client : GatewayClient) (action : Option String) :
    NoEffect srv client action [] :=
  ⟨fun _ _ hs => absurd hs List.not_mem_nil, fun _ _ hs => absurd hs List.not_mem_nil⟩

/-- Without a list of symbols, an object leaves the subscriptions alone if and only if it is
    inert. -/
theorem inert_iff {names : List String} (hnames : symbolsOf upper fields = .ok names) :
    (¬ (Loaded.value (.obj fields)).HasSymbolList → NoEffect srv client (actionOf fields) names) ↔
      (Loaded.value (.obj fields)).Inert upper srv client := by
  unfold symbolsOf at hnames
  unfold Loaded.HasSymbolList Loaded.Inert
  cases hget : PyDict.get fields "symbols" with
  | none =>
      rw [hget] at hnames
      cases hnames
      exact iff_of_true (fun _ => noEffect_nil _ _ _) (fun v hv => by rw [hget] at hv; cases hv)
  | some v =>
      rw [hget] at hnames
      simp only [hget, Option.mem_def, Option.some.injEq, forall_eq']
      cases v with
      | arr items => exact iff_of_true (fun h => absurd ⟨items, rfl⟩ h) (noEffect_nil _ _ _)
      | str text | obj names =>
          cases hnames
          exact ⟨fun h => h (fun ⟨_, heq⟩ => by cases heq), fun h _ => h⟩
      | null | bool _ | num _ => cases hnames

/-- A message is handled as it should be if and only if it is harmless and inert. -/
theorem messageSound_iff (h : client.symbols ⊆ srv.supported) :
    MessageSound upper srv io client loaded ↔ loaded.Harmless ∧ loaded.Inert upper srv client := by
  rw [← onMessage_isOk_iff upper srv io client loaded]
  constructor
  · rintro ⟨client', replies, hok, -, hsame⟩
    refine ⟨⟨_, hok⟩, ?_⟩
    rcases onMessage_cases hok with ⟨rfl, -⟩ | ⟨fields, names, rfl, hnames, hr⟩
    · trivial
    · rw [← inert_iff hnames, ← act_symbols_eq_iff io, ← hr]
      exact hsame
  · rintro ⟨⟨r, hok⟩, hinert⟩
    refine ⟨r.1, r.2, hok, onMessage_subset h hok, ?_⟩
    rcases onMessage_cases hok with ⟨-, rfl⟩ | ⟨fields, names, rfl, hnames, rfl⟩
    · exact fun _ => rfl
    · rw [act_symbols_eq_iff]
      exact (inert_iff hnames).mpr hinert

/-! ## Runs -/

/-- The event leaves the client its connection: not its leave, and no message of it that does
    harm. -/
def GatewayEvent.Spares (loads : Raw → Loaded) (id : ℕ) : GatewayEvent Raw → Prop
  | .connected => True
  | .message clientId raw _ => clientId = id → (loads raw).Harmless
  | .closed clientId => clientId ≠ id

/-- The ids are those given out, and every client has supported symbols only. -/
structure Registered (srv : GatewayServer) : Prop where
  id_le : ∀ c ∈ srv.clients, c.clientId ≤ srv.counter
  subset : ∀ c ∈ srv.clients, c.symbols ⊆ srv.supported

theorem Registered.put (h : Registered srv) (hid : client.clientId ≤ srv.counter)
    (hsub : client.symbols ⊆ srv.supported) :
    Registered { srv with clients := put GatewayClient.clientId client srv.clients } where
  id_le := by
    intro c hc
    rcases mem_of_mem_put hc with rfl | hc
    · exact hid
    · exact h.id_le c hc
  subset := by
    intro c hc
    rcases mem_of_mem_put hc with rfl | hc
    · exact hsub
    · exact h.subset c hc

theorem Registered.erase (h : Registered srv) (id : ℕ) :
    Registered { srv with clients := erase GatewayClient.clientId id srv.clients } where
  id_le := fun c hc => h.id_le c (mem_erase.mp hc).1
  subset := fun c hc => h.subset c (mem_erase.mp hc).1

theorem Registered.apply (h : Registered srv) (event : GatewayEvent Raw) :
    Registered (srv.apply loads upper event) := by
  cases event with
  | connected =>
      have hcounter : Registered { srv with counter := srv.counter + 1 } :=
        ⟨fun c hc => (h.id_le c hc).trans (Nat.le_succ _), h.subset⟩
      exact hcounter.put (le_refl _) (Finset.empty_subset _)
  | message clientId raw io =>
      rw [GatewayServer.apply]
      split
      · exact h
      · next client hclient =>
          obtain ⟨hmem, -⟩ := lookup_eq_some hclient
          split
          · exact h.erase clientId
          · next client' replies hok =>
              refine h.put ?_ (onMessage_subset (h.subset client hmem) hok)
              rw [onMessage_clientId hok]
              exact h.id_le client hmem
  | closed clientId => exact h.erase clientId

/-- After an event a client is there if and only if it was and the event spares it. -/
theorem mem_clients_apply (event : GatewayEvent Raw) (hid : id ≤ srv.counter) :
    id ∈ keys GatewayClient.clientId (srv.apply loads upper event).clients ↔
      id ∈ keys GatewayClient.clientId srv.clients ∧ event.Spares loads id := by
  cases event with
  | connected =>
      rw [GatewayServer.apply, mem_keys_put]
      exact ⟨fun h => ⟨h.resolve_left (by dsimp only; omega), trivial⟩, fun h => Or.inr h.1⟩
  | message clientId raw io =>
      rw [GatewayServer.apply, GatewayEvent.Spares]
      split
      · next hnone =>
          rw [lookup_eq_none] at hnone
          refine ⟨fun h => ⟨h, fun heq => ?_⟩, And.left⟩
          rw [heq] at hnone
          exact absurd h hnone
      · next client hclient =>
          obtain ⟨hmem, hkey⟩ := lookup_eq_some hclient
          rw [← onMessage_isOk_iff upper srv io client]
          split
          · next e herror =>
              rw [mem_keys_erase, herror]
              refine and_congr_right fun _ => ⟨fun hne heq => absurd heq.symm hne, fun h heq => ?_⟩
              obtain ⟨r, hr⟩ := h heq.symm
              cases hr
          · next client' replies hok =>
              rw [mem_keys_put, onMessage_clientId hok, hok]
              have hthere : id = client.clientId → id ∈ keys GatewayClient.clientId srv.clients :=
                fun heq => heq ▸ List.mem_map_of_mem hmem
              exact ⟨fun h => ⟨h.elim hthere (fun h => h), fun _ => ⟨_, rfl⟩⟩,
                fun h => Or.inr h.1⟩
  | closed clientId =>
      rw [GatewayServer.apply, mem_keys_erase]
      exact and_congr_right fun _ => ne_comm

theorem counter_le_apply (loads : Raw → Loaded) (upper : String → String)
    (event : GatewayEvent Raw) :
    srv.counter ≤ (srv.apply loads upper event).counter := by
  cases event with
  | connected => exact Nat.le_succ _
  | message clientId raw io =>
      rw [GatewayServer.apply]
      split
      · exact le_refl _
      · split <;> exact le_refl _
  | closed clientId => exact le_refl _

theorem registered_run (h : Registered srv) (events : List (GatewayEvent Raw)) :
    Registered (srv.run loads upper events) :=
  List.foldlRecOn events _ h (fun _ h event _ => h.apply event)

theorem mem_clients_run (hid : id ≤ srv.counter) (events : List (GatewayEvent Raw)) :
    id ∈ keys GatewayClient.clientId (srv.run loads upper events).clients ↔
      id ∈ keys GatewayClient.clientId srv.clients ∧ ∀ event ∈ events, event.Spares loads id := by
  induction events generalizing srv with
  | nil => exact ⟨fun h => ⟨h, by simp⟩, And.left⟩
  | cons event events ih =>
      have hstep := ih (hid.trans (counter_le_apply loads upper event))
      rw [GatewayServer.run, List.foldl_cons, ← GatewayServer.run, hstep,
        mem_clients_apply event hid, List.forall_mem_cons, and_assoc]

theorem supported_apply (event : GatewayEvent Raw) :
    (srv.apply loads upper event).supported = srv.supported := by
  cases event with
  | connected | closed clientId => rfl
  | message clientId raw io =>
      rw [GatewayServer.apply]
      split
      · rfl
      · split <;> rfl

theorem supported_run (events : List (GatewayEvent Raw)) :
    (srv.run loads upper events).supported = srv.supported := by
  induction events generalizing srv with
  | nil => rfl
  | cons event events ih =>
      rw [GatewayServer.run, List.foldl_cons, ← GatewayServer.run, ih, supported_apply]

theorem registered_new (supported : Finset String) (startedAt : ℚ) :
    Registered { supported := supported, startedAt := startedAt } :=
  ⟨fun _ hc => absurd hc List.not_mem_nil, fun _ hc => absurd hc List.not_mem_nil⟩

/-- **Client messages**: a message is handled as it should be if and only if it is harmless and
    inert. In every run the clients have supported symbols only, and one that is connected stays
    so until it leaves or sends a message that does harm. -/
theorem client_messages_iff (loads : Raw → Loaded) (upper : String → String) :
    (∀ (srv : GatewayServer) (io : MetricsInputs) (client : GatewayClient) (raw : Raw),
      client.symbols ⊆ srv.supported →
      (MessageSound upper srv io client (loads raw) ↔
        (loads raw).Harmless ∧ (loads raw).Inert upper srv client)) ∧
    ∀ (supported : Finset String) (startedAt : ℚ) (before after : List (GatewayEvent Raw)),
      let srv := GatewayServer.run loads upper
        { supported := supported, startedAt := startedAt } before
      (∀ c ∈ srv.clients, c.symbols ⊆ supported) ∧
        ∀ id ∈ keys GatewayClient.clientId srv.clients,
          (id ∈ keys GatewayClient.clientId (srv.run loads upper after).clients ↔
            ∀ event ∈ after, event.Spares loads id) := by
  refine ⟨fun srv io client raw h => messageSound_iff h, fun supported startedAt before after => ?_⟩
  have hreg : Registered (GatewayServer.run loads upper
      { supported := supported, startedAt := startedAt } before) :=
    registered_run (registered_new supported startedAt) before
  refine ⟨fun c hc => ?_, fun id hid => ?_⟩
  · have hsub := hreg.subset c hc
    rwa [supported_run] at hsub
  · obtain ⟨c, hc, rfl⟩ := List.mem_map.mp hid
    rw [mem_clients_run (hreg.id_le c hc) after]
    exact and_iff_right hid

def subscription : String :=
  "\x7b\"action\": \"subscribe\", \"symbols\": [\"XAUUSD\"]\x7d"

/-- Three messages: a subscription, an empty list, and one with an object for its list. -/
def sampleLoads (raw : String) : Loaded :=
  if raw = subscription then
    .value (.obj [("action", .str "subscribe"), ("symbols", .arr [.str "XAUUSD"])])
  else if raw = "[]" then .value (.arr [])
  else if raw = "\x7b\"action\": \"subscribe\", \"symbols\": \x7b\"XAUUSD\": 1\x7d\x7d" then
    .value (.obj [("action", .str "subscribe"), ("symbols", .obj [("XAUUSD", .num 1)])])
  else .valueError

def goldServer : GatewayServer :=
  GatewayServer.run sampleLoads (fun s => s) { supported := {"XAUUSD"}, startedAt := 0 }
    [.connected]

theorem subscription_sound :
    MessageSound (fun s => s) goldServer ⟨0, []⟩ { clientId := 1 } (sampleLoads subscription) ∧
      1 ∈ keys GatewayClient.clientId (goldServer.run sampleLoads (fun s => s)
        [.message 1 subscription ⟨0, []⟩]).clients := by
  have hloads : sampleLoads subscription =
      .value (.obj [("action", .str "subscribe"), ("symbols", .arr [.str "XAUUSD"])]) := if_pos rfl
  have hharmless : (sampleLoads subscription).Harmless := by
    rw [hloads]
    intro v hv
    cases hv
    trivial
  have hinert : (sampleLoads subscription).Inert (fun s => s) goldServer { clientId := 1 } := by
    rw [hloads]
    intro v hv
    cases hv
    exact noEffect_nil _ _ _
  obtain ⟨hsound, hrun⟩ := client_messages_iff sampleLoads (fun s => s)
  refine ⟨(hsound goldServer _ _ subscription (Finset.empty_subset _)).mpr ⟨hharmless, hinert⟩, ?_⟩
  refine ((hrun {"XAUUSD"} 0 [.connected] [.message 1 subscription ⟨0, []⟩]).2 1
    (List.mem_singleton_self 1)).mpr fun event hevent => ?_
  rw [List.mem_singleton] at hevent
  subst hevent
  exact fun _ => hharmless

/-- An empty list ends the connection; an object in place of the list subscribes. -/
theorem empty_list_disconnects :
    keys GatewayClient.clientId goldServer.clients = [1] ∧
      keys GatewayClient.clientId (goldServer.run sampleLoads (fun s => s)
        [.message 1 "[]" ⟨0, []⟩]).clients = [] ∧
      (goldServer.run sampleLoads (fun s => s) [.message 1
        "\x7b\"action\": \"subscribe\", \"symbols\": \x7b\"XAUUSD\": 1\x7d\x7d"
          ⟨0, []⟩]).clients.map GatewayClient.symbols = [{"XAUUSD"}] := by
  decide +kernel

end SignalEngine
