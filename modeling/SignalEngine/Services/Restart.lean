/-
  Restart: a new process on the tables an earlier one has left.

  Model. `raw_json` is JSON, as `upsert_open` writes it; `readable r` says that `from_dict` takes
  it, and a row it raises on is skipped. `json` is what the JSON fallback of `_load_session`
  holds for the day. The tables after `initialize` are `tablesAfter` on the calls it has made.

  Proved: what taking up a list of rows does to each table of the dedup state, by induction on
  the rows, and `signalsConserved_iff`: a restart conserves every open row exactly when each is
  readable and not older than the expiry.
-/
import SignalEngine.Services.CrashSafety

namespace SignalEngine

open Lib

/-! ## The new process -/

/-- The records `_load_session` finds for a day. -/
def Tables.sessionRecords (t : Tables) (json : List ClosedSignalRecord) (day : ℤ) :
    List ClosedSignalRecord :=
  if t.loadClosedForSession day = [] then json else t.loadClosedForSession day

/-- The rows of `load_open_signals` that `from_dict` does not raise on. -/
def Tables.readableOpenSignals (t : Tables) (readable : OpenRow → Bool) : List TradeSignal :=
  ((orderBy OpenRow.createdAt t.openSignals).filter readable).map OpenRow.rawJson

/-- `SessionCoordinator` and `SignalService` built anew, then `initialize`. -/
def restartService (cfg : Settings) (readable : OpenRow → Bool) (t : Tables)
    (json : List ClosedSignalRecord) (nowMs initMs : ℤ) : Service × Option CoordinatorError :=
  match Coordinator.start cfg nowMs (t.sessionRecords json (toDate nowMs))
      t.loadClosedForDedup with
  | (c, some e) => ({ coordinator := c }, some e)
  | (c, none) =>
      (Service.initializeRows cfg initMs (t.readableOpenSignals readable) { coordinator := c },
        none)

/-- The open rows whose signal is of the zone. -/
def Tables.openOfZone (t : Tables) (z : ZoneKey) : ℕ :=
  t.openSignals.countP (fun r => decide ((setupOf r.rawJson).zoneKey = z))

def Tables.closedOfZone (t : Tables) (z : ZoneKey) : ℕ :=
  t.closedSignals.countP (fun r => decide (r.record.zoneKey = z))

variable {cfg : Settings} {st : Service} {s : TradeSignal} {t : Tables} {z : ZoneKey}
  {nowMs initMs : ℤ} {rows : List TradeSignal} {readable : OpenRow → Bool}
  {json : List ClosedSignalRecord}

/-! ## The closed table replayed -/

/-- What a coordinator that starts on the tables knows of the closed signals. -/
structure Replayed (cfg : Settings) (t : Tables) (d : DedupState) : Prop where
  counts_eq : ∀ z, d.zoneSignalCounts z = t.closedOfZone z
  dead : d.DeadByCount cfg.maxSignalCountPerZone
  seen_iff : ∀ k, k ∈ d.seenRej ↔
    ∃ r ∈ t.closedSignals, r.record.rejTs ≠ 0 ∧ r.record.rejKey = k
  openDir_eq : d.openDir = []

theorem mem_loadClosedForDedup {rec : ClosedSignalRecord} :
    rec ∈ t.loadClosedForDedup ↔ ∃ r ∈ t.closedSignals, dedupColumns r.record = rec := by
  simp [Tables.loadClosedForDedup, orderBy, List.mem_insertionSort]

/-- The order of the rows and the columns left out do not matter to the count. -/
theorem countP_loadClosedForDedup (z : ZoneKey) :
    t.loadClosedForDedup.countP (fun rec => decide (rec.zoneKey = z)) = t.closedOfZone z := by
  rw [Tables.loadClosedForDedup, List.countP_map, orderBy,
    (List.perm_insertionSort _ t.closedSignals).countP_eq]
  rfl

theorem replayed_loadClosedForDedup (cfg : Settings) (t : Tables) :
    Replayed cfg t (DedupState.replay {} t.loadClosedForDedup cfg.maxSignalCountPerZone) := by
  have hnew : ({} : DedupState).DeadByCount cfg.maxSignalCountPerZone := by
    intro z
    simp
  refine ⟨fun z => ?_, hnew.replay _, fun k => ?_, replay_openDir _ _ _⟩
  · rw [replay_counts, countP_loadClosedForDedup]
    exact Nat.zero_add _
  · rw [mem_seenRej_replay]
    simp only [Finset.notMem_empty, false_or, mem_loadClosedForDedup]
    constructor
    · rintro ⟨rec, ⟨r, hr, rfl⟩, hts, hk⟩
      exact ⟨r, hr, hts, hk⟩
    · rintro ⟨r, hr, hts, hk⟩
      exact ⟨_, ⟨r, hr, rfl⟩, hts, hk⟩

/-- A construction that returns has replayed the closed table. -/
theorem start_state (cfg : Settings) (nowMs : ℤ) (records closed : List ClosedSignalRecord)
    (h : (Coordinator.start cfg nowMs records closed).2 = none) :
    (Coordinator.start cfg nowMs records closed).1.state =
      DedupState.replay {} closed cfg.maxSignalCountPerZone := by
  have hload := loadSession_state cfg { sessionDay := toDate nowMs } records nowMs
  unfold Coordinator.start at h ⊢
  generalize Coordinator.loadSession cfg { sessionDay := toDate nowMs } records nowMs = r
    at h hload ⊢
  obtain ⟨c, _ | e⟩ := r
  · dsimp only at hload ⊢
    rw [hload]
  · cases h

/-! ## The rows taken up -/

/-- A row registered and watched. -/
def Service.takeUp (cfg : Settings) (st : Service) (s : TradeSignal) : Service :=
  { st with
    coordinator := (st.coordinator.registerSignal cfg (setupOf s)).1
    watchlist := put TradeSignal.id
      (s.withAttempt (st.coordinator.registerSignal cfg (setupOf s)).2) st.watchlist }

/-- `initialize` takes up the rows it does not skip. -/
theorem initializeRows_eq_foldl (cfg : Settings) (nowMs : ℤ) (rows : List TradeSignal)
    (st : Service) :
    st.initializeRows cfg nowMs rows =
      (rows.filter (restorable cfg nowMs)).foldl (Service.takeUp cfg) st := by
  rw [List.foldl_filter]
  rfl

theorem initializeRows_counts (cfg : Settings) (nowMs : ℤ) (rows : List TradeSignal)
    (st : Service) (z : ZoneKey) :
    (st.initializeRows cfg nowMs rows).coordinator.state.zoneSignalCounts z =
      st.coordinator.state.zoneSignalCounts z +
        (rows.filter (restorable cfg nowMs)).countP
          (fun s => decide ((setupOf s).zoneKey = z)) := by
  rw [initializeRows_eq_foldl]
  refine foldl_counts (fun st => st.coordinator.state.zoneSignalCounts z)
    (fun s => decide ((setupOf s).zoneKey = z)) (fun st s => ?_) st _
  simp only [decide_eq_true_eq]
  exact register_counts z

theorem initializeRows_dead
    (h : st.coordinator.state.DeadByCount cfg.maxSignalCountPerZone) (nowMs : ℤ)
    (rows : List TradeSignal) :
    (st.initializeRows cfg nowMs rows).coordinator.state.DeadByCount
      cfg.maxSignalCountPerZone := by
  rw [initializeRows_eq_foldl]
  generalize rows.filter (restorable cfg nowMs) = taken
  induction taken generalizing st with
  | nil => exact h
  | cons s taken ih => exact ih (h.register (setupOf s) _)

theorem mem_seenRej_initializeRows (cfg : Settings) (nowMs : ℤ) (rows : List TradeSignal)
    (st : Service) (k : RejKey) :
    k ∈ (st.initializeRows cfg nowMs rows).coordinator.state.seenRej ↔
      k ∈ st.coordinator.state.seenRej ∨
        ∃ s ∈ rows.filter (restorable cfg nowMs), (setupOf s).rejKey = k := by
  rw [initializeRows_eq_foldl]
  refine foldl_adds_iff (fun st => k ∈ st.coordinator.state.seenRej)
    (fun s => (setupOf s).rejKey = k) (fun st s => ?_) st _
  rw [Service.takeUp, Coordinator.registerSignal]
  dsimp only
  rw [register_seenRej, Finset.mem_insert, or_comm, eq_comm]

theorem mem_openKeys_initializeRows (cfg : Settings) (nowMs : ℤ) (rows : List TradeSignal)
    (st : Service) (k : DirKey) :
    k ∈ (st.initializeRows cfg nowMs rows).coordinator.state.openKeys ↔
      k ∈ st.coordinator.state.openKeys ∨
        ∃ s ∈ rows.filter (restorable cfg nowMs), lockKey cfg s = k := by
  rw [initializeRows_eq_foldl]
  refine foldl_adds_iff (fun st => k ∈ st.coordinator.state.openKeys)
    (fun s => lockKey cfg s = k) (fun st s => ?_) st _
  rw [Service.takeUp, Coordinator.registerSignal]
  dsimp only
  rw [mem_openKeys_register, lockKey_eq_dirKey, or_comm, eq_comm]

theorem mem_ids_initializeRows (cfg : Settings) (nowMs : ℤ) (rows : List TradeSignal)
    (st : Service) (k : SignalId) :
    k ∈ keys TradeSignal.id (st.initializeRows cfg nowMs rows).watchlist ↔
      k ∈ keys TradeSignal.id st.watchlist ∨
        k ∈ keys TradeSignal.id (rows.filter (restorable cfg nowMs)) := by
  have htaken : k ∈ keys TradeSignal.id (rows.filter (restorable cfg nowMs)) ↔
      ∃ s ∈ rows.filter (restorable cfg nowMs), s.id = k := mem_keys
  rw [initializeRows_eq_foldl, htaken]
  refine foldl_adds_iff (fun st : Service => k ∈ keys TradeSignal.id st.watchlist)
    (fun s : TradeSignal => s.id = k) (fun st s => ?_) st _
  rw [Service.takeUp, mem_keys_put, or_comm, eq_comm]
  rfl

/-- A watched signal was watched before, or is one of the rows with an attempt of its zone that
    nobody had before. -/
theorem mem_initializeRows {s' : TradeSignal}
    (h : s' ∈ (st.initializeRows cfg nowMs rows).watchlist) :
    s' ∈ st.watchlist ∨ ∃ s ∈ rows.filter (restorable cfg nowMs), ∃ attempt,
      s' = s.withAttempt attempt ∧
        st.coordinator.state.zoneSignalCounts (setupOf s).zoneKey < attempt ∧
        attempt ≤ (st.initializeRows cfg nowMs rows).coordinator.state.zoneSignalCounts
          (setupOf s).zoneKey := by
  have hstep : ∀ (st : Service) s z, (st.takeUp cfg s).coordinator.state.zoneSignalCounts z =
      st.coordinator.state.zoneSignalCounts z + if (setupOf s).zoneKey = z then 1 else 0 :=
    fun _ _ z => register_counts z
  rw [initializeRows_eq_foldl] at h ⊢
  generalize rows.filter (restorable cfg nowMs) = taken at h ⊢
  induction taken generalizing st with
  | nil => exact Or.inl h
  | cons s taken ih =>
      rw [List.foldl_cons] at h ⊢
      rcases ih h with h | ⟨y, hy, attempt, heq, hlow, hhigh⟩
      · rcases mem_of_mem_put h with rfl | h
        · -- taken up here, and the rows that follow only raise the count
          refine Or.inr ⟨s, List.mem_cons_self, _, rfl, Nat.lt_succ_self _, ?_⟩
          have hgrow := foldl_counts
            (fun st : Service => st.coordinator.state.zoneSignalCounts (setupOf s).zoneKey)
            (fun y => decide ((setupOf y).zoneKey = (setupOf s).zoneKey))
            (fun st y => by simpa using hstep st y (setupOf s).zoneKey) (st.takeUp cfg s) taken
          rw [hgrow, hstep, if_pos rfl]
          exact Nat.le_add_right _ _
        · exact Or.inl h
      · refine Or.inr ⟨y, List.mem_cons_of_mem _ hy, attempt, heq, ?_, hhigh⟩
        rw [hstep] at hlow
        omega

/-! ## Conserved rows -/

/-- The open rows as `upsert_open` writes them of running trades. -/
structure Tables.OpenRowsWritten (t : Tables) : Prop where
  ids_nodup : t.openIds.Nodup
  id_eq : ∀ r ∈ t.openSignals, r.rawJson.id = r.signalId
  status_eq : ∀ r ∈ t.openSignals, r.rawJson.status = r.status
  status_open : ∀ r ∈ t.openSignals, r.status = .triggered ∨ r.status = .tp1Hit

/-- The row's signal is watched under an attempt of its zone that comes after the closed ones,
    its rejection is taken and its lock is held. -/
def Monitored (cfg : Settings) (found : Tables) (st : Service) (r : OpenRow) : Prop :=
  ∃ attempt, r.rawJson.withAttempt attempt ∈ st.watchlist ∧
    found.closedOfZone (setupOf r.rawJson).zoneKey < attempt ∧
    attempt ≤ st.coordinator.state.zoneSignalCounts (setupOf r.rawJson).zoneKey ∧
    (setupOf r.rawJson).rejKey ∈ st.coordinator.state.seenRej ∧
    lockKey cfg r.rawJson ∈ st.coordinator.state.openKeys

/-- Every open row found is watched, or closed and gone from the tables left, and every one is
    counted against its zone. -/
structure SignalsConserved (cfg : Settings) (found left : Tables) (st : Service) : Prop where
  kept : ∀ r ∈ found.openSignals,
    Monitored cfg found st r ∨ (r.signalId ∈ left.closedIds ∧ r.signalId ∉ left.openIds)
  counted : ∀ z, st.coordinator.state.zoneSignalCounts z =
    found.closedOfZone z + found.openOfZone z

/-- The signal was created more than the expiry ago. -/
def TradeSignal.TooOld (cfg : Settings) (initMs : ℤ) (s : TradeSignal) : Prop :=
  cfg.signalExpiryHours * msPerHour < ((initMs - s.createdAt : ℤ) : ℚ)

/-- A restart whose constructor returns, seen from `initialize`. -/
theorem restartService_of_returns
    (h : (restartService cfg readable t json nowMs initMs).2 = none) :
    ∃ c, Replayed cfg t c.state ∧
      (restartService cfg readable t json nowMs initMs).1 =
        Service.initializeRows cfg initMs (t.readableOpenSignals readable)
          { coordinator := c } := by
  have hstate := start_state cfg nowMs (t.sessionRecords json (toDate nowMs))
    t.loadClosedForDedup
  unfold restartService at h ⊢
  generalize Coordinator.start cfg nowMs (t.sessionRecords json (toDate nowMs))
    t.loadClosedForDedup = r at h hstate ⊢
  obtain ⟨c, _ | e⟩ := r
  · refine ⟨c, ?_, rfl⟩
    have hc : c.state = _ := hstate rfl
    rw [hc]
    exact replayed_loadClosedForDedup cfg t
  · cases h

theorem mem_readableOpenSignals :
    s ∈ t.readableOpenSignals readable ↔
      ∃ r ∈ t.openSignals, readable r = true ∧ r.rawJson = s := by
  simp [Tables.readableOpenSignals, orderBy, List.mem_insertionSort, and_assoc]

theorem restorable_iff :
    restorable cfg initMs s = true ↔ s.status.isOpen = true ∧ ¬ s.TooOld cfg initMs := by
  rw [restorable, Bool.and_eq_true, Bool.not_eq_true', decide_eq_false_iff_not]
  rfl

/-- Readable rows within the expiry are all taken up. -/
theorem takenUp_perm (readable : OpenRow → Bool)
    (hread : ∀ r ∈ t.openSignals, readable r = true)
    (hrest : ∀ r ∈ t.openSignals, restorable cfg initMs r.rawJson = true) :
    ((t.readableOpenSignals readable).filter (restorable cfg initMs)).Perm
      (t.openSignals.map OpenRow.rawJson) := by
  have hperm : (orderBy OpenRow.createdAt t.openSignals).Perm t.openSignals :=
    List.perm_insertionSort _ _
  have hall : (t.readableOpenSignals readable).filter (restorable cfg initMs) =
      t.readableOpenSignals readable := by
    rw [List.filter_eq_self]
    intro s hs
    obtain ⟨r, hr, -, rfl⟩ := mem_readableOpenSignals.mp hs
    exact hrest r hr
  have hself : (orderBy OpenRow.createdAt t.openSignals).filter readable =
      orderBy OpenRow.createdAt t.openSignals := by
    rw [List.filter_eq_self]
    exact fun r hr => hread r (hperm.mem_iff.mp hr)
  rw [hall, Tables.readableOpenSignals, hself]
  exact hperm.map _

/-- **When a restart conserves its signals**: exactly when every open row can be read and is not
    older than the expiry. -/
theorem signalsConserved_iff (ht : t.OpenRowsWritten)
    (hreturns : (restartService cfg readable t json nowMs initMs).2 = none) :
    let st := (restartService cfg readable t json nowMs initMs).1
    SignalsConserved cfg t (tablesAfter t st.calls) st ↔
      ∀ r ∈ t.openSignals, readable r = true ∧ ¬ r.rawJson.TooOld cfg initMs := by
  obtain ⟨c, hc, hst⟩ := restartService_of_returns hreturns
  have hrow : ∀ r ∈ t.openSignals, ∀ r' ∈ t.openSignals, r'.rawJson.id = r.rawJson.id → r' = r := by
    intro r hr r' hr' hid
    rw [ht.id_eq r hr, ht.id_eq r' hr'] at hid
    exact List.inj_on_of_nodup_map ht.ids_nodup hr' hr hid
  dsimp only
  rw [hst, initializeRows_calls]
  constructor
  · intro h r hr
    rcases h.kept r hr with ⟨attempt, hmem, -⟩ | ⟨-, hgone⟩
    · rcases mem_initializeRows hmem with hmem | ⟨s, hs, a, heq, -⟩
      · cases hmem
      · obtain ⟨hs, hrest⟩ := List.mem_filter.mp hs
        obtain ⟨r', hr', hread, rfl⟩ := mem_readableOpenSignals.mp hs
        have hid : r'.rawJson.id = r.rawJson.id := (congrArg TradeSignal.id heq).symm
        rw [hrow r hr r' hr' hid] at hread hrest
        exact ⟨hread, (restorable_iff.mp hrest).2⟩
    · exact absurd (List.mem_map_of_mem hr) hgone
  · intro h
    have hopen : ∀ r ∈ t.openSignals, r.rawJson.status.isOpen = true := by
      intro r hr
      rw [ht.status_eq r hr]
      exact isOpen_iff.mpr (ht.status_open r hr)
    have hperm := takenUp_perm readable (fun r hr => (h r hr).1)
      (fun r hr => restorable_iff.mpr ⟨hopen r hr, (h r hr).2⟩)
    refine ⟨fun r hr => Or.inl ?_, fun z => ?_⟩
    · have hin : r.rawJson ∈
          (t.readableOpenSignals readable).filter (restorable cfg initMs) :=
        hperm.mem_iff.mpr (List.mem_map_of_mem hr)
      have hwatched := (mem_ids_initializeRows cfg initMs (t.readableOpenSignals readable)
        { coordinator := c } r.rawJson.id).mpr (Or.inr (List.mem_map_of_mem hin))
      obtain ⟨s', hs', hid⟩ := mem_keys.mp hwatched
      rcases mem_initializeRows hs' with hs' | ⟨s, hs, a, rfl, hlow, hhigh⟩
      · cases hs'
      · obtain ⟨r', hr', -, rfl⟩ := mem_readableOpenSignals.mp (List.mem_filter.mp hs).1
        rw [hrow r hr r' hr' hid] at hs' hlow hhigh
        refine ⟨a, hs', ?_, hhigh, ?_, ?_⟩
        · rw [← hc.counts_eq]
          exact hlow
        · exact (mem_seenRej_initializeRows _ _ _ _ _).mpr (Or.inr ⟨_, hin, rfl⟩)
        · exact (mem_openKeys_initializeRows _ _ _ _ _).mpr (Or.inr ⟨_, hin, rfl⟩)
    · rw [initializeRows_counts, hperm.countP_eq, List.countP_map, hc.counts_eq]
      rfl

/-! ## A row left behind -/

/-- Restarted while the sample trade is young, the process watches it again. -/
theorem sampleStore_conserved :
    SignalsConserved sampleSettings sampleStore
      (tablesAfter sampleStore
        (restartService sampleSettings (fun _ => true) sampleStore [] 7500000 7500000).1.calls)
      (restartService sampleSettings (fun _ => true) sampleStore [] 7500000 7500000).1 := by
  refine (signalsConserved_iff ?_ rfl).mpr ?_
  · constructor <;> decide +kernel
  · have hall : ∀ r ∈ sampleStore.openSignals, (fun _ : OpenRow => true) r = true ∧
        ¬ sampleSettings.signalExpiryHours * msPerHour <
          ((7500000 - r.rawJson.createdAt : ℤ) : ℚ) := by
      decide +kernel
    exact hall

/-- Restarted after six days, it leaves the row open, unwatched and uncounted. -/
theorem old_row_stays :
    sampleStore.OpenRowsWritten ∧
      (restartService sampleSettings (fun _ => true) sampleStore [] 525600000 525600000).2 = none ∧
      ¬ SignalsConserved sampleSettings sampleStore
        (tablesAfter sampleStore
          (restartService sampleSettings (fun _ => true) sampleStore [] 525600000
            525600000).1.calls)
        (restartService sampleSettings (fun _ => true) sampleStore [] 525600000 525600000).1 := by
  refine ⟨by constructor <;> decide +kernel, rfl, fun h => ?_⟩
  have hcount := h.counted (setupOf sampleSignal).zoneKey
  revert hcount
  decide +kernel

end SignalEngine
