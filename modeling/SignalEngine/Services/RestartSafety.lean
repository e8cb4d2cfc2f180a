/-
  Restart safety: the dedup state rebuilt from the database is the one before the restart.

  Model. A `StoreReach` run starts on an empty database, no store call of it raises, and it may
  restart between operations. Its first index is the database as the running process found it,
  so the tables now are `tablesAfter` on the calls made since.

  Proved: `Accounts`, which ties the tables to the dedup state and the watched trades, is kept by
  every emission, by every close and by a restart. It determines the dedup state from what
  the tables hold, whence `restart_agrees`.
-/
import SignalEngine.Services.Restart

namespace SignalEngine

open Lib

/-! ## Accounts -/

/-- What the tables and the dedup state know of a watched trade. -/
structure TradeKey where
  id : SignalId
  symbol : String
  direction : SignalDirection
  htfInterval : Interval
  ltfInterval : Interval
  htfTs : ℤ
  rejTs : ℤ
  createdAt : ℤ
  deriving DecidableEq, Repr

def TradeSignal.key (s : TradeSignal) : TradeKey where
  id := s.id
  symbol := s.symbol
  direction := s.direction
  htfInterval := s.htfInterval
  ltfInterval := s.ltfInterval
  htfTs := s.htfRange.timestamp
  rejTs := s.rejectionCandle.timestamp
  createdAt := s.createdAt

def TradeKey.zoneKey (k : TradeKey) : ZoneKey :=
  (dedupKeys k.symbol k.htfInterval k.ltfInterval k.htfTs k.rejTs k.direction).1

def TradeKey.rejKey (k : TradeKey) : RejKey :=
  (dedupKeys k.symbol k.htfInterval k.ltfInterval k.htfTs k.rejTs k.direction).2

def TradeKey.lockKey (cfg : Settings) (k : TradeKey) : DirKey :=
  dirKey cfg.multiTfIndependentPositions k.symbol k.direction k.htfInterval k.ltfInterval

def TradeKey.namedId (k : TradeKey) : SignalId :=
  ⟨k.symbol, k.htfInterval, k.ltfInterval, k.rejTs, k.direction⟩

def ClosedSignalRecord.namedId (rec : ClosedSignalRecord) : SignalId :=
  ⟨rec.symbol, rec.htfInterval, rec.ltfInterval, rec.rejTs, rec.direction⟩

/-- The open rows are the watched trades, the closed ones the others registered. -/
structure Accounts (cfg : Settings) (t : Tables) (d : DedupState) (watch : List TradeKey) :
    Prop where
  rows_perm : (t.openSignals.map (fun r => r.rawJson.key)).Perm watch
  rows_id : ∀ r ∈ t.openSignals, r.rawJson.id = r.signalId
  rows_open : ∀ r ∈ t.openSignals, r.rawJson.status.isOpen = true
  ids_nodup : (watch.map TradeKey.id).Nodup
  named : ∀ k ∈ watch, k.id = k.namedId
  closed_named : ∀ r ∈ t.closedSignals, r.record.signalId = r.record.namedId
  fresh : ∀ k ∈ watch, k.id ∉ t.closedIds
  counts_eq : ∀ z, d.zoneSignalCounts z =
    t.closedOfZone z + watch.countP (fun k => decide (k.zoneKey = z))
  dead : d.DeadByCount cfg.maxSignalCountPerZone
  seen_iff : ∀ k, k ∈ d.seenRej ↔
    (∃ r ∈ t.closedSignals, r.record.rejKey = k) ∨ ∃ w ∈ watch, w.rejKey = k

variable {cfg : Settings} {t : Tables} {d : DedupState} {watch : List TradeKey}
  {s s' : TradeSignal} {k : TradeKey} {nowMs : ℤ}

theorem Accounts.openIds_perm (h : Accounts cfg t d watch) :
    t.openIds.Perm (watch.map TradeKey.id) := by
  have hids : t.openIds = (t.openSignals.map (fun r => r.rawJson.key)).map TradeKey.id := by
    rw [List.map_map]
    exact List.map_congr_left (fun r hr => (h.rows_id r hr).symm)
  rw [hids]
  exact h.rows_perm.map _

/-- The accounts of the same trades in another order, with a dedup state that counts them. -/
theorem Accounts.of_perm (h : Accounts cfg t d watch) {d' : DedupState} {watch' : List TradeKey}
    (hperm : watch'.Perm watch)
    (hcounts : ∀ z, d'.zoneSignalCounts z =
      t.closedOfZone z + watch'.countP (fun k => decide (k.zoneKey = z)))
    (hdead : d'.DeadByCount cfg.maxSignalCountPerZone)
    (hseen : ∀ k, k ∈ d'.seenRej ↔
      (∃ r ∈ t.closedSignals, r.record.rejKey = k) ∨ ∃ w ∈ watch', w.rejKey = k) :
    Accounts cfg t d' watch' where
  rows_perm := h.rows_perm.trans hperm.symm
  rows_id := h.rows_id
  rows_open := h.rows_open
  ids_nodup := (hperm.map TradeKey.id).nodup_iff.mpr h.ids_nodup
  named := fun k hk => h.named k (hperm.mem_iff.mp hk)
  closed_named := h.closed_named
  fresh := fun k hk => h.fresh k (hperm.mem_iff.mp hk)
  counts_eq := hcounts
  dead := hdead
  seen_iff := hseen

theorem SameTrade.key_eq (h : SameTrade s s') : s'.key = s.key := by
  rw [TradeSignal.key, TradeSignal.key, h.id_eq, h.symbol_eq, h.direction_eq, h.htfInterval_eq,
    h.ltfInterval_eq, h.htfRange_eq, h.rejectionCandle_eq, h.createdAt_eq]

/-! ### Emissions -/

/-- A closed trade has its rejection candle marked seen. -/
theorem Accounts.not_closed (h : Accounts cfg t d watch) (hnamed : s.id = s.namedId)
    (hrej : (setupOf s).rejKey ∉ d.seenRej) : s.id ∉ t.closedIds := by
  intro hmem
  obtain ⟨r, hr, hrid⟩ := mem_keys.mp hmem
  refine hrej ((h.seen_iff _).mpr (Or.inl ⟨r, hr, ?_⟩))
  have heq : r.record.namedId = s.namedId := by
    rw [← h.closed_named r hr, ← hnamed]
    exact hrid
  rw [ClosedSignalRecord.namedId, TradeSignal.namedId, SignalId.mk.injEq] at heq
  obtain ⟨h1, h2, h3, h4, -⟩ := heq
  show (⟨_, _, _, _⟩ : RejKey) = ⟨_, _, _, _⟩
  rw [h1, h2, h3, h4]
  rfl

theorem Accounts.emit (h : Accounts cfg t d watch) (hnamed : s.id = s.namedId)
    (hid : s.id ∉ watch.map TradeKey.id) (hopen : s.status.isOpen = true)
    (hrej : (setupOf s).rejKey ∉ d.seenRej) (multi : Bool) (nowMs : ℤ) :
    Accounts cfg (t.upsertOpen s nowMs)
      (d.register (setupOf s) multi cfg.maxSignalCountPerZone).1 (watch ++ [s.key]) := by
  have hnew : s.id ∉ t.openIds := fun hmem => hid (h.openIds_perm.mem_iff.mp hmem)
  have hrows : (t.upsertOpen s nowMs).openSignals = t.openSignals ++ [openRowOf s nowMs] :=
    upsert_of_new hnew
  constructor
  · rw [hrows, List.map_append]
    exact h.rows_perm.append_right _
  · rw [hrows]
    exact List.forall_mem_append.mpr ⟨h.rows_id, List.forall_mem_singleton.mpr rfl⟩
  · rw [hrows]
    exact List.forall_mem_append.mpr ⟨h.rows_open, List.forall_mem_singleton.mpr hopen⟩
  · exact nodup_keys_concat h.ids_nodup hid
  · exact List.forall_mem_append.mpr ⟨h.named, List.forall_mem_singleton.mpr hnamed⟩
  · exact h.closed_named
  · exact List.forall_mem_append.mpr
      ⟨h.fresh, List.forall_mem_singleton.mpr (h.not_closed hnamed hrej)⟩
  · intro z
    rw [register_counts, h.counts_eq, List.countP_append, List.countP_singleton, ← Nat.add_assoc]
    simp only [decide_eq_true_eq]
    rfl
  · exact h.dead.register _ _
  · intro k
    rw [register_seenRej, Finset.mem_insert, h.seen_iff k]
    constructor
    · rintro (rfl | hc | ⟨w, hw, hk⟩)
      · exact Or.inr ⟨s.key, List.mem_append_right _ (List.mem_singleton.mpr rfl), rfl⟩
      · exact Or.inl hc
      · exact Or.inr ⟨w, List.mem_append_left _ hw, hk⟩
    · rintro (hc | ⟨w, hw, hk⟩)
      · exact Or.inr (Or.inl hc)
      · rcases List.mem_append.mp hw with hw | hw
        · exact Or.inr (Or.inr ⟨w, hw, hk⟩)
        · rw [List.mem_singleton.mp hw] at hk
          exact Or.inl hk.symm

/-! ### Closes -/

section Close

variable (h : Accounts cfg t d watch) (hs : s.key ∈ watch) (hsame : SameTrade s s')
  (o : SignalOutcome) (r : ℚ) (day : ℤ)

include h hs

theorem Accounts.watch_perm : watch.Perm (s.key :: erase TradeKey.id s.id watch) :=
  perm_cons_erase h.ids_nodup hs

include hsame

/-- The record is new, so it is appended. -/
theorem Accounts.closed_close :
    ((t.deleteOpen s.id).insertClosed (closedRecord s' o r) day).closedSignals =
      t.closedSignals ++ [⟨{ closedRecord s' o r with zoneAttempt := 1 }, day⟩] := by
  have hnew : s'.id ∉ t.closedIds := hsame.id_eq ▸ h.fresh s.key hs
  exact if_neg hnew

/-- A closed trade counts for its zone as it did before. -/
theorem Accounts.counts_close (z : ZoneKey) : d.zoneSignalCounts z =
    ((t.deleteOpen s.id).insertClosed (closedRecord s' o r) day).closedOfZone z +
      (erase TradeKey.id s.id watch).countP (fun k => decide (k.zoneKey = z)) := by
  have hcount := h.counts_eq z
  rw [(h.watch_perm hs).countP_eq, List.countP_cons, ← hsame.key_eq,
    Tables.closedOfZone] at hcount
  rw [hcount, Tables.closedOfZone, h.closed_close hs hsame, List.countP_append,
    List.countP_singleton]
  show _ + (_ + if decide (s'.key.zoneKey = z) = true then 1 else 0) =
    _ + (if decide (s'.key.zoneKey = z) = true then 1 else 0) + _
  omega

/-- Its rejection stays seen, now for the record. -/
theorem Accounts.seen_close (k : RejKey) : k ∈ d.seenRej ↔
    (∃ c ∈ ((t.deleteOpen s.id).insertClosed (closedRecord s' o r) day).closedSignals,
      c.record.rejKey = k) ∨ ∃ w ∈ erase TradeKey.id s.id watch, w.rejKey = k := by
  rw [h.seen_iff k, h.closed_close hs hsame]
  constructor
  · rintro (⟨c, hc, hk⟩ | ⟨w, hw, hk⟩)
    · exact Or.inl ⟨c, List.mem_append_left _ hc, hk⟩
    · rcases List.mem_cons.mp ((h.watch_perm hs).mem_iff.mp hw) with rfl | hw
      · rw [← hsame.key_eq] at hk
        exact Or.inl ⟨_, List.mem_append_right _ (List.mem_singleton.mpr rfl), hk⟩
      · exact Or.inr ⟨w, hw, hk⟩
  · rintro (⟨c, hc, hk⟩ | ⟨w, hw, hk⟩)
    · rcases List.mem_append.mp hc with hc | hc
      · exact Or.inl ⟨c, hc, hk⟩
      · rw [List.mem_singleton.mp hc] at hk
        exact Or.inr ⟨s.key, hs, by rw [← hsame.key_eq]; exact hk⟩
    · exact Or.inr ⟨w, (mem_erase.mp hw).1, hk⟩

omit hs hsame in
theorem Accounts.rows_close :
    ((erase OpenRow.signalId s.id t.openSignals).map (fun r => r.rawJson.key)).Perm
      (erase TradeKey.id s.id watch) := by
  have hfilter := h.rows_perm.filter (fun k => decide (k.id ≠ s.id))
  rw [List.filter_map] at hfilter
  have hrows : erase OpenRow.signalId s.id t.openSignals = t.openSignals.filter
      ((fun k : TradeKey => decide (k.id ≠ s.id)) ∘ fun r => r.rawJson.key) := by
    refine List.filter_congr (fun r hr => ?_)
    have hid := h.rows_id r hr
    dsimp only [Function.comp_apply, TradeSignal.key]
    rw [hid]
  rw [hrows]
  exact hfilter

theorem Accounts.close (lock : DirKey) :
    Accounts cfg ((t.deleteOpen s.id).insertClosed (closedRecord s' o r) day)
      (d.releaseDirection lock) (erase TradeKey.id s.id watch) := by
  constructor
  · exact h.rows_close
  · exact fun r hr => h.rows_id r (mem_erase.mp hr).1
  · exact fun r hr => h.rows_open r (mem_erase.mp hr).1
  · exact nodup_keys_erase h.ids_nodup
  · exact fun k hk => h.named k (mem_erase.mp hk).1
  · have hnamed := h.named s.key hs
    rw [← hsame.key_eq] at hnamed
    rw [h.closed_close hs hsame]
    exact List.forall_mem_append.mpr ⟨h.closed_named, List.forall_mem_singleton.mpr hnamed⟩
  · intro k hk hmem
    obtain ⟨hk, hid⟩ := mem_erase.mp hk
    rcases mem_closedIds_insertClosed.mp hmem with heq | hmem
    · exact hid (heq.trans hsame.id_eq)
    · exact h.fresh k hk hmem
  · exact h.counts_close hs hsame o r day
  · exact h.dead
  · exact h.seen_close hs hsame o r day

end Close

/-! ### Saved steps -/

/-- Saving a watched trade again leaves the accounts as they are. -/
theorem Accounts.save (h : Accounts cfg t d watch) (hs : s.key ∈ watch)
    (hopen : s.status.isOpen = true) (nowMs : ℤ) :
    Accounts cfg (t.upsertOpen s nowMs) d watch := by
  have hrow : ∀ r ∈ t.openSignals, r.signalId = s.id → r.rawJson.key = s.key := by
    intro r hr hid
    have hmem : r.rawJson.key ∈ watch :=
      h.rows_perm.mem_iff.mp (List.mem_map_of_mem (f := fun r => r.rawJson.key) hr)
    exact List.inj_on_of_nodup_map h.ids_nodup hmem hs ((h.rows_id r hr).trans hid)
  have hin : (openRowOf s nowMs).signalId ∈ keys OpenRow.signalId t.openSignals :=
    h.openIds_perm.mem_iff.mpr (List.mem_map_of_mem (f := TradeKey.id) hs)
  have hmap : (t.upsertOpen s nowMs).openSignals.map (fun r => r.rawJson.key) =
      t.openSignals.map (fun r => r.rawJson.key) :=
    map_upsert_of_mem (fun r hr hid => (hrow r hr hid).symm) hin
  have hmem : ∀ r ∈ (t.upsertOpen s nowMs).openSignals,
      r ∈ t.openSignals ∨ (r.rawJson = storedForm s ∧ r.signalId = s.id) := by
    intro r hr
    rcases mem_of_mem_upsert hr with rfl | hr | ⟨r', -, hid, rfl⟩
    · exact Or.inr ⟨rfl, rfl⟩
    · exact Or.inl hr
    · exact Or.inr ⟨rfl, hid⟩
  obtain ⟨h1, h2, h3, h4, h5, h6, h7, h8, h9, h10⟩ := h
  refine ⟨?_, fun r hr => ?_, fun r hr => ?_, h4, h5, h6, h7, h8, h9, h10⟩
  · rw [hmap]
    exact h1
  · rcases hmem r hr with hr | ⟨hraw, hid⟩
    · exact h2 r hr
    · rw [hraw, hid]; rfl
  · rcases hmem r hr with hr | ⟨hraw, -⟩
    · exact h3 r hr
    · rw [hraw]; exact hopen

/-! ## The service's invariant -/

structure Persisted (cfg : Settings) (t : Tables) (st : Service) : Prop extends LockInv cfg st where
  accounts : Accounts cfg t st.coordinator.state (st.watchlist.map TradeSignal.key)
  attempt_eq : ∀ s ∈ st.watchlist,
    s.zoneAttempt = st.coordinator.state.zoneSignalCounts (setupOf s).zoneKey

variable {st st' : Service} {found : Tables}

/-- A zone belongs to one lock. -/
theorem lockKey_of_zoneKey (cfg : Settings) (h : (setupOf s).zoneKey = (setupOf s').zoneKey) :
    lockKey cfg s = lockKey cfg s' := by
  have hfields : (⟨s.symbol, s.htfInterval, s.ltfInterval, s.htfRange.timestamp, s.direction⟩ :
      ZoneKey) =
      ⟨s'.symbol, s'.htfInterval, s'.ltfInterval, s'.htfRange.timestamp, s'.direction⟩ := h
  rw [ZoneKey.mk.injEq] at hfields
  obtain ⟨h1, h2, h3, -, h5⟩ := hfields
  rw [lockKey, lockKey, h1, h2, h3, h5]

theorem tablesAfter_append (t : Tables) (calls log : List (StoreOp × Bool)) :
    tablesAfter t (calls ++ log) = tablesAfter (tablesAfter t calls) log :=
  List.foldl_append

theorem Persisted.ids_eq (st : Service) :
    (st.watchlist.map TradeSignal.key).map TradeKey.id = keys TradeSignal.id st.watchlist := by
  rw [List.map_map]
  rfl

/-- The new trade is the only one of its zone: another would hold the lock. -/
theorem Persisted.attempt_emit (h : Persisted cfg t st)
    (hfree : lockKey cfg s ∉ st.coordinator.state.openKeys)
    (hattempt : s.zoneAttempt = (st.coordinator.registerSignal cfg (setupOf s)).2)
    {y : TradeSignal} (hy : y ∈ st.watchlist ++ [s]) : y.zoneAttempt =
      (st.coordinator.registerSignal cfg (setupOf s)).1.state.zoneSignalCounts
        (setupOf y).zoneKey := by
  rw [registerSignal_state, register_counts]
  rcases List.mem_append.mp hy with hy | hy
  · rw [if_neg, h.attempt_eq y hy]
    · rfl
    · intro hz
      refine hfree ?_
      rw [lockKey_of_zoneKey cfg hz]
      exact (h.locks_iff _).mpr (List.mem_map_of_mem hy)
  · rw [List.mem_singleton.mp hy, hattempt, if_pos rfl]
    rfl

/-- A step leaves every trade its attempt and its zone. -/
theorem Persisted.attempt_advance (h : Persisted cfg t st) (hs : s ∈ st.watchlist)
    (hsame : SameTrade s s') {y : TradeSignal}
    (hy : y ∈ overwrite TradeSignal.id s' st.watchlist) :
    y.zoneAttempt = st.coordinator.state.zoneSignalCounts (setupOf y).zoneKey := by
  rcases mem_overwrite hy with ⟨rfl, -⟩ | ⟨hy, -⟩
  · have hsetup : setupOf y = setupOf s := by
      rw [setupOf, setupOf, hsame.symbol_eq, hsame.direction_eq, hsame.htfRange_eq,
        hsame.rejectionCandle_eq, hsame.htfInterval_eq, hsame.ltfInterval_eq]
    rw [hsame.zoneAttempt_eq, hsetup]
    exact h.attempt_eq s hs
  · exact h.attempt_eq y hy

/-- Every move of a process whose store calls succeed keeps the invariant. -/
theorem Persisted.move (h : Persisted cfg (tablesAfter found st.calls) st)
    (hm : TradeMove cfg (fun _ => false) st st') :
    Persisted cfg (tablesAfter found st'.calls) st' := by
  have hlocks := h.toLockInv.move hm.move
  cases hm with
  | aside hw hcalls hstate =>
      have hstate : st'.coordinator.state = st.coordinator.state := by
        rcases hstate with hstate | ⟨now, hstate⟩
        · exact hstate
        · rw [hstate, releaseExpiredDirections_of_none h.locks_lasting]
      refine ⟨hlocks, ?_, ?_⟩
      · rw [hcalls, hstate, hw]
        exact h.accounts
      · rw [hstate, hw]
        exact h.attempt_eq
  | emit s now _ hrej hfree hid hnamed hstatus hattempt hw hc hcalls =>
      have hopen : s.status.isOpen = true := by rw [hstatus]; rfl
      refine ⟨hlocks, ?_, fun y hy => ?_⟩
      · rw [hcalls, tablesAfter_append, hw, hc, List.map_append]
        exact h.accounts.emit hnamed (ids_eq st ▸ hid) hopen hrej _ now
      · rw [hw] at hy
        rw [hc]
        exact h.attempt_emit hfree hattempt hy
  | advance s s' hs hsame hopen hw hc hcalls =>
      have hkeys : st'.watchlist.map TradeSignal.key = st.watchlist.map TradeSignal.key := by
        rw [hw]
        refine map_overwrite (fun y hy hid => ?_)
        rw [hsame.key_eq, h.eq_of_id hy hs (hid.trans hsame.id_eq)]
      refine ⟨hlocks, ?_, fun y hy => ?_⟩
      · rw [hkeys, hc]
        rcases hcalls with hcalls | ⟨now, hcalls⟩
        · rw [hcalls]
          exact h.accounts
        · rw [hcalls, tablesAfter_append]
          refine h.accounts.save ?_ hopen now
          rw [hsame.key_eq]
          exact List.mem_map_of_mem hs
      · rw [hw] at hy
        rw [hc]
        exact h.attempt_advance hs hsame hy
  | close s s' o r hs hsame hw hstate hcalls =>
      have hkeys : st'.watchlist.map TradeSignal.key =
          erase TradeKey.id s.id (st.watchlist.map TradeSignal.key) := by
        rw [hw, erase, erase, List.filter_map]
        rfl
      refine ⟨hlocks, ?_, fun y hy => ?_⟩
      · rw [hcalls, tablesAfter_append, hstate, hkeys]
        exact h.accounts.close (List.mem_map_of_mem hs) hsame o r _ _
      · rw [hstate]
        rw [hw] at hy
        exact h.attempt_eq y (mem_erase.mp hy).1

theorem Persisted.moves (h : Persisted cfg (tablesAfter found st.calls) st)
    (hm : Relation.ReflTransGen (TradeMove cfg (fun _ => false)) st st') :
    Persisted cfg (tablesAfter found st'.calls) st' := by
  induction hm with
  | refl => exact h
  | tail _ hmove ih => exact ih.move hmove

/-! ## Restarts -/

/-- The watched trades hold one lock each. -/
theorem LockInv.onePerLock (h : LockInv cfg st) : OnePerLock cfg st.watchlist :=
  fun _ ha _ hb =>
    ⟨fun heq => congrArg TradeSignal.id (List.inj_on_of_nodup_map h.locks_nodup ha hb heq),
      fun hid => by rw [h.eq_of_id ha hb hid]⟩

/-- What a restart between operations has to meet: no watched signal is older than the expiry,
    and no closed one has its rejection at timestamp 0, which `replay` takes for none. -/
structure RestartReady (cfg : Settings) (t : Tables) (st : Service) (initMs : ℤ) : Prop where
  young : ∀ s ∈ st.watchlist, ¬ s.TooOld cfg initMs
  rejections : ∀ r ∈ t.closedSignals, r.record.rejTs ≠ 0

variable {initMs : ℤ}

/-- The rows a restart takes up are the trades that were watched. -/
theorem Persisted.takenUp_perm (h : Persisted cfg t st) (hready : RestartReady cfg t st initMs) :
    (((t.readableOpenSignals (fun _ => true)).filter (restorable cfg initMs)).map
      TradeSignal.key).Perm (st.watchlist.map TradeSignal.key) := by
  have hrest : ∀ r ∈ t.openSignals, restorable cfg initMs r.rawJson = true := by
    intro r hr
    refine restorable_iff.mpr ⟨h.accounts.rows_open r hr, fun hold => ?_⟩
    have hmem : r.rawJson.key ∈ st.watchlist.map TradeSignal.key :=
      h.accounts.rows_perm.mem_iff.mp (List.mem_map_of_mem (f := fun r => r.rawJson.key) hr)
    obtain ⟨s, hs, hkey⟩ := List.mem_map.mp hmem
    have hcreated : s.createdAt = r.rawJson.createdAt := congrArg TradeKey.createdAt hkey
    refine hready.young s hs ?_
    rw [TradeSignal.TooOld, hcreated]
    exact hold
  have hperm := (SignalEngine.takenUp_perm (fun _ => true) (fun _ _ => rfl) hrest).map
    TradeSignal.key
  rw [List.map_map] at hperm
  exact hperm.trans h.accounts.rows_perm

/-- So they hold one lock each. -/
theorem Persisted.takenUp_onePerLock (h : Persisted cfg t st)
    (hready : RestartReady cfg t st initMs) :
    OnePerLock cfg ((t.readableOpenSignals (fun _ => true)).filter (restorable cfg initMs)) := by
  have hperm := h.takenUp_perm hready
  have hold : ∀ a ∈ (t.readableOpenSignals (fun _ => true)).filter (restorable cfg initMs),
      ∃ y ∈ st.watchlist, y.key = a.key :=
    fun a ha => List.mem_map.mp (hperm.mem_iff.mp (List.mem_map_of_mem ha))
  intro a ha b hb
  obtain ⟨a', ha', hkey⟩ := hold a ha
  obtain ⟨b', hb', hkey'⟩ := hold b hb
  have hone := h.onePerLock a' ha' b' hb'
  have hlock : lockKey cfg a' = lockKey cfg a := congrArg (TradeKey.lockKey cfg) hkey
  have hlock' : lockKey cfg b' = lockKey cfg b := congrArg (TradeKey.lockKey cfg) hkey'
  have hid : a'.id = a.id := congrArg TradeKey.id hkey
  have hid' : b'.id = b.id := congrArg TradeKey.id hkey'
  rwa [hlock, hlock', hid, hid'] at hone

/-- A process that watches nothing and holds no lock. -/
theorem LockInv.of_empty {c : Coordinator} (h : c.state.openDir = []) :
    LockInv cfg { coordinator := c } := by
  refine ⟨⟨List.nodup_nil, fun s hs => by cases hs⟩, ?_, fun k => ?_, List.nodup_nil⟩
  · rw [h]
    exact fun e he => by cases he
  · rw [DedupState.openKeys, h]
    simp

/-- No other watched trade is of a watched trade's zone. -/
theorem LockInv.countP_zone (h : LockInv cfg st) (hs : s ∈ st.watchlist) :
    (st.watchlist.map TradeSignal.key).countP
      (fun k => decide (k.zoneKey = (setupOf s).zoneKey)) = 1 := by
  rw [List.countP_map, (perm_cons_erase h.ids_nodup hs).countP_eq, List.countP_cons,
    List.countP_eq_zero.mpr]
  · have hself : s.key.zoneKey = (setupOf s).zoneKey := rfl
    simp [hself]
  · intro y hy hzone
    obtain ⟨hy, hid⟩ := mem_erase.mp hy
    refine hid ((h.onePerLock y hy s hs).mp (lockKey_of_zoneKey cfg ?_))
    exact of_decide_eq_true hzone

/-- The new process watches the same trades. -/
theorem restarted_watch {rows : List TradeSignal} {c : Coordinator}
    (hwatch : Watching (Service.initializeRows cfg initMs rows { coordinator := c }))
    (hnodup : (keys TradeSignal.id (rows.filter (restorable cfg initMs))).Nodup) :
    ((Service.initializeRows cfg initMs rows { coordinator := c }).watchlist.map
      TradeSignal.key).Perm ((rows.filter (restorable cfg initMs)).map TradeSignal.key) := by
  have hnodup' := hwatch.ids_nodup
  rw [← Persisted.ids_eq] at hnodup'
  have hnodup'' : (((rows.filter (restorable cfg initMs)).map TradeSignal.key).map
      TradeKey.id).Nodup := by
    rw [List.map_map]
    exact hnodup
  refine (List.perm_ext_iff_of_nodup hnodup'.of_map hnodup''.of_map).mpr (fun k => ?_)
  rw [List.mem_map, List.mem_map]
  constructor
  · rintro ⟨s', hs', rfl⟩
    rcases mem_initializeRows hs' with hs' | ⟨s, hs, a, rfl, -⟩
    · cases hs'
    · exact ⟨s, hs, rfl⟩
  · rintro ⟨s, hs, rfl⟩
    have hmem := (mem_ids_initializeRows cfg initMs rows { coordinator := c } s.id).mpr
      (Or.inr (List.mem_map_of_mem hs))
    obtain ⟨s', hs', hid⟩ := mem_keys.mp hmem
    refine ⟨s', hs', ?_⟩
    rcases mem_initializeRows hs' with hs' | ⟨y, hy, a, rfl, -⟩
    · cases hs'
    · have heq : y = s := List.inj_on_of_nodup_map hnodup hy hs hid
      rw [← heq]
      rfl

theorem Persisted.restart (h : Persisted cfg t st) (hready : RestartReady cfg t st initMs)
    {json : List ClosedSignalRecord}
    (hreturns : (restartService cfg (fun _ => true) t json nowMs initMs).2 = none) :
    Persisted cfg t (restartService cfg (fun _ => true) t json nowMs initMs).1 ∧
      ((restartService cfg (fun _ => true) t json nowMs initMs).1.watchlist.map
        TradeSignal.key).Perm (st.watchlist.map TradeSignal.key) := by
  obtain ⟨c, hc, hst⟩ := restartService_of_returns hreturns
  have htaken := h.takenUp_perm hready
  have hone := h.takenUp_onePerLock hready
  rw [hst]
  generalize t.readableOpenSignals (fun _ => true) = rows at htaken hone ⊢
  have hlocks : LockInv cfg (Service.initializeRows cfg initMs rows { coordinator := c }) := by
    refine (LockInv.of_empty hc.openDir_eq).initializeRows ?_
    rw [List.append_nil]
    exact hone
  have hnodup : (keys TradeSignal.id (rows.filter (restorable cfg initMs))).Nodup := by
    have hids := (htaken.map TradeKey.id).nodup_iff.mpr h.accounts.ids_nodup
    rw [List.map_map] at hids
    exact hids
  have hwatch := restarted_watch hlocks.toWatching hnodup
  have hsame := hwatch.trans htaken
  have hcounts := initializeRows_counts cfg initMs rows { coordinator := c }
  have hseen := mem_seenRej_initializeRows cfg initMs rows { coordinator := c }
  have hdead : (Service.initializeRows cfg initMs rows
      { coordinator := c }).coordinator.state.DeadByCount cfg.maxSignalCountPerZone :=
    initializeRows_dead hc.dead initMs rows
  have hattempts : ∀ s' ∈ (Service.initializeRows cfg initMs rows
      { coordinator := c }).watchlist, _ := fun _ hs' => mem_initializeRows hs'
  generalize Service.initializeRows cfg initMs rows { coordinator := c } = st'
    at hlocks hwatch hsame hcounts hseen hdead hattempts ⊢
  have hzones : ∀ z, (rows.filter (restorable cfg initMs)).countP
      (fun s => decide ((setupOf s).zoneKey = z)) =
      (st'.watchlist.map TradeSignal.key).countP (fun k => decide (k.zoneKey = z)) := by
    intro z
    rw [hwatch.countP_eq, List.countP_map]
    rfl
  refine ⟨⟨hlocks, ?_, fun s' hs' => ?_⟩, hsame⟩
  · refine h.accounts.of_perm hsame (fun z => ?_) hdead (fun k => ?_)
    · rw [hcounts, hzones, hc.counts_eq]
    · rw [hseen, hc.seen_iff]
      refine or_congr ?_ ?_
      · exact ⟨fun ⟨r, hr, _, hk⟩ => ⟨r, hr, hk⟩,
          fun ⟨r, hr, hk⟩ => ⟨r, hr, hready.rejections r hr, hk⟩⟩
      · constructor
        · rintro ⟨s, hs, hk⟩
          exact ⟨s.key, hwatch.mem_iff.mpr (List.mem_map_of_mem hs), hk⟩
        · rintro ⟨w, hw, hk⟩
          obtain ⟨s, hs, rfl⟩ := List.mem_map.mp (hwatch.mem_iff.mp hw)
          exact ⟨s, hs, hk⟩
  · -- the attempt lies between the closed count and the count, which are one apart
    have hcount := hlocks.countP_zone hs'
    rcases hattempts s' hs' with hs' | ⟨s, hs, a, rfl, hlow, hhigh⟩
    · cases hs'
    · have hzone : (setupOf (s.withAttempt a)).zoneKey = (setupOf s).zoneKey := rfl
      have hattempt : (s.withAttempt a).zoneAttempt = a := rfl
      rw [hzone] at hcount ⊢
      rw [hcounts, hzones, hcount] at hhigh ⊢
      dsimp only at hlow hhigh ⊢
      omega

/-! ## Runs -/

/-- A restart has rebuilt the state. -/
structure RestartAgrees (st st' : Service) : Prop where
  counts_eq : st'.coordinator.state.zoneSignalCounts = st.coordinator.state.zoneSignalCounts
  dead_eq : st'.coordinator.state.deadZones = st.coordinator.state.deadZones
  seen_eq : st'.coordinator.state.seenRej = st.coordinator.state.seenRej
  locks_iff : ∀ k, k ∈ st'.coordinator.state.openKeys ↔ k ∈ st.coordinator.state.openKeys
  ids_perm : (keys TradeSignal.id st'.watchlist).Perm (keys TradeSignal.id st.watchlist)
  attempt_eq : ∀ s ∈ st.watchlist, ∀ s' ∈ st'.watchlist, s'.id = s.id →
    s'.zoneAttempt = s.zoneAttempt

/-- The tables and the watched trades determine the dedup state. -/
theorem Persisted.agrees (h : Persisted cfg t st) (h' : Persisted cfg t st')
    (hperm : (st'.watchlist.map TradeSignal.key).Perm (st.watchlist.map TradeSignal.key)) :
    RestartAgrees st st' := by
  have hcounts : st'.coordinator.state.zoneSignalCounts =
      st.coordinator.state.zoneSignalCounts := by
    funext z
    rw [h.accounts.counts_eq, h'.accounts.counts_eq, hperm.countP_eq]
  refine ⟨hcounts, ?_, ?_, fun k => ?_, ?_, fun s hs s' hs' hid => ?_⟩
  · ext z
    rw [h.accounts.dead z, h'.accounts.dead z, hcounts]
  · ext k
    rw [h.accounts.seen_iff k, h'.accounts.seen_iff k]
    refine or_congr Iff.rfl ?_
    exact ⟨fun ⟨w, hw, hk⟩ => ⟨w, hperm.mem_iff.mp hw, hk⟩,
      fun ⟨w, hw, hk⟩ => ⟨w, hperm.mem_iff.mpr hw, hk⟩⟩
  · have hlocks := (hperm.map (TradeKey.lockKey cfg)).mem_iff (a := k)
    rw [List.map_map, List.map_map] at hlocks
    rw [h.locks_iff k, h'.locks_iff k]
    exact hlocks
  · have hids := hperm.map TradeKey.id
    rwa [Persisted.ids_eq, Persisted.ids_eq] at hids
  · have hkey : s'.key = s.key :=
      List.inj_on_of_nodup_map h.accounts.ids_nodup
        (hperm.mem_iff.mp (List.mem_map_of_mem hs')) (List.mem_map_of_mem hs) hid
    have hzone : (setupOf s').zoneKey = (setupOf s).zoneKey := congrArg TradeKey.zoneKey hkey
    rw [h.attempt_eq s hs, h'.attempt_eq s' hs', hcounts, hzone]

/-- The runs of a process from an empty database, restarts included. -/
inductive StoreReach (cfg : Settings)
    (profileOf : String → Interval → Interval → AssetProfile) : Tables → Service → Prop
  | start (json : List ClosedSignalRecord) (nowMs initMs : ℤ) :
      (restartService cfg (fun _ => true) Tables.empty json nowMs initMs).2 = none →
      StoreReach cfg profileOf Tables.empty
        (restartService cfg (fun _ => true) Tables.empty json nowMs initMs).1
  | analyzePair {found : Tables} {st : Service} (symbol : String)
      (htfInterval ltfInterval : Interval) (firedAt : ℤ) (io : PairInputs) :
      StoreReach cfg profileOf found st →
      StoreReach cfg profileOf found
        (st.analyzePair cfg profileOf (fun _ => false) symbol htfInterval ltfInterval firedAt io).1
  | evaluateGroup {found : Tables} {st : Service} (clock : SignalId → ℤ) (symbol : String)
      (ltfInterval : Interval) (fetch : FetchRange) (now : ℤ) :
      StoreReach cfg profileOf found st →
      StoreReach cfg profileOf found
        (st.evaluateGroup cfg profileOf (fun _ => false) clock symbol ltfInterval fetch now).1
  | rollover {found : Tables} {st : Service} (now : ℤ) (load : ℤ → List ClosedSignalRecord)
      (nowMs : ℤ) :
      StoreReach cfg profileOf found st →
      StoreReach cfg profileOf found
        { st with coordinator := (st.coordinator.maybeRollover cfg now load nowMs).1 }
  | restart {found : Tables} {st : Service} (json : List ClosedSignalRecord) (nowMs initMs : ℤ) :
      StoreReach cfg profileOf found st →
      RestartReady cfg (tablesAfter found st.calls) st initMs →
      (restartService cfg (fun _ => true) (tablesAfter found st.calls) json nowMs initMs).2 =
        none →
      StoreReach cfg profileOf (tablesAfter found st.calls)
        (restartService cfg (fun _ => true) (tablesAfter found st.calls) json nowMs initMs).1

variable {profileOf : String → Interval → Interval → AssetProfile}

theorem restartService_calls {readable : OpenRow → Bool} {json : List ClosedSignalRecord} :
    (restartService cfg readable t json nowMs initMs).1.calls = [] := by
  unfold restartService
  split
  · rfl
  · rw [initializeRows_calls]

/-- A process on an empty database watches nothing. -/
theorem persisted_start {json : List ClosedSignalRecord}
    (hreturns : (restartService cfg (fun _ => true) Tables.empty json nowMs initMs).2 = none) :
    Persisted cfg Tables.empty
      (restartService cfg (fun _ => true) Tables.empty json nowMs initMs).1 := by
  obtain ⟨c, hc, hst⟩ := restartService_of_returns hreturns
  have hst' : Service.initializeRows cfg initMs
      (Tables.empty.readableOpenSignals (fun _ => true)) { coordinator := c } =
      { coordinator := c } := rfl
  rw [hst, hst']
  refine ⟨LockInv.of_empty hc.openDir_eq, ?_, fun s hs => by cases hs⟩
  refine ⟨.refl _, ?_, ?_, List.nodup_nil, ?_, ?_, ?_, hc.counts_eq, hc.dead, fun k => ?_⟩
  · exact fun r hr => by cases hr
  · exact fun r hr => by cases hr
  · exact fun k hk => by cases hk
  · exact fun r hr => by cases hr
  · exact fun k hk => by cases hk
  · have hseen := hc.seen_iff k
    simpa [Tables.empty] using hseen

theorem StoreReach.persisted (h : StoreReach cfg profileOf found st) :
    Persisted cfg (tablesAfter found st.calls) st := by
  induction h with
  | start json nowMs initMs hreturns =>
      rw [restartService_calls]
      exact persisted_start hreturns
  | analyzePair symbol htfInterval ltfInterval firedAt io _ ih =>
      exact ih.moves (analyzePair_tradeMoves profileOf symbol htfInterval ltfInterval firedAt io)
  | evaluateGroup clock symbol ltfInterval fetch now _ ih =>
      exact ih.moves (evaluateGroup_tradeMoves profileOf clock symbol ltfInterval fetch now
        ih.toWatching)
  | rollover now load nowMs _ ih =>
      exact ih.move (.aside rfl rfl (Or.inl maybeRollover_state))
  | restart json nowMs initMs _ hready hreturns ih =>
      rw [restartService_calls]
      exact (ih.restart hready hreturns).1

/-- **A restart rebuilds the dedup state**: at any point of any run, while no watched signal is
    older than the expiry and no closed rejection is at timestamp 0. -/
theorem restart_agrees (h : StoreReach cfg profileOf found st)
    (hready : RestartReady cfg (tablesAfter found st.calls) st initMs)
    {json : List ClosedSignalRecord}
    (hreturns : (restartService cfg (fun _ => true) (tablesAfter found st.calls) json nowMs
      initMs).2 = none) :
    RestartAgrees st
      (restartService cfg (fun _ => true) (tablesAfter found st.calls) json nowMs initMs).1 := by
  obtain ⟨h', hperm⟩ := h.persisted.restart hready hreturns
  exact h.persisted.agrees h' hperm

/-! ## A sample process

It emits one gold long, whose rejection candle opens at `t0`. -/

def sampleProfiles : String → Interval → Interval → AssetProfile :=
  fun _ _ _ => { sampleProfile with htfLookback := 6 }

/-- Twelve hourly candles, the last of which breaks structure upward. -/
def hourlyBefore (t0 : ℤ) : List Candle :=
  (List.range 7).map (fun i => (⟨t0 - 43200000 + i * 3600000, 10, 11, 9, 10, 0⟩ : Candle)) ++
    [⟨t0 - 18000000, 10, 13, 19 / 2, 12, 0⟩, ⟨t0 - 14400000, 12, 12, 10, 21 / 2, 0⟩,
      ⟨t0 - 10800000, 21 / 2, 11, 8, 9, 0⟩, ⟨t0 - 7200000, 9, 12, 17 / 2, 11, 0⟩,
      ⟨t0 - 3600000, 11, 15, 10, 14, 0⟩]

/-- An hour of five-minute candles, then the one that dips into the zone. -/
def fiveMinBefore (t0 : ℤ) : List Candle :=
  (List.range 12).map
      (fun i => (⟨t0 - 3600000 + i * 300000, 9, 92 / 10, 88 / 10, 9, 0⟩ : Candle)) ++
    [⟨t0, 9, 92 / 10, 82 / 10, 9, 0⟩]

def sampleInputs (t0 : ℤ) : PairInputs where
  htfFull := hourlyBefore t0
  fetchLtf := fun _ _ => fiveMinBefore t0
  realNow := fun _ => t0 + 300000
  detectedAt := fun _ => t0 + 300000
  streakNow := fun _ => t0 + 300000
  tick := fun _ => (none, none)
  load := fun _ => []

/-- The process after its first analysis. -/
def emittedService (t0 : ℤ) : Service :=
  ((restartService sampleSettings (fun _ => true) Tables.empty [] t0 t0).1.analyzePair
    sampleSettings sampleProfiles (fun _ => false) "XAUUSD" oneHour fiveMin (t0 + 300000)
    (sampleInputs t0)).1

theorem emittedService_reach (t0 : ℤ) :
    StoreReach sampleSettings sampleProfiles Tables.empty (emittedService t0) :=
  .analyzePair "XAUUSD" oneHour fiveMin (t0 + 300000) (sampleInputs t0) (.start [] t0 t0 rfl)

/-- Restarted at the next candle, the process is back where it was. -/
theorem emittedService_agrees :
    RestartAgrees (emittedService 1767225600000)
      (restartService sampleSettings (fun _ => true)
        (tablesAfter Tables.empty (emittedService 1767225600000).calls) [] 1767225900000
        1767225900000).1 := by
  refine restart_agrees (emittedService_reach 1767225600000) ⟨?_, ?_⟩ (by decide +kernel)
  · have hage : ∀ s ∈ (emittedService 1767225600000).watchlist,
        ¬ sampleSettings.signalExpiryHours * msPerHour <
          ((1767225900000 - s.createdAt : ℤ) : ℚ) := by
      decide +kernel
    exact hage
  · decide +kernel

/-- The process that took its rejection at timestamp 0, after the trade's stop was hit. -/
def epochService : Service :=
  ((emittedService 0).evaluateGroup sampleSettings sampleProfiles (fun _ => false)
    (fun _ => 900000) "XAUUSD" fiveMin
    (fun _ _ => [⟨300000, 9, 92 / 10, 88 / 10, 9, 0⟩, ⟨600000, 9, 9, 7, 8, 0⟩]) 900000).1

/-- Restarted, it has forgotten that rejection. -/
theorem epoch_rejection_forgotten :
    StoreReach sampleSettings sampleProfiles Tables.empty epochService ∧
      (∀ s ∈ epochService.watchlist, ¬ s.TooOld sampleSettings 900000) ∧
      (restartService sampleSettings (fun _ => true)
        (tablesAfter Tables.empty epochService.calls) [] 900000 900000).2 = none ∧
      ¬ RestartAgrees epochService
        (restartService sampleSettings (fun _ => true)
          (tablesAfter Tables.empty epochService.calls) [] 900000 900000).1 := by
  have hwatch : epochService.watchlist = [] := by decide +kernel
  refine ⟨.evaluateGroup _ _ _ _ _ (emittedService_reach 0), ?_, by decide +kernel, fun h => ?_⟩
  · rw [hwatch]
    exact fun s hs => by cases hs
  · have hseen := h.seen_eq
    revert hseen
    decide +kernel

end SignalEngine
