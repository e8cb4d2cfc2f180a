/-
  Dedup safety: what holds over whole runs of a coordinator.

  Model. A `Ledger` is the coordinator with what a run has done so far: the setups registered,
  in order, with the attempt each got back, and those not closed yet. `LedgerStep` is one
  operation; `emit` is `should_emit` followed by `register_signal` on the same setup, as the
  engine calls them. Every call may carry any clock, any day and any reloaded records.

  Proved: `LedgerInv` holds at the start and is kept by each operation (`LedgerInv.emit`,
  `LedgerInv.close`), so every reachable ledger is `DedupSafe`.
-/
import SignalEngine.Domain.Builder
import SignalEngine.Session.Coordinator

namespace SignalEngine

open Lib

structure Ledger where
  coordinator : Coordinator
  registered : List (Setup × ℕ) := []
  openSetups : List Setup := []

/-- The registrations of one zone. -/
def ofZone (registered : List (Setup × ℕ)) (z : ZoneKey) : List (Setup × ℕ) :=
  registered.filter (fun r => decide (r.1.zoneKey = z))

/-- The record is about the signal registered for the setup. -/
structure RecordOf (x : Setup) (rec : ClosedSignalRecord) : Prop where
  symbol_eq : rec.symbol = x.symbol
  direction_eq : rec.direction = x.direction
  htfInterval_eq : rec.htfInterval = x.htfInterval
  ltfInterval_eq : rec.ltfInterval = x.ltfInterval

inductive LedgerStep (cfg : Settings) (L : Ledger) : Ledger → Prop
  | rollover (now : ℤ) (load : ℤ → List ClosedSignalRecord) (nowMs : ℤ) :
      LedgerStep cfg L { L with coordinator := (L.coordinator.maybeRollover cfg now load nowMs).1 }
  | check (x : Setup) (now : ℤ) (load : ℤ → List ClosedSignalRecord) (nowMs : ℤ) :
      LedgerStep cfg L { L with coordinator := (L.coordinator.shouldEmit cfg x now load nowMs).1 }
  | emit (x : Setup) (now : ℤ) (load : ℤ → List ClosedSignalRecord) (nowMs : ℤ) :
      (L.coordinator.shouldEmit cfg x now load nowMs).2 = .ok none →
      LedgerStep cfg L
        { coordinator :=
            ((L.coordinator.shouldEmit cfg x now load nowMs).1.registerSignal cfg x).1
          registered := L.registered ++
            [(x, ((L.coordinator.shouldEmit cfg x now load nowMs).1.registerSignal cfg x).2)]
          openSetups := L.openSetups ++ [x] }
  | close (x : Setup) (rec : ClosedSignalRecord) (nowMs : ℤ) :
      x ∈ L.openSetups → RecordOf x rec →
      LedgerStep cfg L
        { L with
          coordinator := (L.coordinator.recordOutcome cfg rec nowMs).1
          openSetups := L.openSetups.erase x }

/-- The ledgers of the runs that start from an empty dedup state. -/
inductive LedgerReach (cfg : Settings) : Ledger → Prop
  | start (c : Coordinator) : c.state = {} → LedgerReach cfg { coordinator := c }
  | step {L L' : Ledger} : LedgerReach cfg L → LedgerStep cfg L L' → LedgerReach cfg L'

/-! ## Safety and its invariant -/

structure DedupSafe (cfg : Settings) (L : Ledger) : Prop where
  attempts_eq : ∀ z,
    (ofZone L.registered z).map Prod.snd = List.range' 1 (ofZone L.registered z).length
  attempts_le : ∀ r ∈ L.registered, r.2 ≤ cfg.maxSignalCountPerZone
  counts_eq : ∀ z, L.coordinator.state.zoneSignalCounts z = (ofZone L.registered z).length
  dead_iff : ∀ z, z ∈ L.coordinator.state.deadZones ↔
    cfg.maxSignalCountPerZone ≤ L.coordinator.state.zoneSignalCounts z
  rejections_nodup : (L.registered.map (fun r => r.1.rejKey)).Nodup
  locks_nodup : (L.openSetups.map (Setup.dirKey cfg.multiTfIndependentPositions)).Nodup

/-- What carries `DedupSafe` through a run. -/
structure LedgerInv (cfg : Settings) (L : Ledger) : Prop extends DedupSafe cfg L where
  seen_iff : ∀ k, k ∈ L.coordinator.state.seenRej ↔ k ∈ L.registered.map (fun r => r.1.rejKey)
  locks_iff : ∀ k, k ∈ L.coordinator.state.openKeys ↔
    k ∈ L.openSetups.map (Setup.dirKey cfg.multiTfIndependentPositions)
  locks_lasting : ∀ e ∈ L.coordinator.state.openDir, e.2 = none

variable {cfg : Settings} {L : Ledger}

theorem LedgerInv.start (h : 1 ≤ cfg.maxSignalCountPerZone) {c : Coordinator}
    (hc : c.state = {}) : LedgerInv cfg { coordinator := c } := by
  have hstate : ({ coordinator := c } : Ledger).coordinator.state = {} := hc
  constructor
  · constructor
    · intro z; rfl
    · simp
    · intro z; rw [hstate]; rfl
    · intro z
      rw [hstate]
      simp only [Finset.notMem_empty, false_iff]
      omega
    · exact List.nodup_nil
    · exact List.nodup_nil
  · intro k; rw [hstate]; simp
  · intro k; rw [hstate]; simp [DedupState.openKeys]
  · rw [hstate]; simp

/-- The invariant looks at the dedup state only. -/
theorem LedgerInv.of_state_eq (h : LedgerInv cfg L) {c : Coordinator}
    (hc : c.state = L.coordinator.state) : LedgerInv cfg { L with coordinator := c } := by
  obtain ⟨⟨h1, h2, h3, h4, h5, h6⟩, h7, h8, h9⟩ := h
  constructor
  · exact ⟨h1, h2, by rw [hc]; exact h3, by rw [hc]; exact h4, h5, h6⟩
  · rw [hc]; exact h7
  · rw [hc]; exact h8
  · rw [hc]; exact h9

theorem ofZone_append (registered : List (Setup × ℕ)) (r : Setup × ℕ) (z : ZoneKey) :
    ofZone (registered ++ [r]) z = ofZone registered z ++ if r.1.zoneKey = z then [r] else [] := by
  unfold ofZone
  rw [List.filter_append]
  congr 1
  split
  · next h => rw [List.filter_cons_of_pos (by simpa using h), List.filter_nil]
  · next h => rw [List.filter_cons_of_neg (by simpa using h), List.filter_nil]

/-- The new registration of its zone is the next attempt. -/
theorem DedupSafe.attempts_emit (h : DedupSafe cfg L) (x : Setup) (z : ZoneKey) :
    let registered := L.registered ++ [(x, (L.coordinator.registerSignal cfg x).2)]
    (ofZone registered z).map Prod.snd = List.range' 1 (ofZone registered z).length := by
  have hattempt : (L.coordinator.registerSignal cfg x).2 =
      (ofZone L.registered x.zoneKey).length + 1 := by
    rw [← h.counts_eq]
    rfl
  have hz := h.attempts_eq z
  intro registered
  rw [ofZone_append]
  by_cases hxz : x.zoneKey = z
  · subst hxz
    rw [if_pos rfl, List.map_append, hz, List.length_append, List.length_singleton,
      List.range'_concat, List.map_cons, List.map_nil, hattempt, Nat.one_mul, Nat.add_comm]
  · simpa [hxz] using hz

/-- Registering an allowed setup keeps the invariant. -/
theorem LedgerInv.emit (h : LedgerInv cfg L) {x : Setup}
    (hcount : L.coordinator.state.zoneSignalCounts x.zoneKey < cfg.maxSignalCountPerZone)
    (hrej : x.rejKey ∉ L.coordinator.state.seenRej)
    (hlock : x.dirKey cfg.multiTfIndependentPositions ∉ L.coordinator.state.openKeys) :
    LedgerInv cfg
      { coordinator := (L.coordinator.registerSignal cfg x).1
        registered := L.registered ++ [(x, (L.coordinator.registerSignal cfg x).2)]
        openSetups := L.openSetups ++ [x] } := by
  constructor
  · constructor
    · exact h.attempts_emit x
    · intro r hr
      rcases List.mem_append.mp hr with hr | hr
      · exact h.attempts_le r hr
      · rw [List.mem_singleton.mp hr]
        exact hcount
    · intro z
      have hz := h.counts_eq z
      rw [ofZone_append, List.length_append, registerSignal_state, register_counts, hz]
      congr 1
      split <;> rfl
    · intro z
      have hz := h.dead_iff z
      rw [registerSignal_state, mem_deadZones_register, register_counts, hz]
      by_cases hxz : x.zoneKey = z
      · subst hxz
        simp only [true_and, if_true]
        omega
      · simp [hxz, Ne.symm hxz]
    · exact nodup_keys_concat h.rejections_nodup (fun hmem => hrej ((h.seen_iff _).mpr hmem))
    · exact nodup_keys_concat h.locks_nodup (fun hmem => hlock ((h.locks_iff _).mpr hmem))
  · intro k
    rw [registerSignal_state, register_seenRej, Finset.mem_insert, h.seen_iff k, List.map_append,
      List.mem_append, List.map_cons, List.map_nil, List.mem_singleton]
    exact or_comm
  · intro k
    rw [registerSignal_state, mem_openKeys_register, h.locks_iff k, List.map_append,
      List.mem_append, List.map_cons, List.map_nil, List.mem_singleton]
    exact or_comm
  · intro e he
    have hput : (L.coordinator.registerSignal cfg x).1.state.openDir =
        L.coordinator.state.openDir ++ [(x.dirKey cfg.multiTfIndependentPositions, none)] :=
      put_of_new hlock
    rw [hput] at he
    rcases List.mem_append.mp he with he | he
    · exact h.locks_lasting e he
    · rw [List.mem_singleton.mp he]

/-- Closing an open signal frees its lock and no other. -/
theorem LedgerInv.close (h : LedgerInv cfg L) {x : Setup} {rec : ClosedSignalRecord}
    (hx : x ∈ L.openSetups) (hrec : RecordOf x rec) (nowMs : ℤ) :
    LedgerInv cfg
      { L with
        coordinator := (L.coordinator.recordOutcome cfg rec nowMs).1
        openSetups := L.openSetups.erase x } := by
  have hkey : recordKey cfg rec = x.dirKey cfg.multiTfIndependentPositions := by
    rw [recordKey, Setup.dirKey, hrec.symbol_eq, hrec.direction_eq, hrec.htfInterval_eq,
      hrec.ltfInterval_eq]
  have hstate : (L.coordinator.recordOutcome cfg rec nowMs).1.state =
      L.coordinator.state.releaseDirection (x.dirKey cfg.multiTfIndependentPositions) := by
    rw [Coordinator.recordOutcome, applyStreak_state, Coordinator.closeRecord, hkey]
  obtain ⟨⟨h1, h2, h3, h4, h5, h6⟩, h7, h8, h9⟩ := h
  have hsub := List.Sublist.map (Setup.dirKey cfg.multiTfIndependentPositions)
    (List.erase_sublist (a := x) (l := L.openSetups))
  constructor
  · refine ⟨h1, h2, ?_, ?_, h5, h6.sublist hsub⟩
    · rw [hstate]; exact h3
    · rw [hstate]; exact h4
  · rw [hstate]; exact h7
  · intro k
    rw [hstate, mem_openKeys_releaseDirection, h8 k, List.mem_map, List.mem_map]
    have hnodup := h6.of_map
    constructor
    · rintro ⟨⟨y, hy, rfl⟩, hne⟩
      exact ⟨y, (hnodup.mem_erase_iff).mpr ⟨fun hyx => hne (by rw [hyx]), hy⟩, rfl⟩
    · rintro ⟨y, hy, rfl⟩
      obtain ⟨hyx, hy⟩ := hnodup.mem_erase_iff.mp hy
      exact ⟨⟨y, hy, rfl⟩, fun heq => hyx (List.inj_on_of_nodup_map h6 hy hx heq)⟩
  · intro e he
    rw [hstate] at he
    exact h9 e (mem_erase.mp he).1

theorem LedgerInv.step (h : LedgerInv cfg L) {L' : Ledger} (hstep : LedgerStep cfg L L') :
    LedgerInv cfg L' := by
  cases hstep with
  | rollover now load nowMs => exact h.of_state_eq maybeRollover_state
  | check x now load nowMs =>
      exact h.of_state_eq (shouldEmit_state_of_none cfg h.locks_lasting x now load nowMs)
  | emit x now load nowMs hall =>
      have hchecked :=
        h.of_state_eq (shouldEmit_state_of_none cfg h.locks_lasting x now load nowMs)
      obtain ⟨hcount, hrej, hlock⟩ := shouldEmit_allowed cfg _ x now load nowMs hall
      exact hchecked.emit hcount hrej hlock
  | close x rec nowMs hx hrec => exact h.close hx hrec nowMs

theorem LedgerReach.inv (hmax : 1 ≤ cfg.maxSignalCountPerZone) (h : LedgerReach cfg L) :
    LedgerInv cfg L := by
  induction h with
  | start c hc => exact LedgerInv.start hmax hc
  | step _ hstep ih => exact ih.step hstep

/-- **Dedup safety**: over any run, each zone's attempts count up from 1 within the limit, the
    tables say exactly what was registered, no rejection is registered twice and no lock has
    two open holders. -/
theorem dedupSafe_of_reach (hmax : 1 ≤ cfg.maxSignalCountPerZone) (h : LedgerReach cfg L) :
    DedupSafe cfg L :=
  (h.inv hmax).toDedupSafe

/-- The sample trade's setup. -/
def sampleSetup : Setup := ⟨"XAUUSD", .long, sampleRange, sampleRejection, oneHour, fiveMin⟩

/-- The zone is swept again the next day. -/
def nextDaySetup : Setup :=
  { sampleSetup with rejection := { sampleRejection with timestamp := 93600000 } }

def setupLoss : ClosedSignalRecord where
  signalId := sampleId
  symbol := "XAUUSD"
  direction := .long
  outcome := .loss
  realizedRr := -1
  closedAt := 7800000
  htfInterval := oneHour
  ltfInterval := fiveMin

/-- A signal that is closed, a new day, and a second signal of the zone under the lock that is
    free again. -/
theorem sampleLedger_safe :
    ∃ L : Ledger, DedupSafe { sampleSettings with maxSignalCountPerZone := 2 } L ∧
      L.registered = [(sampleSetup, 1), (nextDaySetup, 2)] ∧ L.openSetups = [nextDaySetup] ∧
      L.coordinator.sessionDay = 1 :=
  ⟨_, dedupSafe_of_reach (by decide)
    (.step (.step (.step (.step (.start { sessionDay := 0 } rfl)
      (.emit sampleSetup 7500000 (fun _ => []) 7500000 (by decide +kernel)))
      (.close sampleSetup setupLoss 7800000 (by decide +kernel) ⟨rfl, rfl, rfl, rfl⟩))
      (.rollover 93900000 (fun _ => []) 93900000))
      (.emit nextDaySetup 93900000 (fun _ => []) 93900000 (by decide +kernel))),
    by decide +kernel, by decide +kernel, by decide +kernel⟩

end SignalEngine
