/-
  Lock safety: the direction locks are those of the watched signals.

  The lock table belongs to the coordinator and the watchlist to the service; emitting,
  restoring and closing write both, each in one block. `LockInv` is kept by every `Move` and by
  every restored row.

  Proved: `lockSafe_of_reach`, for any configuration and any store faults.
-/
import SignalEngine.Services.Moves

namespace SignalEngine

open Lib

structure LockSafe (cfg : Settings) (st : Service) : Prop where
  locks_iff : ∀ k, k ∈ st.coordinator.state.openKeys ↔ k ∈ st.watchlist.map (lockKey cfg)
  locks_nodup : (st.watchlist.map (lockKey cfg)).Nodup
  status_open : ∀ s ∈ st.watchlist, s.status = .triggered ∨ s.status = .tp1Hit

structure LockInv (cfg : Settings) (st : Service) : Prop extends Watching st where
  locks_lasting : ∀ e ∈ st.coordinator.state.openDir, e.2 = none
  locks_iff : ∀ k, k ∈ st.coordinator.state.openKeys ↔ k ∈ st.watchlist.map (lockKey cfg)
  locks_nodup : (st.watchlist.map (lockKey cfg)).Nodup

theorem isOpen_iff {status : SignalStatus} :
    status.isOpen = true ↔ status = .triggered ∨ status = .tp1Hit := by
  cases status <;> decide

variable {cfg : Settings} {profileOf : String → Interval → Interval → AssetProfile}
  {raises : ℕ → Bool} {st st' : Service} {s : TradeSignal}

theorem LockInv.safe (h : LockInv cfg st) : LockSafe cfg st :=
  ⟨h.locks_iff, h.locks_nodup, fun s hs => isOpen_iff.mp (h.open_of_mem s hs)⟩

/-! ## Moves -/

/-- The locks after a registration last like those before it. -/
theorem register_lasting (h : ∀ e ∈ st.coordinator.state.openDir, e.2 = none) (x : Setup) :
    ∀ e ∈ (st.coordinator.registerSignal cfg x).1.state.openDir, e.2 = none := by
  intro e he
  rcases mem_of_mem_put he with rfl | he
  · rfl
  · exact h e he

theorem LockInv.emit (h : LockInv cfg st) {x : Setup}
    (hfree : x.dirKey cfg.multiTfIndependentPositions ∉ st.coordinator.state.openKeys)
    (hlock : lockKey cfg s = x.dirKey cfg.multiTfIndependentPositions)
    (hwatching : Watching st') (hw : st'.watchlist = st.watchlist ++ [s])
    (hc : st'.coordinator = (st.coordinator.registerSignal cfg x).1) : LockInv cfg st' := by
  refine ⟨hwatching, ?_, fun k => ?_, ?_⟩
  · rw [hc]
    exact register_lasting h.locks_lasting x
  · rw [hc, hw, Coordinator.registerSignal, mem_openKeys_register, h.locks_iff k, List.map_append,
      List.mem_append, List.map_singleton, List.mem_singleton, hlock]
    exact or_comm
  · rw [hw]
    refine nodup_keys_concat h.locks_nodup (fun hmem => hfree ?_)
    rw [← hlock]
    exact (h.locks_iff _).mpr hmem

theorem LockInv.close (h : LockInv cfg st) (hs : s ∈ st.watchlist) (hwatching : Watching st')
    (hw : st'.watchlist = erase TradeSignal.id s.id st.watchlist)
    (hstate : st'.coordinator.state =
      st.coordinator.state.releaseDirection (lockKey cfg s)) : LockInv cfg st' := by
  refine ⟨hwatching, ?_, fun k => ?_, ?_⟩
  · rw [hstate]
    exact fun e he => h.locks_lasting e (mem_erase.mp he).1
  · rw [hstate, hw, mem_openKeys_releaseDirection, h.locks_iff k, List.mem_map, List.mem_map]
    constructor
    · rintro ⟨⟨y, hy, rfl⟩, hne⟩
      exact ⟨y, mem_erase.mpr ⟨hy, fun hid => hne (by rw [h.eq_of_id hy hs hid])⟩, rfl⟩
    · rintro ⟨y, hy, rfl⟩
      obtain ⟨hy, hid⟩ := mem_erase.mp hy
      exact ⟨⟨y, hy, rfl⟩,
        fun heq => hid (by rw [List.inj_on_of_nodup_map h.locks_nodup hy hs heq])⟩
  · rw [hw]
    exact h.locks_nodup.sublist (List.Sublist.map _ List.filter_sublist)

theorem LockInv.move (h : LockInv cfg st) (hm : Move cfg st st') : LockInv cfg st' := by
  have hwatching := h.toWatching.move hm
  cases hm with
  | aside hw _ hstate =>
      have hstate : st'.coordinator.state = st.coordinator.state := by
        rcases hstate with hstate | ⟨now, hstate⟩
        · exact hstate
        · rw [hstate, releaseExpiredDirections_of_none h.locks_lasting]
      refine ⟨hwatching, ?_, ?_, ?_⟩
      · rw [hstate]; exact h.locks_lasting
      · rw [hstate, hw]; exact h.locks_iff
      · rw [hw]; exact h.locks_nodup
  | emit x s now ok hfree _ _ hlock hw hc _ => exact h.emit hfree hlock hwatching hw hc
  | advance s s' hs hsame _ hw hc _ =>
      have hmap : st'.watchlist.map (lockKey cfg) = st.watchlist.map (lockKey cfg) := by
        rw [hw]
        refine map_overwrite (fun y hy hid => ?_)
        rw [hsame.lockKey_eq, h.eq_of_id hy hs (hid.trans hsame.id_eq)]
      refine ⟨hwatching, ?_, ?_, ?_⟩
      · rw [hc]; exact h.locks_lasting
      · rw [hc, hmap]; exact h.locks_iff
      · rw [hmap]; exact h.locks_nodup
  | close s rec day ok ok' hs _ hw hstate _ => exact h.close hs hwatching hw hstate

theorem LockInv.moves (h : LockInv cfg st) (hm : Relation.ReflTransGen (Move cfg) st st') :
    LockInv cfg st' := by
  induction hm with
  | refl => exact h
  | tail _ hmove ih => exact ih.move hmove

/-! ## Restored rows -/

theorem OnePerLock.restore {nowMs : ℤ} {rest : List TradeSignal}
    (hone : OnePerLock cfg ((s :: rest).filter (restorable cfg nowMs) ++ st.watchlist)) :
    OnePerLock cfg (rest.filter (restorable cfg nowMs) ++
      (st.restore cfg nowMs s).watchlist) := by
  -- a restored signal differs from its row in `zone_attempt` only
  have hold : ∀ a ∈ rest.filter (restorable cfg nowMs) ++ (st.restore cfg nowMs s).watchlist,
      ∃ b ∈ (s :: rest).filter (restorable cfg nowMs) ++ st.watchlist,
        lockKey cfg a = lockKey cfg b ∧ a.id = b.id := by
    intro a ha
    rcases List.mem_append.mp ha with ha | ha
    · obtain ⟨hmem, hr⟩ := List.mem_filter.mp ha
      exact ⟨a, List.mem_append_left _ (List.mem_filter.mpr ⟨List.mem_cons_of_mem _ hmem, hr⟩),
        rfl, rfl⟩
    · unfold Service.restore at ha
      split at ha
      · next hr =>
          rcases mem_of_mem_put ha with rfl | ha
          · exact ⟨s, List.mem_append_left _ (List.mem_filter.mpr ⟨List.mem_cons_self, hr⟩),
              rfl, rfl⟩
          · exact ⟨a, List.mem_append_right _ ha, rfl, rfl⟩
      · exact ⟨a, List.mem_append_right _ ha, rfl, rfl⟩
  intro a ha b hb
  obtain ⟨a', ha', hlock, hid⟩ := hold a ha
  obtain ⟨b', hb', hlock', hid'⟩ := hold b hb
  rw [hlock, hlock', hid, hid']
  exact hone a' ha' b' hb'

/-- Putting a signal on the watchlist and registering it, where its id and its lock are both
    new or both those of one entry. -/
theorem LockInv.put (h : LockInv cfg st) {x : Setup}
    (hlock : lockKey cfg s = x.dirKey cfg.multiTfIndependentPositions)
    (hopen : s.status.isOpen = true)
    (heq : ∀ y ∈ st.watchlist, lockKey cfg y = lockKey cfg s ↔ y.id = s.id)
    (hw : st'.watchlist = put TradeSignal.id s st.watchlist)
    (hc : st'.coordinator = (st.coordinator.registerSignal cfg x).1) : LockInv cfg st' := by
  have hwatching : Watching st' := by
    refine ⟨hw ▸ nodup_keys_put h.ids_nodup, fun y hy => ?_⟩
    rw [hw] at hy
    rcases mem_of_mem_put hy with rfl | hy
    · exact hopen
    · exact h.open_of_mem y hy
  by_cases hmem : s.id ∈ keys TradeSignal.id st.watchlist
  · have hmap : st'.watchlist.map (lockKey cfg) = st.watchlist.map (lockKey cfg) := by
      rw [hw]
      exact map_put_of_mem (fun y hy hid => (heq y hy).mpr hid) hmem
    obtain ⟨y, hy, hid⟩ := mem_keys.mp hmem
    have hin : lockKey cfg s ∈ st.watchlist.map (lockKey cfg) :=
      (heq y hy).mpr hid ▸ List.mem_map_of_mem hy
    refine ⟨hwatching, ?_, fun k => ?_, ?_⟩
    · rw [hc]
      exact register_lasting h.locks_lasting x
    · rw [hmap, hc, Coordinator.registerSignal, mem_openKeys_register, h.locks_iff k, ← hlock]
      exact ⟨fun hk => hk.elim (fun hk => hk ▸ hin) id, Or.inr⟩
    · rw [hmap]
      exact h.locks_nodup
  · refine h.emit ?_ hlock hwatching (hw.trans (put_of_new hmem)) hc
    rw [← hlock, h.locks_iff, List.mem_map]
    rintro ⟨y, hy, hy'⟩
    exact hmem ((heq y hy).mp hy' ▸ List.mem_map_of_mem hy)

theorem LockInv.restore (h : LockInv cfg st) {nowMs : ℤ}
    (hone : restorable cfg nowMs s = true → OnePerLock cfg (s :: st.watchlist)) :
    LockInv cfg (st.restore cfg nowMs s) := by
  unfold Service.restore
  split
  · next hr =>
      refine h.put (s := s.withAttempt _) (x := setupOf s) rfl ?_ (fun y hy => ?_) rfl rfl
      · exact (Bool.and_eq_true _ _ ▸ hr : _ ∧ _).1
      · exact hone hr y (List.mem_cons_of_mem _ hy) s List.mem_cons_self
  · exact h

theorem LockInv.initializeRows (h : LockInv cfg st) {nowMs : ℤ} {rows : List TradeSignal}
    (hone : OnePerLock cfg (rows.filter (restorable cfg nowMs) ++ st.watchlist)) :
    LockInv cfg (st.initializeRows cfg nowMs rows) := by
  unfold Service.initializeRows
  induction rows generalizing st with
  | nil => exact h
  | cons s rest ih =>
      rw [List.foldl_cons]
      refine ih (h.restore (fun hr => ?_)) hone.restore
      rw [List.filter_cons_of_pos hr] at hone
      intro a ha b hb
      have hsub : ∀ y ∈ s :: st.watchlist,
          y ∈ s :: rest.filter (restorable cfg nowMs) ++ st.watchlist := by
        intro y hy
        rcases List.mem_cons.mp hy with rfl | hy
        · exact List.mem_cons_self
        · exact List.mem_append_right _ hy
      exact hone a (hsub a ha) b (hsub b hb)

/-! ## Runs -/

theorem LockInv.step (h : LockInv cfg st) (hstep : ServiceStep cfg profileOf raises st st') :
    LockInv cfg st' := by
  cases hstep with
  | initializeRows nowMs rows hone => exact h.initializeRows hone
  | analyzePair symbol htfInterval ltfInterval firedAt io =>
      exact h.moves (analyzePair_moves profileOf symbol htfInterval ltfInterval firedAt io)
  | evaluateGroup clock symbol ltfInterval fetch now =>
      exact h.moves (evaluateGroup_moves profileOf clock symbol ltfInterval fetch now h.toWatching)
  | rollover now load nowMs => exact h.move (.aside rfl rfl (Or.inl maybeRollover_state))

theorem ServiceReach.lockInv (h : ServiceReach cfg profileOf raises st) : LockInv cfg st := by
  induction h with
  | start nowMs records closed _ =>
      have hempty := start_openDir cfg nowMs records closed
      refine ⟨⟨List.nodup_nil, fun s hs => by cases hs⟩, ?_, fun k => ?_, List.nodup_nil⟩
      · rw [hempty]
        exact fun e he => by cases he
      · rw [DedupState.openKeys, hempty]
        simp
  | step _ hstep ih => exact ih.step hstep

/-- **Lock safety**: in every reachable state the locks held are those of the watched signals,
    no two of which share one, and every watched signal is open. -/
theorem lockSafe_of_reach (h : ServiceReach cfg profileOf raises st) : LockSafe cfg st :=
  h.lockInv.safe

/-- A new process that has taken up the sample trade again. -/
def sampleService : Service :=
  Service.initializeRows sampleSettings 7500000 [sampleSignal]
    { coordinator := (Coordinator.start sampleSettings 7500000 [] []).1 }

theorem sampleService_safe : LockSafe sampleSettings sampleService := by
  have hreach : ServiceReach sampleSettings (fun _ _ _ => sampleProfile) (fun _ => false)
      sampleService :=
    .step (.start 7500000 [] [] rfl) (.initializeRows 7500000 [sampleSignal] (by decide +kernel))
  exact lockSafe_of_reach hreach

end SignalEngine
