/-
  Crash safety: which trades a stopped process leaves behind in its store.

  A process may be stopped after any of its store calls, and any call may raise. What the next
  process finds is `tablesAfter` on the calls made up to the stop. `_close_signal` deletes the
  open row before `record_outcome` inserts the closed one.

  Proved:
  * `lost_or_present`: a saved trade without a row was deleted by a call that no later one makes
    up for. The induction is on the length of the log.
  * `ServiceReach.paired`: in a run, the call after a `delete_open` is the `insert_closed` of
    the same signal.
  * `noTradeLost_iff`: at which stops no trade is lost.
  * `noTradeLost_between_operations`: without faults, no trade is lost between two operations.
-/
import SignalEngine.Services.LockSafety

namespace SignalEngine

open Lib

/-! ## Logs -/

/-- The id a call leaves a row of. -/
def StoreOp.writesRow : StoreOp → Option SignalId
  | .upsertOpen s _ => some s.id
  | .insertClosed rec _ => some rec.signalId
  | _ => none

/-- The id has a row in one of the tables. -/
def Tables.Present (t : Tables) (id : SignalId) : Prop := id ∈ t.openIds ∨ id ∈ t.closedIds

/-- An `upsert_open` of the id succeeded, before the log or in it. -/
def Saved (t : Tables) (log : List (StoreOp × Bool)) (id : SignalId) : Prop :=
  id ∈ t.openIds ∨ ∃ s now, (StoreOp.upsertOpen s now, true) ∈ log ∧ s.id = id

def NoTradeLost (t : Tables) (log : List (StoreOp × Bool)) : Prop :=
  ∀ id, Saved t log id → (tablesAfter t log).Present id

/-- Call `i` removes the open row of the id while there is no closed one. -/
structure DeletesOnlyRow (t : Tables) (calls : List (StoreOp × Bool)) (i : ℕ) (id : SignalId) :
    Prop where
  call_eq : calls[i]? = some (.deleteOpen id, true)
  mem_openIds : id ∈ (tablesAfter t (calls.take i)).openIds
  notMem_closedIds : id ∉ (tablesAfter t (calls.take i)).closedIds

/-- Call `j` takes effect and leaves a row of the id. -/
def WritesRowAt (calls : List (StoreOp × Bool)) (j : ℕ) (id : SignalId) : Prop :=
  ∃ op, calls[j]? = some (op, true) ∧ op.writesRow = some id

/-- Whenever a call has removed the only row of an id, the call behind it comes before the stop
    at `n` and takes effect, or some later call before the stop writes the id again. -/
def StopSafe (t : Tables) (calls : List (StoreOp × Bool)) (n : ℕ) : Prop :=
  ∀ i id, i < n → DeletesOnlyRow t calls i id →
    (i + 1 < n ∧ ∃ op, calls[i + 1]? = some (op, true)) ∨
      ∃ j, i + 1 < j ∧ j < n ∧ WritesRowAt calls j id

variable {t : Tables} {calls log : List (StoreOp × Bool)} {id : SignalId} {n : ℕ}

theorem tablesAfter_take_succ {op : StoreOp} {ok : Bool} (h : calls[n]? = some (op, ok)) :
    tablesAfter t (calls.take (n + 1)) =
      if ok then op.apply (tablesAfter t (calls.take n)) else tablesAfter t (calls.take n) := by
  rw [List.take_add_one, h, tablesAfter, List.foldl_append]
  rfl

theorem take_succ_of_none (h : calls[n]? = none) : calls.take (n + 1) = calls.take n := by
  rw [List.take_add_one, h]
  exact List.append_nil _

/-! ### What a call does to the rows of an id -/

theorem present_apply_of_writesRow {op : StoreOp} (h : op.writesRow = some id) :
    (op.apply t).Present id := by
  cases op with
  | upsertOpen s now =>
      cases h
      exact Or.inl (mem_openIds_upsertOpen.mpr (Or.inl rfl))
  | insertClosed rec day =>
      cases h
      exact Or.inr (mem_closedIds_insertClosed.mpr (Or.inl rfl))
  | _ => cases h

/-- A call that does not write the id gives it no row. -/
theorem present_of_present_apply {op : StoreOp} (h : op.writesRow ≠ some id)
    (hp : (op.apply t).Present id) : t.Present id := by
  cases op with
  | upsertOpen s now =>
      rcases hp with hp | hp
      · rcases mem_openIds_upsertOpen.mp hp with rfl | hp
        · exact absurd rfl h
        · exact Or.inl hp
      · exact Or.inr hp
  | deleteOpen k => exact hp.imp (fun hp => (mem_openIds_deleteOpen.mp hp).1) (fun hp => hp)
  | insertClosed rec day =>
      rcases hp with hp | hp
      · exact Or.inl hp
      · rcases mem_closedIds_insertClosed.mp hp with rfl | hp
        · exact absurd rfl h
        · exact Or.inr hp
  | _ => exact hp

/-- Only the deletion of its only row leaves an id without one. -/
theorem delete_of_not_present_apply {op : StoreOp} (hp : t.Present id)
    (h : ¬ (op.apply t).Present id) :
    op = .deleteOpen id ∧ id ∈ t.openIds ∧ id ∉ t.closedIds := by
  cases op with
  | upsertOpen s now =>
      exact absurd (hp.imp (fun hp => mem_openIds_upsertOpen.mpr (Or.inr hp)) (fun hp => hp)) h
  | deleteOpen k =>
      have hclosed : id ∉ t.closedIds := fun hc => h (Or.inr hc)
      have hopen : id ∈ t.openIds := hp.resolve_right hclosed
      have hk : id = k := by
        by_contra hne
        exact h (Or.inl (mem_openIds_deleteOpen.mpr ⟨hopen, hne⟩))
      exact ⟨by rw [hk], hopen, hclosed⟩
  | insertClosed rec day =>
      exact absurd (hp.imp (fun hp => hp) (fun hp => mem_closedIds_insertClosed.mpr (Or.inr hp))) h
  | _ => exact absurd hp h

/-! ### What a log does to them -/

theorem writesRowAt_of_present {m : ℕ} (hm : ¬ (tablesAfter t (calls.take m)).Present id)
    (hmn : m ≤ n) (hn : (tablesAfter t (calls.take n)).Present id) :
    ∃ j, m ≤ j ∧ j < n ∧ WritesRowAt calls j id := by
  induction n, hmn using Nat.le_induction with
  | base => exact absurd hn hm
  | succ n hmn ih =>
      by_cases hp : (tablesAfter t (calls.take n)).Present id
      · obtain ⟨j, hj, hjn, hw⟩ := ih hp
        exact ⟨j, hj, by omega, hw⟩
      · cases hcall : calls[n]? with
        | none => rw [take_succ_of_none hcall] at hn; exact absurd hn hp
        | some call =>
            obtain ⟨op, ok⟩ := call
            rw [tablesAfter_take_succ hcall] at hn
            cases ok with
            | false => exact absurd hn hp
            | true =>
                refine ⟨n, hmn, by omega, op, hcall, ?_⟩
                by_contra hw
                exact hp (present_of_present_apply hw hn)

/-- A saved id has a row, or a call has removed its only row and none has written it since. -/
theorem lost_or_present (hsaved : Saved t (calls.take n) id) :
    (tablesAfter t (calls.take n)).Present id ∨
      ∃ i < n, DeletesOnlyRow t calls i id ∧
        ∀ j, i < j → j < n → ¬ WritesRowAt calls j id := by
  induction n with
  | zero =>
      rcases hsaved with h | ⟨s, now, h, -⟩
      · exact Or.inl (Or.inl h)
      · rw [List.take_zero] at h
        cases h
  | succ n ih =>
      cases hcall : calls[n]? with
      | none =>
          rw [take_succ_of_none hcall] at hsaved ⊢
          rcases ih hsaved with h | ⟨i, hi, hdel, hno⟩
          · exact Or.inl h
          · refine Or.inr ⟨i, by omega, hdel, fun j hij hj hw => ?_⟩
            rcases Nat.lt_succ_iff_lt_or_eq.mp hj with hj | rfl
            · exact hno j hij hj hw
            · obtain ⟨op, hop, -⟩ := hw
              rw [hcall] at hop
              cases hop
      | some call =>
          obtain ⟨op, ok⟩ := call
          by_cases hp : (tablesAfter t (calls.take (n + 1))).Present id
          · exact Or.inl hp
          have hwrites : ¬ WritesRowAt calls n id := by
            rintro ⟨op', hop, hw⟩
            rw [hcall] at hop
            cases hop
            rw [tablesAfter_take_succ hcall] at hp
            exact hp (present_apply_of_writesRow hw)
          have hsaved' : Saved t (calls.take n) id := by
            rcases hsaved with h | ⟨s, now, h, hid⟩
            · exact Or.inl h
            rw [List.take_add_one, hcall] at h
            rcases List.mem_append.mp h with h | h
            · exact Or.inr ⟨s, now, h, hid⟩
            · cases List.mem_singleton.mp h
              exact absurd ⟨_, hcall, congrArg some hid⟩ hwrites
          refine Or.inr ?_
          rcases ih hsaved' with hpn | ⟨i, hi, hdel, hno⟩
          · rw [tablesAfter_take_succ hcall] at hp
            cases ok with
            | false => exact absurd hpn hp
            | true =>
                obtain ⟨rfl, hopen, hclosed⟩ := delete_of_not_present_apply hpn hp
                exact ⟨n, by omega, ⟨hcall, hopen, hclosed⟩, fun j hj hjn => by omega⟩
          · refine ⟨i, by omega, hdel, fun j hij hj hw => ?_⟩
            rcases Nat.lt_succ_iff_lt_or_eq.mp hj with hj | rfl
            · exact hno j hij hj hw
            · exact hwrites hw

theorem not_present_after_delete {i : ℕ} (h : DeletesOnlyRow t calls i id) :
    ¬ (tablesAfter t (calls.take (i + 1))).Present id := by
  rw [tablesAfter_take_succ h.call_eq]
  rintro (hp | hp)
  · exact (mem_openIds_deleteOpen.mp hp).2 rfl
  · exact h.notMem_closedIds hp

/-- An open row comes from an upsert. -/
theorem saved_of_mem_openIds (h : id ∈ (tablesAfter t (calls.take n)).openIds) :
    Saved t (calls.take n) id := by
  induction n with
  | zero => exact Or.inl h
  | succ n ih =>
      have hmono : Saved t (calls.take n) id → Saved t (calls.take (n + 1)) id := by
        rintro (h | ⟨s, now, hs, hid⟩)
        · exact Or.inl h
        · exact Or.inr ⟨s, now, (List.take_subset_take_left calls n.le_succ) hs, hid⟩
      cases hcall : calls[n]? with
      | none =>
          rw [take_succ_of_none hcall] at h ⊢
          exact ih h
      | some call =>
          obtain ⟨op, ok⟩ := call
          rw [tablesAfter_take_succ hcall] at h
          cases ok with
          | false => exact hmono (ih h)
          | true =>
              cases op with
              | upsertOpen s now =>
                  rcases mem_openIds_upsertOpen.mp h with rfl | h
                  · refine Or.inr ⟨s, now, ?_, rfl⟩
                    rw [List.take_add_one, hcall]
                    exact List.mem_append_right _ (List.mem_singleton.mpr rfl)
                  · exact hmono (ih h)
              | deleteOpen k => exact hmono (ih (mem_openIds_deleteOpen.mp h).1)
              | insertClosed rec day => exact hmono (ih h)
              | _ => exact hmono (ih h)

theorem Saved.mono {m : ℕ} (h : Saved t (calls.take m) id) (hmn : m ≤ n) :
    Saved t (calls.take n) id := by
  rcases h with h | ⟨s, now, hs, hid⟩
  · exact Or.inl h
  · exact Or.inr ⟨s, now, (List.take_subset_take_left calls hmn) hs, hid⟩

/-! ## Runs -/

/-- Behind every `delete_open` comes the `insert_closed` of the same signal. -/
def Paired (calls : List (StoreOp × Bool)) : Prop :=
  ∀ i id ok, calls[i]? = some (.deleteOpen id, ok) →
    ∃ rec day ok', calls[i + 1]? = some (.insertClosed rec day, ok') ∧ rec.signalId = id

theorem Paired.append (h : Paired calls) (hlog : Paired log) : Paired (calls ++ log) := by
  intro i id ok hcall
  by_cases hi : i < calls.length
  · rw [List.getElem?_append_left hi] at hcall
    obtain ⟨rec, day, ok', hnext, hid⟩ := h i id ok hcall
    have hi' : i + 1 < calls.length := (List.getElem?_eq_some_iff.mp hnext).1
    exact ⟨rec, day, ok', by rw [List.getElem?_append_left hi', hnext], hid⟩
  · rw [List.getElem?_append_right (by omega)] at hcall
    obtain ⟨rec, day, ok', hnext, hid⟩ := hlog _ id ok hcall
    refine ⟨rec, day, ok', ?_, hid⟩
    rw [List.getElem?_append_right (by omega), ← hnext]
    congr 1
    omega

theorem paired_upsert (s : TradeSignal) (now : ℤ) (ok : Bool) :
    Paired [(.upsertOpen s now, ok)] := by
  intro i id ok' h
  cases i <;> cases h

theorem paired_close {rec : ClosedSignalRecord} (hid : rec.signalId = id) (day : ℤ)
    (ok ok' : Bool) : Paired [(.deleteOpen id, ok), (.insertClosed rec day, ok')] := by
  intro i id' ok'' h
  match i with
  | 0 => cases h; exact ⟨rec, day, ok', rfl, hid⟩
  | 1 => cases h
  | i + 2 => cases h

variable {cfg : Settings} {profileOf : String → Interval → Interval → AssetProfile}
  {raises : ℕ → Bool} {st st' : Service}

theorem Paired.move (h : Paired st.calls) (hm : Move cfg st st') : Paired st'.calls := by
  cases hm with
  | aside _ hcalls _ => rw [hcalls]; exact h
  | emit x s now ok _ _ _ _ _ _ hcalls => rw [hcalls]; exact h.append (paired_upsert s now ok)
  | advance s s' _ _ _ _ _ hcalls =>
      rcases hcalls with hcalls | ⟨now, ok, hcalls⟩
      · rw [hcalls]; exact h
      · rw [hcalls]; exact h.append (paired_upsert s' now ok)
  | close s rec day ok ok' _ hid _ _ hcalls =>
      rw [hcalls]; exact h.append (paired_close hid day ok ok')

theorem Paired.moves (h : Paired st.calls) (hm : Relation.ReflTransGen (Move cfg) st st') :
    Paired st'.calls := by
  induction hm with
  | refl => exact h
  | tail _ hmove ih => exact ih.move hmove

theorem initializeRows_calls (nowMs : ℤ) (rows : List TradeSignal) :
    (st.initializeRows cfg nowMs rows).calls = st.calls := by
  unfold Service.initializeRows
  induction rows generalizing st with
  | nil => rfl
  | cons s rest ih =>
      rw [List.foldl_cons, ih]
      unfold Service.restore
      split <;> rfl

theorem ServiceReach.paired (h : ServiceReach cfg profileOf raises st) : Paired st.calls := by
  induction h with
  | start nowMs records closed _ => exact fun i id ok hcall => by cases hcall
  | step hreach hstep ih =>
      cases hstep with
      | initializeRows nowMs rows _ => rw [initializeRows_calls]; exact ih
      | analyzePair symbol htfInterval ltfInterval firedAt io =>
          exact ih.moves (analyzePair_moves profileOf symbol htfInterval ltfInterval firedAt io)
      | evaluateGroup clock symbol ltfInterval fetch now =>
          exact ih.moves (evaluateGroup_moves profileOf clock symbol ltfInterval fetch now
            hreach.lockInv.toWatching)
      | rollover now load nowMs => exact ih

/-- **When a stop loses no trade**: exactly when it does not come between the deletion of an
    open row and an `insert_closed` that takes effect. -/
theorem noTradeLost_iff (h : ServiceReach cfg profileOf raises st) (t : Tables) (n : ℕ) :
    NoTradeLost t (st.calls.take n) ↔ StopSafe t st.calls n := by
  constructor
  · intro hsafe i id hi hdel
    have hsaved : Saved t (st.calls.take n) id := (saved_of_mem_openIds hdel.mem_openIds).mono hi.le
    obtain ⟨j, hij, hjn, hw⟩ :=
      writesRowAt_of_present (not_present_after_delete hdel) hi (hsafe id hsaved)
    rcases Nat.eq_or_lt_of_le hij with rfl | hij
    · obtain ⟨op, hop, -⟩ := hw
      exact Or.inl ⟨hjn, op, hop⟩
    · exact Or.inr ⟨j, hij, hjn, hw⟩
  · intro hstop id hsaved
    rcases lost_or_present hsaved with hp | ⟨i, hi, hdel, hno⟩
    · exact hp
    rcases hstop i id hi hdel with ⟨hn, op, hop⟩ | ⟨j, hij, hjn, hw⟩
    · obtain ⟨rec, day, ok, hnext, hid⟩ := h.paired i id true hdel.call_eq
      rw [hnext] at hop
      cases hop
      exact absurd ⟨_, hnext, congrArg some hid⟩ (hno (i + 1) (by omega) hn)
    · exact absurd hw (hno j (by omega) hjn)

/-- While no `insert_closed` raises, no trade is lost between two operations. -/
theorem noTradeLost_between_operations (h : ServiceReach cfg profileOf raises st) (t : Tables)
    (hok : ∀ rec day, (StoreOp.insertClosed rec day, false) ∉ st.calls) :
    NoTradeLost t st.calls := by
  rw [← List.take_length (l := st.calls), noTradeLost_iff h]
  intro i id _ hdel
  obtain ⟨rec, day, ok, hnext, -⟩ := h.paired i id true hdel.call_eq
  cases ok with
  | false => exact absurd (List.mem_of_getElem? hnext) (hok rec day)
  | true => exact Or.inl ⟨(List.getElem?_eq_some_iff.mp hnext).1, _, hnext⟩

/-! ## A stop that loses a trade -/

/-- The store in which the sample trade is open. -/
def sampleStore : Tables := Tables.empty.upsertOpen sampleSignal 7200000

/-- Two closed candles, the second through the sample trade's stop. -/
def dipCandles : List Candle :=
  [⟨7500000, 106, 107, 105, 106, 0⟩, ⟨7800000, 106, 106, 99, 100, 0⟩]

/-- The sample process after the tick that closes its trade. -/
def closedService : Service :=
  (sampleService.evaluateGroup sampleSettings (fun _ _ _ => sampleProfile) (fun _ => false)
    (fun _ => 8100000) "XAUUSD" fiveMin (fun _ _ => dipCandles) 8100000).1

theorem closedService_reach :
    ServiceReach sampleSettings (fun _ _ _ => sampleProfile) (fun _ => false) closedService :=
  .step
    (.step (.start 7500000 [] [] rfl) (.initializeRows 7500000 [sampleSignal] (by decide +kernel)))
    (.evaluateGroup (fun _ => 8100000) "XAUUSD" fiveMin (fun _ _ => dipCandles) 8100000)

theorem closedService_insert :
    closedService.calls[1]?.map (fun call => (call.1.writesRow, call.2)) =
      some (some sampleId, true) := by
  decide +kernel

/-- Stopped after both calls of the close, nothing is lost. -/
theorem closedService_recorded : NoTradeLost sampleStore (closedService.calls.take 2) := by
  refine (noTradeLost_iff closedService_reach sampleStore 2).mpr (fun i id hi hdel => ?_)
  obtain ⟨⟨op, ok⟩, hop, heq⟩ := Option.map_eq_some_iff.mp closedService_insert
  obtain ⟨hw, rfl⟩ := Prod.mk.inj heq
  match i with
  | 0 => exact Or.inl ⟨by omega, op, hop⟩
  | 1 =>
      rw [hdel.call_eq] at hop
      cases hop
      cases hw

/-- Stopped between its two calls, the close leaves no row of the trade. -/
theorem stop_loses_trade :
    ServiceReach sampleSettings (fun _ _ _ => sampleProfile) (fun _ => false) closedService ∧
      Saved sampleStore (closedService.calls.take 1) sampleId ∧
      ¬ NoTradeLost sampleStore (closedService.calls.take 1) := by
  have hsaved : Saved sampleStore (closedService.calls.take 1) sampleId :=
    Or.inl (by decide +kernel)
  refine ⟨closedService_reach, hsaved, fun h => ?_⟩
  rcases h sampleId hsaved with hp | hp
  · exact absurd hp (by decide +kernel)
  · exact absurd hp (by decide +kernel)

end SignalEngine
