/-
  Run safety: what the tables of the backtest hold its emissions to, over a whole run.

  Model. `b.zoneOf`, `b.rejOf`, `b.lockOf` and `b.heldUntil` read off an emission the keys and
  the release time that `run` files it under. The operations of a run are those of a prefix of
  its schedule, on a master LTF in the order of time.

  Proved: `backtestSafe_of_run`: each zone's attempts count up from 1 within the limit, no
  rejection is traded twice, and of two trades under one lock the first is over, or has run out,
  before the step of the second begins. The induction is on the operations, with `BacktestInv`.
-/
import SignalEngine.Backtest.Chronology

namespace SignalEngine

open Lib

/-! ## Keys of an emission -/

def Emission.pair (e : Emission) : Interval × Interval :=
  (e.signal.htfInterval, e.signal.ltfInterval)

def Backtest.zoneOf (b : Backtest) (e : Emission) : BacktestZone :=
  b.zoneKey e.pair e.signal.htfRange

def Backtest.rejOf (b : Backtest) (e : Emission) : RejKey :=
  b.rejKey e.pair e.signal.rejectionCandle

def Backtest.lockOf (b : Backtest) (e : Emission) : DirKey :=
  b.dirKey e.pair e.signal.direction

def Backtest.heldUntil (b : Backtest) (e : Emission) : ℤ := b.lockUntil e.signal e.result

/-- The emissions of one zone. -/
def Backtest.ofZone (b : Backtest) (results : List Emission) (k : BacktestZone) : List Emission :=
  results.filter fun e => decide (b.zoneOf e = k)

def BacktestOp.time : BacktestOp → ℤ
  | .expireLocks c => c.timestamp
  | .visit c _ => c.timestamp

/-! ## Safety and its invariant -/

structure BacktestSafe (b : Backtest) (results : List Emission) : Prop where
  attempts_eq : ∀ k, (b.ofZone results k).map (fun e => e.signal.zoneAttempt) =
    List.range' 1 (b.ofZone results k).length
  attempts_le : ∀ e ∈ results, e.signal.zoneAttempt ≤ b.cfg.maxSignalCountPerZone
  rejections_nodup : (results.map b.rejOf).Nodup
  locks_apart : results.Pairwise fun e e' => b.lockOf e = b.lockOf e' →
    b.heldUntil e + intervalMs b.masterLtf ≤ e'.analysisClose

/-- What carries `BacktestSafe` through a run that has come to time `t`. -/
structure BacktestInv (b : Backtest) (t : ℤ) (st : BacktestState) : Prop extends
    BacktestSafe b st.results where
  counts_eq : ∀ k, st.zoneSignalCounts k = (b.ofZone st.results k).length
  seen_iff : ∀ k, k ∈ st.seenRej ↔ k ∈ st.results.map b.rejOf
  held : ∀ e ∈ st.results, st.openDir (b.lockOf e) = some (b.heldUntil e) ∨ b.heldUntil e ≤ t

/-- What the tables admit. -/
structure Admitted (b : Backtest) (pair : Interval × Interval) (z : HtfRange) (s : TradeSignal)
    (st : BacktestState) : Prop where
  pair_eq : (s.htfInterval, s.ltfInterval) = pair
  htfRange_eq : s.htfRange = z
  direction_eq : s.direction = z.signalDirection
  attempt_eq : s.zoneAttempt = st.zoneSignalCounts (b.zoneKey pair z) + 1
  attempt_le : s.zoneAttempt ≤ b.cfg.maxSignalCountPerZone
  rejection : b.rejKey pair s.rejectionCandle ∉ st.seenRej
  lock : st.openDir (b.dirKey pair z.signalDirection) = none

variable {b : Backtest} {D : History} {v : LtfView} {z : HtfRange} {st st' : BacktestState}
  {analysisClose t : ℤ} {pair : Interval × Interval} {r : RejectionCandle} {s : TradeSignal}
  {c : Candle} {ops : List BacktestOp}

/-! ## What a visit admits -/

theorem signalFor_admitted (h : b.signalFor v z r st = some s)
    (hlimit : st.zoneSignalCounts (b.zoneKey v.pair z) < b.cfg.maxSignalCountPerZone) :
    Admitted b v.pair z s st := by
  unfold Backtest.signalFor at h
  split at h
  · cases h
  next hrejection =>
  split at h
  · cases h
  next hlock =>
  split at h
  · cases h
  obtain ⟨built, hbuilt, rfl⟩ := Option.map_eq_some_iff.mp h
  rw [evaluateSetup_signal] at hbuilt
  have hb := buildSignal_eq_some hbuilt
  refine ⟨Prod.ext hb.htfInterval_eq hb.ltfInterval_eq, hb.htfRange_eq, hb.direction_eq, rfl,
    hlimit, ?_, by simpa using hlock⟩
  dsimp only
  rw [hb.rejectionCandle_eq]
  exact hrejection

theorem zoneTurn_admitted (h : b.zoneTurn v st z = (st', some s)) : Admitted b v.pair z s st' := by
  have hcaches := zoneTurn_onlyCaches b v st z
  rw [h] at hcaches
  obtain ⟨hlimit, -, r, score, -, hs⟩ := zoneTurn_eq_some h
  refine signalFor_admitted hs ?_
  rw [hcaches.counts_eq]
  exact not_le.mp fun hle => hlimit (Or.inr hle)

theorem scan_admitted (h : b.scan D analysisClose pair st = .ok (st', some (z, s))) :
    Admitted b pair z s st' := by
  unfold Backtest.scan at h
  split at h
  · cases h
  · cases h
  split at h
  · cases h
  simp only [Except.ok.injEq] at h
  obtain ⟨_, _, _, _, _, hturn⟩ := scanZones_eq_some h
  exact zoneTurn_admitted hturn

/-! ## One operation -/

theorem ofZone_concat (b : Backtest) (results : List Emission) (e : Emission) (k : BacktestZone) :
    b.ofZone (results ++ [e]) k =
      b.ofZone results k ++ if b.zoneOf e = k then [e] else [] := by
  rw [Backtest.ofZone, List.filter_append]
  congr 1
  split
  · next h => rw [List.filter_cons_of_pos (by simpa using h), List.filter_nil]
  · next h => rw [List.filter_cons_of_neg (by simpa using h), List.filter_nil]

/-- The invariant does not look at caches. -/
theorem BacktestInv.onlyCaches (h : BacktestInv b t st) (hcaches : OnlyCaches st st') :
    BacktestInv b t st' := by
  obtain ⟨hsafe, hcounts, hseen, hheld⟩ := h
  refine ⟨?_, ?_, ?_, ?_⟩
  · rwa [hcaches.results_eq]
  · rwa [hcaches.counts_eq, hcaches.results_eq]
  · rwa [hcaches.seenRej_eq, hcaches.results_eq]
  · rwa [hcaches.openDir_eq, hcaches.results_eq]

theorem BacktestInv.mono {t' : ℤ} (h : BacktestInv b t st) (ht : t ≤ t') : BacktestInv b t' st :=
  ⟨h.toBacktestSafe, h.counts_eq, h.seen_iff,
    fun e he => (h.held e he).imp_right fun hle => hle.trans ht⟩

/-- A lock that runs out has been held until a time that is past. -/
theorem BacktestInv.expireLocks (h : BacktestInv b c.timestamp st) :
    BacktestInv b c.timestamp (Backtest.expireLocks c st) := by
  refine ⟨h.toBacktestSafe, h.counts_eq, h.seen_iff, fun e he => ?_⟩
  rcases h.held e he with hopen | hpast
  · by_cases hle : b.heldUntil e ≤ c.timestamp
    · exact Or.inr hle
    · refine Or.inl ?_
      rw [Backtest.expireLocks]
      simp [hopen, Option.filter, hle]
  · exact Or.inr hpast

theorem BacktestInv.record (h : BacktestInv b c.timestamp st) (hs : Admitted b pair z s st)
    (r : BacktestResult) :
    BacktestInv b c.timestamp (b.record (b.analysisClose c) pair z s r st) := by
  obtain ⟨e, he⟩ : ∃ e : Emission, e = ⟨b.analysisClose c, s, r⟩ := ⟨_, rfl⟩
  have hpair : e.pair = pair := by rw [he]; exact hs.pair_eq
  have hzone : b.zoneOf e = b.zoneKey pair z := by
    rw [Backtest.zoneOf, hpair, he, hs.htfRange_eq]
  have hrej : b.rejOf e = b.rejKey pair s.rejectionCandle := by rw [Backtest.rejOf, hpair, he]
  have hlock : b.lockOf e = b.dirKey pair z.signalDirection := by
    rw [Backtest.lockOf, hpair, he, hs.direction_eq]
  have hresults : (b.record (b.analysisClose c) pair z s r st).results = st.results ++ [e] := by
    rw [he]
    rfl
  -- every trade under the same lock is over
  have hfree : ∀ e' ∈ st.results, b.lockOf e' = b.lockOf e → b.heldUntil e' ≤ c.timestamp := by
    intro e' he' hsame
    refine (h.held e' he').resolve_left fun hopen => ?_
    rw [hsame, hlock, hs.lock] at hopen
    cases hopen
  refine ⟨⟨fun k => ?_, fun e' he' => ?_, ?_, ?_⟩, fun k => ?_, fun k => ?_, fun e' he' => ?_⟩
  · rw [hresults, ofZone_concat, hzone]
    split
    · next hk =>
        rw [List.map_append, h.attempts_eq, List.length_append, List.length_singleton,
          List.range'_concat, List.map_singleton, he, hs.attempt_eq, hk, h.counts_eq, Nat.one_mul,
          Nat.add_comm]
    · rw [List.append_nil]
      exact h.attempts_eq k
  · rw [hresults] at he'
    rcases List.mem_append.mp he' with he' | he'
    · exact h.attempts_le e' he'
    · rw [List.mem_singleton.mp he', he]
      exact hs.attempt_le
  · rw [hresults]
    refine nodup_keys_concat h.rejections_nodup fun hmem => hs.rejection ?_
    rw [h.seen_iff, ← hrej]
    exact hmem
  · rw [hresults]
    refine List.pairwise_append.mpr ⟨h.locks_apart, List.pairwise_singleton _ _, ?_⟩
    intro e' he' e'' he'' hsame
    rw [List.mem_singleton] at he''
    subst he''
    have hle := hfree e' he' hsame
    rw [he]
    dsimp only [Backtest.analysisClose]
    omega
  · rw [hresults, ofZone_concat, hzone]
    show Function.update st.zoneSignalCounts (b.zoneKey pair z) s.zoneAttempt k = _
    by_cases hk : b.zoneKey pair z = k
    · subst hk
      rw [Function.update_self, if_pos rfl, List.length_append, ← h.counts_eq, hs.attempt_eq]
      rfl
    · rw [Function.update_of_ne (Ne.symm hk), if_neg hk, List.append_nil, h.counts_eq]
  · show k ∈ insert (b.rejKey pair s.rejectionCandle) st.seenRej ↔ _
    rw [hresults, Finset.mem_insert, h.seen_iff, List.map_append, List.mem_append,
      List.map_singleton, List.mem_singleton, hrej]
    exact or_comm
  · show Function.update st.openDir (b.dirKey pair z.signalDirection)
      (some (b.lockUntil s r)) (b.lockOf e') = _ ∨ _
    rw [hresults] at he'
    rcases List.mem_append.mp he' with he' | he'
    · by_cases hsame : b.lockOf e' = b.lockOf e
      · exact Or.inr (hfree e' he' hsame)
      · rw [← hlock, Function.update_of_ne hsame]
        exact h.held e' he'
    · rw [List.mem_singleton.mp he', ← hlock, Function.update_self, he]
      exact Or.inl rfl

theorem BacktestInv.visit (h : BacktestInv b c.timestamp st)
    (hv : b.visit D (b.analysisClose c) pair st = .ok st') : BacktestInv b c.timestamp st' := by
  rcases visit_cases hv with hscan | ⟨st₁, z, s, r, hscan, -, rfl⟩
  · exact h.onlyCaches (scan_onlyCaches hscan)
  · exact (h.onlyCaches (scan_onlyCaches hscan)).record (scan_admitted hscan) r

/-! ## Runs -/

theorem BacktestInv.start (b : Backtest) (t : ℤ) : BacktestInv b t {} where
  attempts_eq := fun _ => rfl
  attempts_le := fun _ he => absurd he List.not_mem_nil
  rejections_nodup := List.nodup_nil
  locks_apart := List.Pairwise.nil
  counts_eq := fun _ => rfl
  seen_iff := fun k => iff_of_false (Finset.notMem_empty k) List.not_mem_nil
  held := fun _ he => absurd he List.not_mem_nil

theorem inv_runOps (hsorted : SortedBy BacktestOp.time ops) (hrun : b.runOps D ops = .ok st)
    (ht : ∀ op ∈ ops, op.time ≤ t) : BacktestInv b t st := by
  induction ops using List.reverseRecOn generalizing st t with
  | nil =>
      cases hrun
      exact BacktestInv.start b t
  | append_singleton ops op ih =>
      obtain ⟨stPre, hpre, happly⟩ := runOps_append_singleton hrun
      obtain ⟨hops, -, hlast⟩ := List.pairwise_append.mp hsorted
      have hinv : BacktestInv b op.time stPre :=
        ih hops hpre fun op' hop' => hlast op' hop' op (List.mem_singleton_self op)
      refine BacktestInv.mono ?_ (ht op (List.mem_append_right _ (List.mem_singleton_self op)))
      cases op with
      | expireLocks c =>
          cases happly
          exact hinv.expireLocks
      | visit c pair => exact hinv.visit happly

theorem time_stepOps (b : Backtest) (c : Candle) : ∀ op ∈ b.stepOps c, op.time = c.timestamp := by
  intro op hop
  rcases List.mem_cons.mp hop with rfl | hop
  · rfl
  · obtain ⟨pair, -, rfl⟩ := List.mem_map.mp hop
    rfl

/-- The operations are in the order of time, as the candles of the master LTF are. -/
theorem sorted_schedule (h : SortedBy Candle.timestamp (D.master b)) :
    SortedBy BacktestOp.time (b.schedule D) := by
  refine List.pairwise_flatMap.mpr ⟨fun c _ => ?_, ?_⟩
  · refine List.pairwise_of_forall_mem_list fun op hop op' hop' => ?_
    rw [time_stepOps b c op hop, time_stepOps b c op' hop']
  · refine (h.sublist (List.drop_sublist _ _)).imp fun {c c'} hle op hop op' hop' => ?_
    rw [time_stepOps b c op hop, time_stepOps b c' op' hop']
    exact hle

/-- **Run safety**: at every point of a run each zone's attempts count up from 1 within the
    limit, no rejection is traded twice, and of two trades under one lock the first has closed, or
    run out, before the step of the second begins. -/
theorem backtestSafe_of_run (hsorted : SortedBy Candle.timestamp (D.master b))
    (hops : ops <+: b.schedule D) (hrun : b.runOps D ops = .ok st) :
    BacktestSafe b st.results := by
  have htimes : SortedBy BacktestOp.time ops := (sorted_schedule hsorted).sublist hops.sublist
  obtain ⟨t, ht⟩ : ∃ t, ∀ op ∈ ops, op.time ≤ t := by
    obtain ⟨t, ht⟩ := (ops.map BacktestOp.time).toFinset.bddAbove
    refine ⟨t, fun op hop => ht ?_⟩
    exact List.mem_toFinset.mpr (List.mem_map_of_mem hop)
  exact (inv_runOps htimes hrun ht).toBacktestSafe

/-- Two trades of one zone, each under the lock of its pair. -/
theorem overlapRun_safe :
    ∃ st, overlapBacktest.runOps overlapData (overlapBacktest.schedule overlapData) = .ok st ∧
      st.results.length = 2 ∧ BacktestSafe overlapBacktest st.results := by
  have hlen : (overlapBacktest.runOps overlapData (overlapBacktest.schedule overlapData)).map
      (fun st => st.results.length) = .ok 2 := by decide +kernel
  obtain ⟨st, hrun, htwo⟩ := runOps_of_map hlen
  have hsorted : SortedBy Candle.timestamp (overlapData.master overlapBacktest) := by
    unfold SortedBy
    decide +kernel
  exact ⟨st, hrun, htwo, backtestSafe_of_run hsorted List.prefix_rfl hrun⟩

end SignalEngine
