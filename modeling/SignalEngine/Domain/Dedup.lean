/-
  Dedup: the emission rules of `domain/signals/dedup.py`.

  Model. `zone_signal_counts.get(key, 0)` is a function with default 0; `dead_zones` and
  `seen_rej` are finite sets; `open_dir` is a `Lib.Table` of lock keys, each with the time it
  is released at, if any. The reason texts are constructors that carry what the text shows.
-/
import SignalEngine.Domain.Entities
import SignalEngine.Lib.Table

namespace SignalEngine

open Lib

/-! ## Keys -/

/-- What `should_emit` and `register` are called with. -/
structure Setup where
  symbol : String
  direction : SignalDirection
  htfRange : HtfRange
  rejection : RejectionCandle
  htfInterval : Interval
  ltfInterval : Interval
  deriving DecidableEq, Repr

structure ZoneKey where
  symbol : String
  htfInterval : Interval
  ltfInterval : Interval
  htfTs : ℤ
  direction : SignalDirection
  deriving DecidableEq, Repr

structure RejKey where
  symbol : String
  htfInterval : Interval
  ltfInterval : Interval
  rejTs : ℤ
  deriving DecidableEq, Repr

/-- `_DirKey`; without independent timeframes the pair is `("", "")`, here `none`. -/
structure DirKey where
  symbol : String
  direction : SignalDirection
  pair : Option (Interval × Interval)
  deriving DecidableEq, Repr

/-- `_dedup_keys`. -/
def dedupKeys (symbol : String) (htfInterval ltfInterval : Interval) (htfTs rejTs : ℤ)
    (direction : SignalDirection) : ZoneKey × RejKey :=
  (⟨symbol, htfInterval, ltfInterval, htfTs, direction⟩, ⟨symbol, htfInterval, ltfInterval, rejTs⟩)

def dirKey (multi : Bool) (symbol : String) (direction : SignalDirection)
    (htfInterval ltfInterval : Interval) : DirKey :=
  ⟨symbol, direction, if multi then some (htfInterval, ltfInterval) else none⟩

def Setup.zoneKey (x : Setup) : ZoneKey :=
  (dedupKeys x.symbol x.htfInterval x.ltfInterval x.htfRange.timestamp x.rejection.timestamp
    x.direction).1

def Setup.rejKey (x : Setup) : RejKey :=
  (dedupKeys x.symbol x.htfInterval x.ltfInterval x.htfRange.timestamp x.rejection.timestamp
    x.direction).2

def Setup.dirKey (multi : Bool) (x : Setup) : DirKey :=
  SignalEngine.dirKey multi x.symbol x.direction x.htfInterval x.ltfInterval

def ClosedSignalRecord.zoneKey (rec : ClosedSignalRecord) : ZoneKey :=
  (dedupKeys rec.symbol rec.htfInterval rec.ltfInterval rec.htfTs rec.rejTs rec.direction).1

def ClosedSignalRecord.rejKey (rec : ClosedSignalRecord) : RejKey :=
  (dedupKeys rec.symbol rec.htfInterval rec.ltfInterval rec.htfTs rec.rejTs rec.direction).2

/-! ## State -/

structure DedupState where
  deadZones : Finset ZoneKey := ∅
  zoneSignalCounts : ZoneKey → ℕ := fun _ => 0
  openDir : List (DirKey × Option ℤ) := []
  seenRej : Finset RejKey := ∅

/-- The lock keys held. -/
def DedupState.openKeys (d : DedupState) : List DirKey := keys Prod.fst d.openDir

/-- One record of `replay`; a zero `rej_ts` is not a rejection. -/
def DedupState.replayRecord (maxSignalCount : ℕ) (d : DedupState) (rec : ClosedSignalRecord) :
    DedupState :=
  let k := dedupKeys rec.symbol rec.htfInterval rec.ltfInterval rec.htfTs rec.rejTs rec.direction
  let count := d.zoneSignalCounts k.1 + 1
  { d with
    zoneSignalCounts := Function.update d.zoneSignalCounts k.1 count
    deadZones := if maxSignalCount ≤ count then insert k.1 d.deadZones else d.deadZones
    seenRej := if rec.rejTs ≠ 0 then insert k.2 d.seenRej else d.seenRej }

def DedupState.replay (d : DedupState) (recs : List ClosedSignalRecord) (maxSignalCount : ℕ) :
    DedupState :=
  recs.foldl (DedupState.replayRecord maxSignalCount) d

/-- `register`, with the attempt it returns. -/
def DedupState.register (d : DedupState) (x : Setup) (multi : Bool) (maxSignalCount : ℕ) :
    DedupState × ℕ :=
  let attempt := d.zoneSignalCounts x.zoneKey + 1
  ({ zoneSignalCounts := Function.update d.zoneSignalCounts x.zoneKey attempt
     deadZones := if maxSignalCount ≤ attempt then insert x.zoneKey d.deadZones else d.deadZones
     seenRej := insert x.rejKey d.seenRej
     openDir := put Prod.fst (x.dirKey multi, none) d.openDir }, attempt)

def DedupState.releaseDirection (d : DedupState) (k : DirKey) : DedupState :=
  { d with openDir := erase Prod.fst k d.openDir }

def DedupState.isDirectionOpen (d : DedupState) (k : DirKey) : Bool :=
  decide (k ∈ d.openKeys)

/-- Closed signals hold no lock. -/
theorem replay_openDir (d : DedupState) (recs : List ClosedSignalRecord) (maxSignalCount : ℕ) :
    (d.replay recs maxSignalCount).openDir = d.openDir := by
  unfold DedupState.replay
  induction recs generalizing d with
  | nil => rfl
  | cons rec recs ih =>
      rw [List.foldl_cons, ih]
      rfl

/-! ## What replaying does -/

theorem replay_counts (d : DedupState) (recs : List ClosedSignalRecord) (maxSignalCount : ℕ)
    (z : ZoneKey) :
    (d.replay recs maxSignalCount).zoneSignalCounts z =
      d.zoneSignalCounts z + recs.countP (fun rec => decide (rec.zoneKey = z)) := by
  unfold DedupState.replay
  induction recs generalizing d with
  | nil => rfl
  | cons rec recs ih =>
      rw [List.foldl_cons, ih, List.countP_cons]
      have hone : (d.replayRecord maxSignalCount rec).zoneSignalCounts =
          Function.update d.zoneSignalCounts rec.zoneKey (d.zoneSignalCounts rec.zoneKey + 1) := rfl
      rw [hone]
      by_cases hz : rec.zoneKey = z
      · subst hz
        rw [Function.update_self, if_pos (decide_eq_true rfl)]
        omega
      · rw [Function.update_of_ne (Ne.symm hz), if_neg (by simpa using hz)]
        omega

theorem mem_seenRej_replay (d : DedupState) (recs : List ClosedSignalRecord)
    (maxSignalCount : ℕ) (k : RejKey) :
    k ∈ (d.replay recs maxSignalCount).seenRej ↔
      k ∈ d.seenRej ∨ ∃ rec ∈ recs, rec.rejTs ≠ 0 ∧ rec.rejKey = k := by
  unfold DedupState.replay
  induction recs generalizing d with
  | nil => simp
  | cons rec recs ih =>
      have hone : (d.replayRecord maxSignalCount rec).seenRej =
          if rec.rejTs ≠ 0 then insert rec.rejKey d.seenRej else d.seenRej := rfl
      rw [List.foldl_cons, ih, hone, List.exists_mem_cons_iff]
      split
      · next h =>
          rw [Finset.mem_insert, ← or_assoc]
          refine or_congr ?_ Iff.rfl
          exact ⟨fun hk => hk.elim (fun hk => Or.inr ⟨h, hk.symm⟩) Or.inl,
            fun hk => hk.elim Or.inr (fun hk => Or.inl hk.2.symm)⟩
      · next h => simp [h]

/-- A zone is dead exactly when its count has reached the limit. -/
def DedupState.DeadByCount (maxSignalCount : ℕ) (d : DedupState) : Prop :=
  ∀ z, z ∈ d.deadZones ↔ 0 < d.zoneSignalCounts z ∧ maxSignalCount ≤ d.zoneSignalCounts z

/-- Counting one more signal of a zone, and marking the zone once it is at the limit, as `replay`
    and `register` both do. -/
theorem DedupState.DeadByCount.count {d d' : DedupState} {maxSignalCount : ℕ} {k : ZoneKey}
    (h : d.DeadByCount maxSignalCount)
    (hcounts : d'.zoneSignalCounts =
      Function.update d.zoneSignalCounts k (d.zoneSignalCounts k + 1))
    (hdead : d'.deadZones =
      if maxSignalCount ≤ d.zoneSignalCounts k + 1 then insert k d.deadZones else d.deadZones) :
    d'.DeadByCount maxSignalCount := by
  intro z
  have hz := h z
  rw [hcounts, hdead]
  by_cases hzk : z = k
  · subst hzk
    rw [Function.update_self]
    split
    · next hle => simpa using hle
    · next hlt => rw [hz]; omega
  · rw [Function.update_of_ne hzk]
    split
    · rw [Finset.mem_insert, hz]; exact or_iff_right hzk
    · exact hz

theorem DedupState.DeadByCount.replay {d : DedupState} {maxSignalCount : ℕ}
    (h : d.DeadByCount maxSignalCount) (recs : List ClosedSignalRecord) :
    (d.replay recs maxSignalCount).DeadByCount maxSignalCount := by
  unfold DedupState.replay
  induction recs generalizing d with
  | nil => exact h
  | cons rec recs ih => exact ih (h.count (k := rec.zoneKey) rfl rfl)

/-! ## Rules A, D and E -/

/-- Why a setup is not emitted. -/
inductive BlockReason where
  | zoneLimit (symbol : String) (zoneCount maxSignalCount : ℕ) (htfTs : ℤ)
  | stale (symbol : String) (ageMs : ℤ) (staleHours : ℚ)
  | seenRej (symbol : String) (rejTs : ℤ)
  | paused (minutes : ℤ)
  | positionOpen (symbol : String) (direction : SignalDirection)
  deriving DecidableEq, Repr

/-- `should_emit`; `none` is `allowed`. -/
def shouldEmit (d : DedupState) (x : Setup) (currentTs : ℤ) (staleHours : ℚ)
    (maxSignalCount : ℕ) : Option BlockReason :=
  let zoneCount := d.zoneSignalCounts x.zoneKey
  if x.zoneKey ∈ d.deadZones ∨ maxSignalCount ≤ zoneCount then
    some (.zoneLimit x.symbol zoneCount maxSignalCount x.htfRange.timestamp)
  else if toDouble (staleHours * msPerHour) < ((currentTs - x.rejection.timestamp : ℤ) : ℚ) then
    some (.stale x.symbol (currentTs - x.rejection.timestamp) staleHours)
  else if x.rejKey ∈ d.seenRej then some (.seenRej x.symbol x.rejection.timestamp)
  else none

/-- What an allowed setup has passed. -/
theorem shouldEmit_eq_none {d : DedupState} {x : Setup} {currentTs : ℤ} {staleHours : ℚ}
    {maxSignalCount : ℕ} (h : shouldEmit d x currentTs staleHours maxSignalCount = none) :
    d.zoneSignalCounts x.zoneKey < maxSignalCount ∧ x.rejKey ∉ d.seenRej := by
  unfold shouldEmit at h
  dsimp only at h
  split at h
  · cases h
  next hzone =>
  split at h
  · cases h
  split at h
  · cases h
  next hrej =>
  exact ⟨not_le.mp (fun hle => hzone (Or.inr hle)), hrej⟩

/-! ## What registering does -/

variable {d : DedupState} {x : Setup} {multi : Bool} {maxSignalCount : ℕ}

@[simp] theorem register_seenRej :
    (d.register x multi maxSignalCount).1.seenRej = insert x.rejKey d.seenRej := rfl

theorem register_counts (z : ZoneKey) :
    (d.register x multi maxSignalCount).1.zoneSignalCounts z =
      d.zoneSignalCounts z + if x.zoneKey = z then 1 else 0 := by
  dsimp only [DedupState.register]
  by_cases hz : x.zoneKey = z
  · subst hz
    rw [Function.update_self, if_pos rfl]
  · rw [Function.update_of_ne (Ne.symm hz), if_neg hz, Nat.add_zero]

theorem mem_deadZones_register (z : ZoneKey) :
    z ∈ (d.register x multi maxSignalCount).1.deadZones ↔
      z ∈ d.deadZones ∨ (z = x.zoneKey ∧ maxSignalCount ≤ d.zoneSignalCounts x.zoneKey + 1) := by
  dsimp only [DedupState.register]
  split
  · next h => simp [h, or_comm]
  · next h => simp [h]

theorem DedupState.DeadByCount.register (h : d.DeadByCount maxSignalCount) (x : Setup)
    (multi : Bool) : (d.register x multi maxSignalCount).1.DeadByCount maxSignalCount :=
  h.count rfl rfl

theorem mem_openKeys_register (k : DirKey) :
    k ∈ (d.register x multi maxSignalCount).1.openKeys ↔ k = x.dirKey multi ∨ k ∈ d.openKeys :=
  mem_keys_put

theorem mem_openKeys_releaseDirection (k k' : DirKey) :
    k' ∈ (d.releaseDirection k).openKeys ↔ k' ∈ d.openKeys ∧ k' ≠ k :=
  mem_keys_erase

end SignalEngine
