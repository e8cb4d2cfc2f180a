/-
  Mitigation: the rules that scale the risk of a trade by what was closed before it.

  Model. Times are nanoseconds, the date of an entry is the number of its UTC day. `pending` is
  the heap as the list of its tuples in their order (`heappush` keeps the order, `heappop` takes
  the head; equal tuples cannot be told apart); a tuple is compared field by field, `res` as a
  string. A dictionary that is only read by `get` with a default is a function. The loops of
  `simulate` and `sim_eq_filter` are one, `Mitigation.loop`, with the state, the tuple and the
  multiplier of each; `given` is the multiplier of each trade so far, `skipped` counts those
  that are not positive.

  Proved: the multiplier of a trade depends on its entry time and on the earlier trades closed
  by then, by the rules of `Lib.Desk`, and those are folded once each in the order of their
  closes.
-/
import SignalEngine.Backtest.StreakAnalysis
import SignalEngine.Lib.Desk

namespace SignalEngine

open Lib

/-! ## The table of trades -/

/-- A row of `ent`. -/
structure Ent where
  entryDt : ℤ
  closeDt : ℤ
  R : ℚ
  res : Res
  deriving DecidableEq, Repr

/-- `dt.date`. -/
def dateOf (dt : ℤ) : ℤ := dt / (86400 * 10 ^ 9)

/-- Trades by entry time, none closed before its entry. -/
structure EntryTable where
  rows : List Ent
  sorted : rows.Pairwise fun a b => a.entryDt ≤ b.entryDt
  closed : ∀ t ∈ rows, t.entryDt ≤ t.closeDt

/-- The rows before row `i` that are closed by `now`. -/
def EntryTable.closedBefore (T : EntryTable) (i : ℕ) (now : ℤ) : List Ent :=
  (T.rows.take i).filter fun t => decide (t.closeDt ≤ now)

/-! ## The heaps -/

/-- `res` as a string: `"B" < "L" < "W"`. -/
def Res.rank : Res → ℕ
  | .B => 0
  | .L => 1
  | .W => 2

theorem Res.rank_injective : Function.Injective Res.rank := by
  intro a b h
  cases a <;> cases b <;> simp_all [Res.rank]

instance : LinearOrder Res := LinearOrder.lift' Res.rank Res.rank_injective

/-- A tuple on the heap of `simulate`. -/
structure PendingTrade where
  close : ℤ
  R : ℚ
  res : Res
  day : ℤ
  mult : ℚ
  deriving DecidableEq, Repr

def PendingTrade.tuple (p : PendingTrade) : ℤ ×ₗ ℚ ×ₗ Res ×ₗ ℤ ×ₗ ℚ :=
  toLex (p.close, toLex (p.R, toLex (p.res, toLex (p.day, p.mult))))

theorem PendingTrade.tuple_injective : Function.Injective PendingTrade.tuple := by
  rintro ⟨c, r, s, d, m⟩ ⟨c', r', s', d', m'⟩ h
  simpa [PendingTrade.tuple, Prod.ext_iff] using h

instance : LinearOrder PendingTrade :=
  LinearOrder.lift' PendingTrade.tuple PendingTrade.tuple_injective

theorem PendingTrade.close_mono : Monotone PendingTrade.close :=
  fun p q h => Prod.Lex.monotone_fst p.tuple q.tuple h

/-- A tuple on the heap of `sim_eq_filter`. -/
structure PendingR where
  close : ℤ
  R : ℚ
  mult : ℚ
  deriving DecidableEq, Repr

def PendingR.tuple (p : PendingR) : ℤ ×ₗ ℚ ×ₗ ℚ := toLex (p.close, toLex (p.R, p.mult))

theorem PendingR.tuple_injective : Function.Injective PendingR.tuple := by
  rintro ⟨c, r, m⟩ ⟨c', r', m'⟩ h
  simpa [PendingR.tuple, Prod.ext_iff] using h

instance : LinearOrder PendingR := LinearOrder.lift' PendingR.tuple PendingR.tuple_injective

theorem PendingR.close_mono : Monotone PendingR.close :=
  fun p q h => Prod.Lex.monotone_fst p.tuple q.tuple h

/-! ## The loop -/

/-- What a rule is computed from, and the tuple it leaves for a trade. -/
structure Mitigation (σ ρ : Type) [LinearOrder ρ] where
  init : σ
  fold : σ → ρ → σ
  mult : σ → ℤ → ℚ
  item : Ent → ℚ → ρ
  close : ρ → ℤ
  close_item : ∀ t m, close (item t m) = t.closeDt
  close_mono : Monotone close

/-- The variables of the loop. -/
structure SimState (σ ρ : Type) where
  state : σ
  pending : List ρ
  taken : List ℚ := []
  given : List ℚ := []

variable {σ ρ : Type} [LinearOrder ρ]

/-- The tuples that are due, absorbed before each entry. -/
def Mitigation.desk (M : Mitigation σ ρ) : Desk σ Ent ρ ℤ where
  init := M.init
  now := Ent.entryDt
  close := Ent.closeDt
  issue := fun s t => M.item t (M.mult s t.entryDt)
  due := M.close
  absorb := M.fold
  due_issue := fun _ _ => M.close_item _ _
  due_mono := M.close_mono

/-- The body of the loop. -/
def Mitigation.step (M : Mitigation σ ρ) (st : SimState σ ρ) (t : Ent) : SimState σ ρ :=
  -- while pending and pending[0][0] <= now
  let settled := M.desk.settle t.entryDt st.state st.pending
  let mult := M.mult settled.1 t.entryDt
  { state := settled.1
    pending := settled.2.orderedInsert (· ≤ ·) (M.item t mult)
    taken := st.taken ++ [t.R * mult]
    given := st.given ++ [mult] }

def Mitigation.loop (M : Mitigation σ ρ) (rows : List Ent) : SimState σ ρ :=
  rows.foldl M.step { state := M.init, pending := [] }

/-! ## The rules -/

/-- `day_r`, `day_cl` and `g_cl`. -/
structure RuleState where
  dayR : ℤ → ℚ := fun _ => 0
  dayCl : ℤ → ℕ := fun _ => 0
  gCl : ℕ := 0

/-- The argument of a rule. -/
structure RuleView where
  dayR : ℚ
  dayCl : ℕ
  gCl : ℕ
  deriving DecidableEq, Repr

def RuleState.view (s : RuleState) (day : ℤ) : RuleView := ⟨s.dayR day, s.dayCl day, s.gCl⟩

/-- A trade that was skipped leaves the state as it is. -/
def RuleState.fold (s : RuleState) (p : PendingTrade) : RuleState :=
  if 0 < p.mult then
    let dayR := Function.update s.dayR p.day (s.dayR p.day + p.R * p.mult)
    match p.res with
    | .L => ⟨dayR, Function.update s.dayCl p.day (s.dayCl p.day + 1), s.gCl + 1⟩
    | .W => ⟨dayR, Function.update s.dayCl p.day 0, 0⟩
    | .B => ⟨dayR, s.dayCl, s.gCl⟩
  else s

def ruleMitigation (rule : RuleView → ℚ) : Mitigation RuleState PendingTrade where
  init := {}
  fold := RuleState.fold
  mult := fun s now => rule (s.view (dateOf now))
  item := fun t m => ⟨t.closeDt, t.R, t.res, dateOf t.entryDt, m⟩
  close := PendingTrade.close
  close_item := fun _ _ => rfl
  close_mono := PendingTrade.close_mono

/-- `eq` and `peak_eq`. -/
structure EqState where
  eq : ℚ := 0
  peakEq : ℚ := 0
  deriving DecidableEq, Repr

def EqState.fold (s : EqState) (p : PendingR) : EqState :=
  let eq := s.eq + p.R * p.mult
  ⟨eq, max s.peakEq eq⟩

def eqMitigation (thresh half : ℚ) : Mitigation EqState PendingR where
  init := {}
  fold := EqState.fold
  mult := fun s _ => if thresh < s.peakEq - s.eq then half else 1
  item := fun t m => ⟨t.closeDt, t.R, m⟩
  close := PendingR.close
  close_item := fun _ _ => rfl
  close_mono := PendingR.close_mono

/-! ## What the simulations return -/

/-- The number of the month of a day, by the civil calendar. -/
def monthOf (day : ℤ) : ℤ :=
  let z := day + 719468
  let era := z / 146097
  let doe := z % 146097
  let yoe := (doe - doe / 1460 + doe / 36524 - doe / 146096) / 365
  let doy := doe - (365 * yoe + yoe / 4 - yoe / 100)
  let mp := (5 * doy + 2) / 153
  -- the year of this calendar begins in March
  12 * (yoe + era * 400) + mp + 2

/-- `groupby(keys).sum()`, the groups given. -/
def groupSums (keys : List ℤ) (tr : List ℚ) (groups : List ℤ) : List ℚ :=
  groups.map fun g => (((List.zip keys tr).filter fun p => decide (p.1 = g)).map (·.2)).sum

/-- The months from the first to the last one, those without a trade among them. -/
def monthsOf (months : List ℤ) : List ℤ :=
  match months.min?, months.max? with
  | some lo, some hi => (List.range (hi - lo + 1).toNat).map fun k => lo + (k : ℤ)
  | _, _ => []

structure SimResult where
  totalR : ℚ
  maxDD : ℚ
  skipped : ℕ
  worstDay : ℚ
  worstMonth : ℚ
  deriving DecidableEq, Repr

/-- `_print_mitigation.simulate`; the drawdown of no trades raises. -/
def simulateRule (rows : List Ent) (rule : RuleView → ℚ) : Option SimResult := do
  let st := (ruleMitigation rule).loop rows
  let tr := st.taken
  let eDay := rows.map fun t => dateOf t.entryDt
  let maxDD ← maxDd tr
  let worstDay ← (groupSums eDay tr eDay.dedup).min?
  let worstMonth ← (groupSums (eDay.map monthOf) tr (monthsOf (eDay.map monthOf))).min?
  return {
    totalR := tr.sum
    maxDD := maxDD
    skipped := st.given.countP fun m => decide (m ≤ 0)
    worstDay := worstDay
    worstMonth := worstMonth }

/-- `_print_mitigation.sim_eq_filter`. -/
def simEqFilter (rows : List Ent) (thresh : ℚ) (half : ℚ := 1 / 2) : Option (ℚ × ℚ) := do
  let tr := ((eqMitigation thresh half).loop rows).taken
  let maxDD ← maxDd tr
  return (tr.sum, maxDD)

/-! ## The loop is the desk -/

variable {M : Mitigation σ ρ}

theorem Mitigation.loop_concat (rows : List Ent) (t : Ent) :
    M.loop (rows ++ [t]) = M.step (M.loop rows) t := by
  rw [Mitigation.loop, List.foldl_append]
  rfl

theorem Mitigation.run_eq (rows : List Ent) :
    M.desk.run rows = ((M.loop rows).state, (M.loop rows).pending) := by
  induction rows using List.reverseRecOn with
  | nil => rfl
  | append_singleton rows t ih =>
      rw [Desk.run_concat, Desk.seen, Desk.settledAt, ih, Mitigation.loop_concat]
      rfl

/-- The multiplier of a trade is computed from what its job sees. -/
theorem Mitigation.given_concat (rows : List Ent) (t : Ent) :
    (M.loop (rows ++ [t])).given =
      (M.loop rows).given ++ [M.mult (M.desk.seen rows t) t.entryDt] := by
  rw [Mitigation.loop_concat, Desk.seen, Desk.settledAt, Mitigation.run_eq]
  rfl

theorem Mitigation.length_given (rows : List Ent) :
    (M.loop rows).given.length = rows.length := by
  induction rows using List.reverseRecOn with
  | nil => rfl
  | append_singleton rows t ih => rw [Mitigation.given_concat, List.length_append, ih]; simp

/-- Later trades change no multiplier. -/
theorem Mitigation.given_append (rows later : List Ent) :
    (M.loop rows).given <+: (M.loop (rows ++ later)).given := by
  induction later using List.reverseRecOn with
  | nil => rw [List.append_nil]
  | append_singleton later t ih =>
      rw [← List.append_assoc, Mitigation.given_concat]
      exact ih.trans (List.prefix_append _ _)

theorem Mitigation.given_take (rows : List Ent) (i : ℕ) :
    (M.loop (rows.take i)).given = (M.loop rows).given.take i := by
  have hpre := Mitigation.given_append (M := M) (rows.take i) (rows.drop i)
  rw [List.take_append_drop] at hpre
  rw [List.prefix_iff_eq_take.mp hpre, Mitigation.length_given, List.length_take,
    ← Mitigation.length_given (M := M) rows, ← List.take_eq_take_min]

theorem Mitigation.given_getElem? {rows : List Ent} {i : ℕ} {t : Ent} (ht : rows[i]? = some t) :
    (M.loop rows).given[i]? = some (M.mult (M.desk.seen (rows.take i) t) t.entryDt) := by
  obtain ⟨hi, rfl⟩ := List.getElem?_eq_some_iff.mp ht
  have hlast := Mitigation.given_take (M := M) rows (i + 1)
  rw [List.take_succ_eq_append_getElem hi, Mitigation.given_concat, Mitigation.given_take] at hlast
  have hlen : ((M.loop rows).given.take i).length = i := by
    rw [List.length_take, Mitigation.length_given, Nat.min_eq_left hi.le]
  have hget := congrArg (·[i]?) hlast
  simp only [List.getElem?_append_right hlen.le, hlen, Nat.sub_self, List.getElem?_take] at hget
  simpa using hget.symm

/-- The tuples are those of the trades with their multipliers. -/
theorem Mitigation.issued_eq (rows : List Ent) :
    M.desk.issued rows = List.zipWith M.item rows (M.loop rows).given := by
  induction rows using List.reverseRecOn with
  | nil => rfl
  | append_singleton rows t ih =>
      rw [Desk.issued_concat, Mitigation.given_concat,
        List.zipWith_append (Mitigation.length_given rows).symm, ih]
      rfl

/-! ## No look-ahead -/

/-- The multiplier of row `i`. -/
def Mitigation.multiplier (M : Mitigation σ ρ) (T : EntryTable) (i : ℕ) : Option ℚ :=
  (M.loop T.rows).given[i]?

/-- The tuples of the rows before row `i` that are closed by `now`, with their multipliers. -/
def Mitigation.closedItems (M : Mitigation σ ρ) (T : EntryTable) (i : ℕ) (now : ℤ) : List ρ :=
  (List.zipWith M.item (T.rows.take i) ((M.loop T.rows).given.take i)).filter fun r =>
    decide (M.close r ≤ now)

/-- Row `i` gets the multiplier that the trades closed before its entry call for. -/
structure Mitigation.Causal (M : Mitigation σ ρ) (T : EntryTable) (i : ℕ) (t : Ent) : Prop where
  /-- Any two tables that agree on those trades give it. -/
  same : ∀ (T' : EntryTable) (i' : ℕ) (t' : Ent), T'.rows[i']? = some t' →
    t'.entryDt = t.entryDt → T'.closedBefore i' t.entryDt = T.closedBefore i t.entryDt →
    M.multiplier T' i' = M.multiplier T i
  /-- Each of them is folded once, in the order of the closes. -/
  folded : ∃ log : List ρ, M.multiplier T i = some (M.mult (log.foldl M.fold M.init) t.entryDt) ∧
    log.Pairwise (fun a b => M.close a ≤ M.close b) ∧ log.Perm (M.closedItems T i t.entryDt)

theorem EntryTable.take_le {T : EntryTable} {i : ℕ} {t : Ent} (ht : T.rows[i]? = some t) :
    ∀ a ∈ T.rows.take i, a.entryDt ≤ t.entryDt := by
  intro a ha
  obtain ⟨hi, rfl⟩ := List.getElem?_eq_some_iff.mp ht
  have hsorted := T.sorted
  rw [← List.take_append_drop i T.rows] at hsorted
  exact (List.pairwise_append.mp hsorted).2.2 a ha _ (by
    rw [List.drop_eq_getElem_cons hi]
    exact List.mem_cons_self)

/-- The multiplier is that of the table cut to the trades closed by then. -/
theorem Mitigation.multiplier_eq {T : EntryTable} {i : ℕ} {t : Ent} (ht : T.rows[i]? = some t) :
    M.multiplier T i =
      some (M.mult (M.desk.seen (T.closedBefore i t.entryDt) t) t.entryDt) := by
  have hseen : M.desk.seen (T.rows.take i) t =
      M.desk.seen (M.desk.visible t.entryDt (T.rows.take i)) t :=
    Desk.seen_visible T.sorted.take (fun a ha => T.closed a (List.mem_of_mem_take ha))
      (EntryTable.take_le ht)
  rw [Mitigation.multiplier, Mitigation.given_getElem? ht, hseen]
  rfl

theorem Mitigation.causal (M : Mitigation σ ρ) {T : EntryTable} {i : ℕ} {t : Ent}
    (ht : T.rows[i]? = some t) : M.Causal T i t := by
  constructor
  · intro T' i' t' ht' hentry hagree
    rw [Mitigation.multiplier_eq ht', Mitigation.multiplier_eq ht, hentry, hagree, Desk.seen,
      Desk.seen, show M.desk.now t' = M.desk.now t from hentry]
  · have habsorbed : ∃ log, Desk.Absorbed M.desk t.entryDt (T.rows.take i) log :=
      Desk.exists_absorbed T.sorted.take (fun a ha => T.closed a (List.mem_of_mem_take ha))
        (EntryTable.take_le ht)
    obtain ⟨log, hlog⟩ := habsorbed
    refine ⟨log, ?_, hlog.ordered, ?_⟩
    · rw [Mitigation.multiplier, Mitigation.given_getElem? ht, Desk.seen,
        show M.desk.now t = t.entryDt from rfl, hlog.state]
      rfl
    · have hperm := hlog.perm
      rw [Mitigation.issued_eq, Mitigation.given_take] at hperm
      exact hperm

/-- Neither simulation looks ahead, whatever the rule, the threshold and the reduced risk. -/
theorem simulations_causal (T : EntryTable) (i : ℕ) (t : Ent) (ht : T.rows[i]? = some t) :
    (∀ rule, (ruleMitigation rule).Causal T i t) ∧
      ∀ thresh half, (eqMitigation thresh half).Causal T i t :=
  ⟨fun _ => Mitigation.causal _ ht, fun _ _ => Mitigation.causal _ ht⟩

/-- Two losses, the second still open when the third trade is entered. -/
def overlapTable : EntryTable where
  rows := [⟨0, 10, -1, .L⟩, ⟨5, 30, -1, .L⟩, ⟨10, 20, 2, .W⟩]
  sorted := by decide
  closed := by decide

theorem simulations_causal_overlap :
    (∀ rule, (ruleMitigation rule).Causal overlapTable 2 ⟨10, 20, 2, .W⟩) ∧
      ∀ thresh half, (eqMitigation thresh half).Causal overlapTable 2 ⟨10, 20, 2, .W⟩ :=
  simulations_causal overlapTable 2 ⟨10, 20, 2, .W⟩ rfl

example : ((ruleMitigation fun v => if 1 ≤ v.gCl then 1 / 2 else 1).loop overlapTable.rows).given =
    [1, 1, 1 / 2] := by
  decide +kernel

end SignalEngine
