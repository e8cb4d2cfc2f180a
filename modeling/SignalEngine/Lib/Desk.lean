/-
  Desk: a state that takes up the outcome of each job when the job is done.

  A `Desk` works through jobs in the order of their times. A job leaves an item that is due
  later; before the next job the items that are due by then are absorbed into the state, the
  first due one first. What an item holds may depend on the state its job saw.

  Proved, for jobs sorted by time whose items are not due before the job: what a job sees does
  not depend on the jobs whose items are due after it (`seen_visible`), and it is the fold of
  all items that are due, each of them once and in the order in which they are due
  (`exists_absorbed`).
-/
import Mathlib

namespace SignalEngine.Lib

universe u v w x

/-- Jobs `α` that leave items `ρ` for a state `σ`. -/
structure Desk (σ : Type u) (α : Type v) (ρ : Type w) (κ : Type x) [LinearOrder ρ]
    [LinearOrder κ] where
  init : σ
  now : α → κ
  close : α → κ
  issue : σ → α → ρ
  due : ρ → κ
  absorb : σ → ρ → σ
  due_issue : ∀ s t, due (issue s t) = close t
  due_mono : Monotone due

namespace Desk

variable {σ : Type u} {α : Type v} {ρ : Type w} {κ : Type x} [LinearOrder ρ] [LinearOrder κ]
  (D : Desk σ α ρ κ)

/-- Absorbs the items that are due, from the head of the queue. -/
def settle (now : κ) : σ → List ρ → σ × List ρ
  | s, [] => (s, [])
  | s, r :: q => if D.due r ≤ now then settle now (D.absorb s r) q else (s, r :: q)

/-- One job: what is due is absorbed, and the item of the job is queued. -/
def step (d : σ × List ρ) (t : α) : σ × List ρ :=
  let d' := D.settle (D.now t) d.1 d.2
  (d'.1, d'.2.orderedInsert (· ≤ ·) (D.issue d'.1 t))

def run (ts : List α) : σ × List ρ := ts.foldl D.step (D.init, [])

/-- The desk when all that is due at a time is absorbed. -/
def settledAt (now : κ) (ts : List α) : σ × List ρ := D.settle now (D.run ts).1 (D.run ts).2

/-- The state a job sees after the jobs before it. -/
def seen (ts : List α) (t : α) : σ := (D.settledAt (D.now t) ts).1

/-- The items of the jobs, in the order of the jobs. -/
def issued (ts : List α) : List ρ :=
  (ts.foldl (fun (out : List α × List ρ) t =>
    (out.1 ++ [t], out.2 ++ [D.issue (D.seen out.1 t) t])) ([], [])).2

variable {D} {s : σ} {q : List ρ} {ts : List α} {t : α} {now τ : κ}

@[simp] theorem run_nil : D.run [] = (D.init, []) := rfl

theorem run_concat (ts : List α) (t : α) :
    D.run (ts ++ [t]) = (D.seen ts t,
      (D.settledAt (D.now t) ts).2.orderedInsert (· ≤ ·) (D.issue (D.seen ts t) t)) := by
  rw [run, List.foldl_append]
  rfl

theorem issued_concat (ts : List α) (t : α) :
    D.issued (ts ++ [t]) = D.issued ts ++ [D.issue (D.seen ts t) t] := by
  have hjobs : ∀ ts : List α, (ts.foldl (fun (out : List α × List ρ) t =>
      (out.1 ++ [t], out.2 ++ [D.issue (D.seen out.1 t) t])) ([], [])).1 = ts := by
    intro ts
    induction ts using List.reverseRecOn with
    | nil => rfl
    | append_singleton ts t ih => rw [List.foldl_append, List.foldl_cons, ih, List.foldl_nil]
  rw [issued, List.foldl_append, List.foldl_cons, List.foldl_nil, hjobs]
  rfl

/-! ## Queues -/

/-- On a sorted queue the items that are due are those at its head. -/
theorem settle_eq (hq : q.Pairwise (· ≤ ·)) :
    D.settle now s q = ((q.filter fun r => decide (D.due r ≤ now)).foldl D.absorb s,
      q.filter fun r => !decide (D.due r ≤ now)) := by
  induction q generalizing s with
  | nil => rfl
  | cons r q ih =>
      obtain ⟨hr, hq⟩ := List.pairwise_cons.mp hq
      rw [settle]
      split_ifs with hdue
      · rw [ih hq]
        simp [hdue]
      · have hlater : ∀ b ∈ q, ¬ D.due b ≤ now := fun b hb h =>
          hdue ((D.due_mono (hr b hb)).trans h)
        have hnone : (q.filter fun r => decide (D.due r ≤ now)) = [] := by
          simpa [List.filter_eq_nil_iff] using hlater
        have hall : (q.filter fun r => !decide (D.due r ≤ now)) = q := by
          simpa [List.filter_eq_self] using hlater
        simp [hdue, hnone, hall]

theorem settle_settle {e : κ} (he : e ≤ now) :
    D.settle now (D.settle e s q).1 (D.settle e s q).2 = D.settle now s q := by
  induction q generalizing s with
  | nil => rfl
  | cons r q ih =>
      by_cases hdue : D.due r ≤ e
      · rw [settle, if_pos hdue, ih, settle, if_pos (hdue.trans he)]
      · rw [settle, if_neg hdue]

theorem pairwise_settle (hq : q.Pairwise (· ≤ ·)) : (D.settle now s q).2.Pairwise (· ≤ ·) := by
  rw [settle_eq hq]
  exact hq.filter _

theorem pairwise_run (ts : List α) : (D.run ts).2.Pairwise (· ≤ ·) := by
  induction ts using List.reverseRecOn with
  | nil => exact List.Pairwise.nil
  | append_singleton ts t ih =>
      rw [run_concat]
      exact (pairwise_settle ih).orderedInsert _ _

theorem pairwise_settledAt (now : κ) (ts : List α) :
    (D.settledAt now ts).2.Pairwise (· ≤ ·) :=
  pairwise_settle (pairwise_run ts)

/-- A job settles what is due, sees the state, and puts its item into the queue. -/
theorem settledAt_concat (now : κ) (ts : List α) (t : α) :
    D.settledAt now (ts ++ [t]) = D.settle now (D.seen ts t)
      ((D.settledAt (D.now t) ts).2.orderedInsert (· ≤ ·) (D.issue (D.seen ts t) t)) := by
  rw [settledAt, run_concat]

theorem filter_orderedInsert_of_pos {p : ρ → Bool} {r : ρ} (hq : q.Pairwise (· ≤ ·))
    (hr : p r = true) :
    (q.orderedInsert (· ≤ ·) r).filter p = (q.filter p).orderedInsert (· ≤ ·) r := by
  refine List.Perm.eq_of_pairwise (fun a b _ _ => le_antisymm) ((hq.orderedInsert r q).filter p)
    ((hq.filter p).orderedInsert r _) ?_
  have hperm := (List.perm_orderedInsert (· ≤ ·) r q).filter p
  rw [List.filter_cons_of_pos hr] at hperm
  exact hperm.trans (List.perm_orderedInsert (· ≤ ·) r _).symm

theorem filter_orderedInsert_of_neg {p : ρ → Bool} {r : ρ} (hr : ¬ p r = true) :
    (q.orderedInsert (· ≤ ·) r).filter p = q.filter p := by
  induction q with
  | nil => simp [hr]
  | cons b q ih =>
      rw [List.orderedInsert_cons]
      split_ifs
      · rw [List.filter_cons_of_neg hr]
      · rw [List.filter_cons, List.filter_cons, ih]

/-! ## What a job does not see -/

/-- The queue without what is due after `τ`. -/
def keepDue (D : Desk σ α ρ κ) (τ : κ) (q : List ρ) : List ρ :=
  q.filter fun r => decide (D.due r ≤ τ)

/-- The jobs whose items are due by `τ`. -/
def visible (D : Desk σ α ρ κ) (τ : κ) (ts : List α) : List α :=
  ts.filter fun t => decide (D.close t ≤ τ)

/-- Up to `τ` it makes no difference whether the later items are in the queue. -/
theorem settle_keepDue (hq : q.Pairwise (· ≤ ·)) (hτ : now ≤ τ) :
    D.settle now s (D.keepDue τ q) =
      ((D.settle now s q).1, D.keepDue τ (D.settle now s q).2) := by
  have hdue : (D.keepDue τ q).filter (fun r => decide (D.due r ≤ now)) =
      q.filter fun r => decide (D.due r ≤ now) := by
    rw [keepDue, List.filter_filter]
    refine List.filter_congr fun r _ => ?_
    by_cases h : D.due r ≤ now
    · simp [h, h.trans hτ]
    · simp [h]
  have hcut : (D.keepDue τ q).Pairwise (· ≤ ·) := hq.filter _
  rw [settle_eq hq, settle_eq hcut, hdue]
  refine Prod.ext rfl ?_
  show (List.filter _ _).filter _ = (List.filter _ _).filter _
  rw [List.filter_filter, List.filter_filter]
  exact List.filter_congr fun r _ => Bool.and_comm _ _

/-- A desk that only had the jobs due by `τ` is in the same state, at any time up to `τ`. -/
theorem settledAt_visible (hsorted : ts.Pairwise fun a b => D.now a ≤ D.now b)
    (hclose : ∀ t ∈ ts, D.now t ≤ D.close t) (hnow : ∀ t ∈ ts, D.now t ≤ now) (hτ : now ≤ τ) :
    D.settledAt now (D.visible τ ts) =
      ((D.settledAt now ts).1, D.keepDue τ (D.settledAt now ts).2) := by
  induction ts using List.reverseRecOn generalizing now with
  | nil => rfl
  | append_singleton ts t ih =>
      obtain ⟨hts, -, hbefore⟩ := List.pairwise_append.mp hsorted
      have hlast : ∀ a ∈ ts, D.now a ≤ D.now t := fun a ha => hbefore a ha t (by simp)
      have ht : D.now t ≤ now := hnow t (by simp)
      have ih' := fun {n : κ} (hn : ∀ a ∈ ts, D.now a ≤ n) (hnτ : n ≤ τ) =>
        ih hts (fun a ha => hclose a (List.mem_append_left _ ha)) hn hnτ
      have hseen := ih' hlast (ht.trans hτ)
      have hq := pairwise_settledAt (D := D) (D.now t) ts
      set x := D.issue (D.seen ts t) t with hx
      have hdue : D.due x = D.close t := D.due_issue _ _
      have hfull := settledAt_concat (D := D) now ts t
      rw [← hx] at hfull
      by_cases hvis : D.close t ≤ τ
      · -- the job is on both desks, and sees the same there
        have hcut : D.visible τ (ts ++ [t]) = D.visible τ ts ++ [t] := by
          simp [visible, hvis]
        have hstate : D.seen (D.visible τ ts) t = D.seen ts t := by rw [seen, hseen, seen]
        have hqueue : (D.settledAt (D.now t) (D.visible τ ts)).2.orderedInsert (· ≤ ·) x =
            D.keepDue τ ((D.settledAt (D.now t) ts).2.orderedInsert (· ≤ ·) x) := by
          rw [hseen]
          exact (filter_orderedInsert_of_pos hq (by rw [hdue]; exact decide_eq_true hvis)).symm
        rw [hfull, hcut, settledAt_concat, hstate, ← hx, hqueue,
          settle_keepDue (hq.orderedInsert _ _) hτ]
      · -- the item stays in the queue until after `τ`
        have hcut : D.visible τ (ts ++ [t]) = D.visible τ ts := by
          simp [visible, hvis]
        have hskip : D.keepDue τ ((D.settledAt (D.now t) ts).2.orderedInsert (· ≤ ·) x) =
            D.keepDue τ (D.settledAt (D.now t) ts).2 :=
          filter_orderedInsert_of_neg (by rw [hdue]; simpa using hvis)
        rw [hcut, ih' (fun a ha => hnow a (List.mem_append_left _ ha)) hτ, hfull,
          ← settle_keepDue (hq.orderedInsert _ _) hτ, hskip, settle_keepDue hq hτ]
        have hsettle : D.settle now (D.seen ts t) (D.settledAt (D.now t) ts).2 =
            D.settledAt now ts := settle_settle ht
        rw [hsettle]

/-- A job sees what it would see if the later items had never been issued. -/
theorem seen_visible (hsorted : ts.Pairwise fun a b => D.now a ≤ D.now b)
    (hclose : ∀ t ∈ ts, D.now t ≤ D.close t) (hnow : ∀ a ∈ ts, D.now a ≤ D.now t) :
    D.seen ts t = D.seen (D.visible (D.now t) ts) t := by
  rw [seen, seen, settledAt_visible hsorted hclose hnow le_rfl]

/-! ## What a job sees -/

/-- The items absorbed by `now`. -/
structure Absorbed (D : Desk σ α ρ κ) (now : κ) (ts : List α) (log : List ρ) : Prop where
  state : (D.settledAt now ts).1 = log.foldl D.absorb D.init
  ordered : log.Pairwise fun a b => D.due a ≤ D.due b
  perm : log.Perm ((D.issued ts).filter fun r => decide (D.due r ≤ now))

/-- What is absorbed and what is left in the queue make up the items issued. -/
theorem exists_log (hsorted : ts.Pairwise fun a b => D.now a ≤ D.now b)
    (hclose : ∀ t ∈ ts, D.now t ≤ D.close t) (hnow : ∀ t ∈ ts, D.now t ≤ now) :
    ∃ log, (D.settledAt now ts).1 = log.foldl D.absorb D.init ∧
      log.Pairwise (fun a b => D.due a ≤ D.due b) ∧ (∀ r ∈ log, D.due r ≤ now) ∧
      (∀ r ∈ (D.settledAt now ts).2, ¬ D.due r ≤ now) ∧
      (log ++ (D.settledAt now ts).2).Perm (D.issued ts) := by
  induction ts using List.reverseRecOn generalizing now with
  | nil => exact ⟨[], rfl, List.Pairwise.nil, by simp, by simp [settledAt, settle], by rfl⟩
  | append_singleton ts t ih =>
      obtain ⟨hts, -, hbefore⟩ := List.pairwise_append.mp hsorted
      have hlast : ∀ a ∈ ts, D.now a ≤ D.now t := fun a ha => hbefore a ha t (by simp)
      obtain ⟨log, hstate, hord, hlog, hrest, hperm⟩ := ih hts
        (fun a ha => hclose a (List.mem_append_left _ ha)) hlast
      have ht : D.now t ≤ now := hnow t (by simp)
      have hq := pairwise_settledAt (D := D) (D.now t) ts
      set x := D.issue (D.seen ts t) t with hx
      set Q := (D.settledAt (D.now t) ts).2.orderedInsert (· ≤ ·) x with hQ
      have hsettle : D.settledAt now (ts ++ [t]) =
          ((Q.filter fun r => decide (D.due r ≤ now)).foldl D.absorb (D.seen ts t),
            Q.filter fun r => !decide (D.due r ≤ now)) := by
        rw [settledAt_concat, settle_eq (hq.orderedInsert _ _)]
      -- nothing in the queue is due before the job
      have hdueQ : ∀ r ∈ Q, D.now t ≤ D.due r := by
        intro r hr
        rcases (List.mem_orderedInsert _).mp hr with rfl | hr
        · rw [hx, D.due_issue]
          exact hclose t (by simp)
        · exact (not_le.mp (hrest r hr)).le
      refine ⟨log ++ Q.filter fun r => decide (D.due r ≤ now), ?_, ?_, ?_, ?_, ?_⟩
      · rw [hsettle, List.foldl_append, ← hstate]
        rfl
      · refine List.pairwise_append.mpr ⟨hord, ?_, fun a ha b hb =>
          (hlog a ha).trans (hdueQ b (List.mem_of_mem_filter hb))⟩
        exact ((hq.orderedInsert x _).filter _).imp fun h => D.due_mono h
      · intro r hr
        rcases List.mem_append.mp hr with hr | hr
        · exact (hlog r hr).trans ht
        · exact of_decide_eq_true (List.mem_filter.mp hr).2
      · rw [hsettle]
        intro r hr
        simpa using (List.mem_filter.mp hr).2
      · rw [hsettle, issued_concat, List.append_assoc]
        have hparts := List.filter_append_perm (fun r => decide (D.due r ≤ now)) Q
        have hins : Q.Perm (x :: (D.settledAt (D.now t) ts).2) := List.perm_orderedInsert _ _ _
        calc (log ++ (Q.filter (fun r => decide (D.due r ≤ now)) ++
              Q.filter fun r => !decide (D.due r ≤ now))).Perm (log ++ Q) := hparts.append_left log
          _ |>.Perm (log ++ x :: (D.settledAt (D.now t) ts).2) := hins.append_left log
          _ |>.Perm (x :: (log ++ (D.settledAt (D.now t) ts).2)) := List.perm_middle
          _ |>.Perm (x :: D.issued ts) := hperm.cons x
          _ |>.Perm (D.issued ts ++ [x]) := (List.perm_append_singleton x _).symm

/-- Each item that is due has been absorbed once, in the order in which they are due. -/
theorem exists_absorbed (hsorted : ts.Pairwise fun a b => D.now a ≤ D.now b)
    (hclose : ∀ t ∈ ts, D.now t ≤ D.close t) (hnow : ∀ t ∈ ts, D.now t ≤ now) :
    ∃ log, Absorbed D now ts log := by
  obtain ⟨log, hstate, hord, hlog, hrest, hperm⟩ := exists_log hsorted hclose hnow
  refine ⟨log, hstate, hord, ?_⟩
  have hdue := hperm.filter fun r => decide (D.due r ≤ now)
  rw [List.filter_append, List.filter_eq_self.mpr fun r hr => decide_eq_true (hlog r hr),
    List.filter_eq_nil_iff.mpr fun r hr => by simpa using hrest r hr, List.append_nil] at hdue
  exact hdue

end Desk

end SignalEngine.Lib
