/-
  Isolation: several stores in one process.

  Model. `_local.conn` is one connection for each thread, shared by all `SignalStore`s of the
  process: the first operation on a thread opens it on its own store's `db_path`, and every
  later operation on that thread uses it, whatever store it belongs to. A path without a
  schema has no tables, and a statement on it raises.

  Proved: a run in which no two stores share a thread gives each store what it would get
  alone (`trace_isolated`).
-/
import SignalEngine.Domain.Builder
import SignalEngine.Persistence.Store

namespace SignalEngine

variable {Thread Path : Type}

/-- The process: the connection of each thread and the database at each path. -/
structure StoreWorld (Thread Path : Type) where
  conns : Thread → Option Path
  files : Path → Option Tables

/-- A call of a store's method on some thread. -/
structure StoreCall (Thread Path : Type) where
  thread : Thread
  dbPath : Path
  op : StoreOp
  deriving DecidableEq, Repr

variable [DecidableEq Thread] [DecidableEq Path]

/-- `_conn`: the path behind the connection a call uses. -/
def StoreWorld.conn (w : StoreWorld Thread Path) (c : StoreCall Thread Path) : Path :=
  (w.conns c.thread).getD c.dbPath

def StoreWorld.step (w : StoreWorld Thread Path) (c : StoreCall Thread Path) :
    StoreWorld Thread Path × StoreResult :=
  let path := w.conn c
  let r := c.op.run (w.files path)
  (⟨Function.update w.conns c.thread (some path), Function.update w.files path r.1⟩, r.2)

/-- Every call of a run with what it returned. -/
def StoreWorld.trace (w : StoreWorld Thread Path) :
    List (StoreCall Thread Path) → List (StoreCall Thread Path × StoreResult)
  | [] => []
  | c :: cs => (c, (w.step c).2) :: (w.step c).1.trace cs

/-- A process that has not used any store yet. -/
def StoreWorld.start (files : Path → Option Tables) : StoreWorld Thread Path :=
  ⟨fun _ => none, files⟩

/-- The calls on one store. -/
def callsOn (a : Path) (cs : List (StoreCall Thread Path)) : List (StoreCall Thread Path) :=
  cs.filter (fun c => decide (c.dbPath = a))

/-- Each call on each store returns what it would return if only that store's calls had
    happened. -/
def Isolated (files : Path → Option Tables) (cs : List (StoreCall Thread Path)) : Prop :=
  ∀ a : Path, ((StoreWorld.start files).trace cs).filter (fun r => decide (r.1.dbPath = a)) =
    (StoreWorld.start files).trace (callsOn a cs)

/-- No thread serves two stores. -/
def ThreadsSeparate (cs : List (StoreCall Thread Path)) : Prop :=
  ∀ c ∈ cs, ∀ c' ∈ cs, c.thread = c'.thread → c.dbPath = c'.dbPath

/-! ## Two runs side by side -/

/-- `w` is the whole process and `v` the process with the calls on `a` only, before `cs`. -/
structure SameFor (a : Path) (cs : List (StoreCall Thread Path))
    (w v : StoreWorld Thread Path) : Prop where
  own : ∀ c ∈ cs, ∀ path, w.conns c.thread = some path → path = c.dbPath
  conns_eq : ∀ c ∈ cs, c.dbPath = a → w.conns c.thread = v.conns c.thread
  files_eq : w.files a = v.files a

variable {a : Path} {c : StoreCall Thread Path} {cs : List (StoreCall Thread Path)}
  {w v : StoreWorld Thread Path}

omit [DecidableEq Thread] [DecidableEq Path] in
theorem SameFor.conn_eq (h : SameFor a (c :: cs) w v) : w.conn c = c.dbPath := by
  unfold StoreWorld.conn
  cases hc : w.conns c.thread with
  | none => rfl
  | some path => exact h.own c List.mem_cons_self path hc

/-- After a call, the threads of the calls to come still serve their own store only. -/
theorem SameFor.own_step (h : SameFor a (c :: cs) w v) (hsep : ThreadsSeparate (c :: cs)) :
    ∀ d ∈ cs, ∀ path, (w.step c).1.conns d.thread = some path → path = d.dbPath := by
  intro d hd path hpath
  by_cases ht : d.thread = c.thread
  · have hsame := hsep d (List.mem_cons_of_mem _ hd) c List.mem_cons_self ht
    rw [StoreWorld.step, ht, h.conn_eq] at hpath
    simp only [Function.update_self, Option.some.injEq] at hpath
    rw [hsame, hpath]
  · rw [StoreWorld.step] at hpath
    simp only [Function.update_of_ne ht] at hpath
    exact h.own d (List.mem_cons_of_mem _ hd) path hpath

/-- A call on another store leaves `a` alone. -/
theorem SameFor.step_other (h : SameFor a (c :: cs) w v) (hsep : ThreadsSeparate (c :: cs))
    (hc : c.dbPath ≠ a) : SameFor a cs (w.step c).1 v where
  own := h.own_step hsep
  conns_eq := by
    intro d hd hda
    have ht : d.thread ≠ c.thread := by
      intro ht
      exact hc (hda ▸ (hsep d (List.mem_cons_of_mem _ hd) c List.mem_cons_self ht).symm)
    rw [← h.conns_eq d (List.mem_cons_of_mem _ hd) hda, StoreWorld.step]
    exact Function.update_of_ne ht _ _
  files_eq := by
    have hpath : a ≠ w.conn c := by rw [h.conn_eq]; exact hc.symm
    rw [← h.files_eq, StoreWorld.step]
    exact Function.update_of_ne hpath _ _

/-- A call on `a` does the same in both processes. -/
theorem SameFor.step_own (h : SameFor a (c :: cs) w v) (hsep : ThreadsSeparate (c :: cs))
    (hc : c.dbPath = a) :
    SameFor a cs (w.step c).1 (v.step c).1 ∧ (w.step c).2 = (v.step c).2 := by
  have hconns := h.conns_eq c List.mem_cons_self hc
  have hw : w.conn c = a := h.conn_eq.trans hc
  have hv : v.conn c = a := by rw [StoreWorld.conn, ← hconns]; exact hw
  have hrun : c.op.run (w.files (w.conn c)) = c.op.run (v.files (v.conn c)) := by
    rw [hw, hv, h.files_eq]
  refine ⟨⟨h.own_step hsep, ?_, ?_⟩, ?_⟩
  · intro d hd hda
    have hd' := h.conns_eq d (List.mem_cons_of_mem _ hd) hda
    by_cases ht : d.thread = c.thread
    · simp [StoreWorld.step, ht, hw, hv]
    · simp [StoreWorld.step, Function.update_of_ne ht, hd']
  · simp [StoreWorld.step, hw, hv, h.files_eq]
  · dsimp only [StoreWorld.step]
    rw [hrun]

theorem SameFor.trace_eq (h : SameFor a cs w v) (hsep : ThreadsSeparate cs) :
    (w.trace cs).filter (fun r => decide (r.1.dbPath = a)) = v.trace (callsOn a cs) := by
  induction cs generalizing w v with
  | nil => rfl
  | cons c cs ih =>
      have hsep' : ThreadsSeparate cs := fun d hd d' hd' =>
        hsep d (List.mem_cons_of_mem _ hd) d' (List.mem_cons_of_mem _ hd')
      rw [StoreWorld.trace, callsOn]
      by_cases hc : c.dbPath = a
      · obtain ⟨hnext, hres⟩ := h.step_own hsep hc
        rw [List.filter_cons_of_pos (by simpa using hc),
          List.filter_cons_of_pos (by simpa using hc), StoreWorld.trace, hres, ih hnext hsep']
        rfl
      · rw [List.filter_cons_of_neg (by simpa using hc),
          List.filter_cons_of_neg (by simpa using hc)]
        exact ih (h.step_other hsep hc) hsep'

/-- **Stores that share no thread are isolated**, whatever the interleaving. -/
theorem trace_isolated (files : Path → Option Tables) (cs : List (StoreCall Thread Path))
    (hsep : ThreadsSeparate cs) : Isolated files cs := by
  intro a
  exact SameFor.trace_eq ⟨by simp [StoreWorld.start], fun _ _ _ => rfl, rfl⟩ hsep

/-! ## Two stores on one thread -/

/-- A store's first call is its constructor. -/
def ConstructedFirst (cs : List (StoreCall Thread Path)) : Prop :=
  ∀ a : Path, ∀ c ∈ (callsOn a cs).head?, c.op = .construct

/-- The calls of two engines, `b`'s on `thread`: `b` saves a signal, then `a` loads. -/
def twoStores (thread : ℕ) : List (StoreCall ℕ String) :=
  [⟨0, "a", .construct⟩, ⟨thread, "b", .construct⟩,
    ⟨thread, "b", .upsertOpen sampleSignal 7500000⟩, ⟨0, "a", .loadOpenSignals⟩]

theorem twoStores_constructedFirst (thread : ℕ) : ConstructedFirst (twoStores thread) := by
  intro a c hc
  by_cases ha : "a" = a
  · subst ha
    simp [twoStores, callsOn] at hc
    rw [← hc]
  · by_cases hb : "b" = a
    · subst hb
      simp [twoStores, callsOn] at hc
      rw [← hc]
    · simp [twoStores, callsOn, ha, hb] at hc

/-- With both engines on thread 0, `a` loads the signal `b` saved. -/
theorem one_thread_mixes_stores :
    ¬ ∀ (files : String → Option Tables) (cs : List (StoreCall ℕ String)),
      ConstructedFirst cs → Isolated files cs := by
  intro h
  have hload := h (fun _ => none) (twoStores 0) (twoStores_constructedFirst 0) "a"
  revert hload
  decide +kernel

/-- With an engine on each thread, every load is the store's own. -/
theorem two_threads_isolated : Isolated (fun _ => none) (twoStores 1) :=
  trace_isolated (fun _ => none) (twoStores 1) (by unfold ThreadsSeparate; decide +kernel)

end SignalEngine
