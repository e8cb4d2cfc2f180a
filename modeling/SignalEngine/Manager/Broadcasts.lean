/-
  Broadcasts: how often a key is broadcast over a run of the router.

  Proved: `broadcastOnce_iff`: in every run that the drain loop closes, a key is broadcast at
  most once exactly when its signals meet in one entry (`PushedTogether`). A stretch without a
  push of the key is taken in one step (`view_run_none`, `view_run_some`), and `opened`, the
  broadcasts that have come or are sure to, only grows.
-/
import SignalEngine.Domain.Builder
import SignalEngine.Manager.Consensus

namespace SignalEngine

open Lib

variable {R : Router} {k : ConsensusKey} {payload : SignalDict} {broker : String} {now : ℚ}
  {windowMs : ℤ} {p : Pending} {n : ℕ} {events : List RouterEvent}

/-! ## Stretches without a push of the key -/

theorem view_run_none (hquiet : ∀ e ∈ events, RouterEvent.pushes k e = false)
    (h : R.view k = (none, n)) : (events.foldl Router.apply R).view k = (none, n) := by
  induction events generalizing R with
  | nil => exact h
  | cons e events ih =>
      have hrest := fun e' he' => hquiet e' (List.mem_cons_of_mem e he')
      refine ih hrest ?_
      cases e with
      | onSignal event payload broker now =>
          exact (view_onSignal_other (hquiet _ List.mem_cons_self)).trans h
      | drain now => exact view_drain_none h

/-- An entry waits until a drain finds its window closed. -/
theorem view_run_some (hquiet : ∀ e ∈ events, RouterEvent.pushes k e = false)
    (h : R.view k = (some p, n)) :
    (events.foldl Router.apply R).view k =
      if events.any (RouterEvent.drains p.expiresAt) then (none, n + 1) else (some p, n) := by
  induction events generalizing R with
  | nil => exact h
  | cons e events ih =>
      have hrest := fun e' he' => hquiet e' (List.mem_cons_of_mem e he')
      rw [List.foldl_cons, List.any_cons]
      cases e with
      | onSignal event payload broker now =>
          have hother : (R.apply (.onSignal event payload broker now)).view k = (some p, n) :=
            (view_onSignal_other (hquiet _ List.mem_cons_self)).trans h
          rw [ih hrest hother]
          rfl
      | drain now =>
          have hdrain : (R.apply (.drain now)).view k = _ := view_drain_some h
          by_cases hnow : p.expiresAt ≤ now
          · rw [if_pos hnow] at hdrain
            rw [view_run_none hrest hdrain, RouterEvent.drains, decide_eq_true hnow]
            rfl
          · rw [if_neg hnow] at hdrain
            rw [ih hrest hdrain, RouterEvent.drains, decide_eq_false hnow, Bool.false_or]

@[simp] theorem window_apply (R : Router) (e : RouterEvent) :
    (R.apply e).engine.window = R.engine.window := by
  cases e with
  | onSignal event payload broker now =>
      rw [Router.apply, Router.onSignal]
      split
      · rw [ConsensusEngine.push]
        split
        · split <;> rfl
        · rfl
      · rfl
  | drain now => rfl

@[simp] theorem window_foldl (R : Router) (events : List RouterEvent) :
    (events.foldl Router.apply R).engine.window = R.engine.window := by
  induction events generalizing R with
  | nil => rfl
  | cons e events ih => rw [List.foldl_cons, ih, window_apply]

/-! ## Broadcasts that are sure to come -/

/-- The broadcasts of a key, and the one its pending entry will still give. -/
def Router.opened (R : Router) (k : ConsensusKey) : ℕ :=
  (R.view k).2 + if (R.view k).1.isSome then 1 else 0

/-- A drain moves an entry to the broadcasts, or leaves it. -/
theorem opened_drain (R : Router) (now : ℚ) (k : ConsensusKey) :
    (R.drain now).opened k = R.opened k := by
  obtain ⟨slot, n, hview⟩ : ∃ slot n, R.view k = (slot, n) := ⟨_, _, rfl⟩
  rw [Router.opened, Router.opened, hview]
  cases slot with
  | none => rw [view_drain_none hview]
  | some p =>
      rw [view_drain_some hview]
      by_cases hnow : p.expiresAt ≤ now <;> simp [hnow]

theorem opened_le_apply (R : Router) (e : RouterEvent) (k : ConsensusKey) :
    R.opened k ≤ (R.apply e).opened k := by
  obtain ⟨slot, n, hview⟩ : ∃ slot n, R.view k = (slot, n) := ⟨_, _, rfl⟩
  cases e with
  | drain now => exact (opened_drain R now k).ge
  | onSignal event payload broker now =>
      show R.opened k ≤ (R.onSignal event payload broker now).opened k
      rw [Router.opened, Router.opened]
      cases hpush : RouterEvent.pushes k (.onSignal event payload broker now) with
      | false => rw [view_onSignal_other hpush]
      | true =>
          obtain ⟨rfl, hkey⟩ := of_decide_eq_true hpush
          rw [hview]
          cases slot with
          | none =>
              rw [view_push_none hkey hview]
              simp
          | some p =>
              rw [view_push_some hkey hview]
              by_cases hbroker : broker ∈ p.brokers <;> simp [hbroker]

theorem opened_le_run (R : Router) (events : List RouterEvent) (k : ConsensusKey) :
    R.opened k ≤ (events.foldl Router.apply R).opened k := by
  induction events generalizing R with
  | nil => exact le_refl _
  | cons e events ih => exact (opened_le_apply R e k).trans (ih _)

/-- The entry a push opens. -/
def openedBy (windowMs : ℤ) (payload : SignalDict) (broker : String) (now : ℚ) : Pending :=
  ⟨{ payload with broker := broker }, [broker], now + windowMs / 1000⟩

theorem window_runRouter (windowMs : ℤ) (events : List RouterEvent) :
    (runRouter windowMs events).engine.window = windowMs / 1000 := window_foldl _ _

/-- Every pending entry was opened by some push, and no broker has joined it. -/
theorem slot_runRouter (h : (runRouter windowMs events).engine.slot k = some p) :
    ∃ payload broker now, .onSignal .signalTriggered payload broker now ∈ events ∧
      payload.key = k ∧ p = openedBy windowMs payload broker now := by
  induction events using List.reverseRecOn generalizing p with
  | nil => cases h
  | append_singleton events e ih =>
      have hwindow := window_runRouter windowMs events
      rw [runRouter, List.foldl_append, ← runRouter] at h
      generalize runRouter windowMs events = R at h hwindow ih
      have hkept : R.engine.slot k = some p → ∃ payload broker now,
          .onSignal .signalTriggered payload broker now ∈ events ++ [e] ∧
            payload.key = k ∧ p = openedBy windowMs payload broker now := by
        intro hslot
        obtain ⟨payload, broker, now, hmem, hrest⟩ := ih hslot
        exact ⟨payload, broker, now, List.mem_append_left _ hmem, hrest⟩
      have hview : ((R.apply e).view k).1 = some p := h
      obtain ⟨slot, n, hR⟩ : ∃ slot n, R.view k = (slot, n) := ⟨_, _, rfl⟩
      have hslot : R.engine.slot k = slot := congrArg Prod.fst hR
      cases e with
      | drain now =>
          rw [show R.apply (.drain now) = R.drain now from rfl] at hview
          cases slot with
          | none => rw [view_drain_none hR] at hview; cases hview
          | some q =>
              rw [view_drain_some hR] at hview
              split at hview
              · cases hview
              · cases hview; exact hkept hslot
      | onSignal event payload broker now =>
          rw [show R.apply (.onSignal event payload broker now) =
            R.onSignal event payload broker now from rfl] at hview
          cases hpush : RouterEvent.pushes k (.onSignal event payload broker now) with
          | false =>
              rw [view_onSignal_other hpush] at hview
              exact hkept hview
          | true =>
              obtain ⟨rfl, hkey⟩ := of_decide_eq_true hpush
              cases slot with
              | none =>
                  rw [view_push_none hkey hR, hwindow] at hview
                  cases hview
                  exact ⟨payload, broker, now, by simp, hkey, rfl⟩
              | some q =>
                  rw [view_push_some hkey hR] at hview
                  split at hview
                  · cases hview; exact hkept hslot
                  · cases hview

/-! ## At most one broadcast -/

/-- The pushes of a run under one key. -/
def pushesOf (k : ConsensusKey) (events : List RouterEvent) : List Push :=
  (pushesIn events).filter (fun push => decide (push.signal.key = k))

/-- Two brokers at most push under the key, and no drain comes between their pushes once the
    window is closed. -/
structure PushedTogether (windowMs : ℤ) (k : ConsensusKey) (events : List RouterEvent) : Prop where
  two : events.countP (RouterEvent.pushes k) ≤ 2
  held : ∀ before between after payload broker now e,
    events = before ++ .onSignal .signalTriggered payload broker now :: (between ++ e :: after) →
    payload.key = k → RouterEvent.pushes k e = true →
    between.any (RouterEvent.drains (now + windowMs / 1000)) = false

theorem exists_first_push (k : ConsensusKey) (events : List RouterEvent) :
    (∀ e ∈ events, RouterEvent.pushes k e = false) ∨
      ∃ before payload broker now after,
        events = before ++ .onSignal .signalTriggered payload broker now :: after ∧
          payload.key = k ∧ ∀ e ∈ before, RouterEvent.pushes k e = false := by
  cases hfind : events.find? (RouterEvent.pushes k) with
  | none =>
      rw [List.find?_eq_none] at hfind
      exact Or.inl fun e he => Bool.eq_false_iff.mpr (hfind e he)
  | some e =>
      obtain ⟨hpush, before, after, rfl, hbefore⟩ := List.find?_eq_some_iff_append.mp hfind
      cases e with
      | drain now => cases hpush
      | onSignal event payload broker now =>
          obtain ⟨rfl, hkey⟩ := of_decide_eq_true hpush
          refine Or.inr ⟨before, payload, broker, now, after, rfl, hkey, fun e he => ?_⟩
          simpa using hbefore e he

/-- A push that finds the key already broadcast brings a second broadcast. -/
theorem opened_reopened (h : R.view k = (none, n)) {e : RouterEvent}
    (he : RouterEvent.pushes k e = true) : (R.apply e).opened k = n + 1 := by
  cases e with
  | drain now => cases he
  | onSignal event payload broker now =>
      obtain ⟨rfl, hkey⟩ := of_decide_eq_true he
      show (R.onSignal .signalTriggered payload broker now).opened k = n + 1
      rw [Router.opened, view_push_none hkey h]
      rfl

theorem countP_pushes_eq_zero (h : ∀ e ∈ events, RouterEvent.pushes k e = false) :
    events.countP (RouterEvent.pushes k) = 0 := by
  rw [List.countP_eq_zero]
  intro e he
  rw [h e he]
  exact Bool.false_ne_true

theorem pushes_eq_false_of_countP (h : events.countP (RouterEvent.pushes k) = 0) :
    ∀ e ∈ events, RouterEvent.pushes k e = false := fun e he =>
  Bool.eq_false_iff.mpr (List.countP_eq_zero.mp h e he)

/-- The view at the first push of a key, and once its second broker has pushed. -/
theorem view_first_push (windowMs : ℤ) {before : List RouterEvent}
    (hbefore : ∀ e ∈ before, RouterEvent.pushes k e = false) (hkey : payload.key = k)
    (broker : String) (now : ℚ) :
    (runRouter windowMs
      (before ++ [.onSignal .signalTriggered payload broker now])).view k =
        (some (openedBy windowMs payload broker now), 0) := by
  have hnone : (runRouter windowMs before).view k = (none, 0) := view_run_none hbefore rfl
  have hwindow := window_runRouter windowMs before
  rw [runRouter, List.foldl_append, ← runRouter]
  have hpush := view_push_none hkey hnone broker now
  rw [hwindow] at hpush
  exact hpush

theorem runRouter_split (windowMs : ℤ) (before between after : List RouterEvent)
    (e e' : RouterEvent) :
    runRouter windowMs (before ++ e :: (between ++ e' :: after)) =
      after.foldl Router.apply ((between ++ [e']).foldl Router.apply
        (runRouter windowMs (before ++ [e]))) := by
  rw [runRouter, runRouter, ← List.foldl_append, ← List.foldl_append]
  congr 1
  simp only [List.append_assoc, List.cons_append, List.nil_append]

/-- The second push of a key either completes the consensus or opens the key again. -/
theorem view_second_push {between : List RouterEvent} {payload' : SignalDict} {broker' : String}
    (hview : R.view k = (some p, n)) (hbetween : ∀ e ∈ between, RouterEvent.pushes k e = false)
    (hkey : payload'.key = k) (hbroker : broker' ∉ p.brokers) (now' : ℚ) :
    ((between ++ [RouterEvent.onSignal .signalTriggered payload' broker' now']).foldl
      Router.apply R).view k =
      if between.any (RouterEvent.drains p.expiresAt) then
        (some ⟨{ payload' with broker := broker' }, [broker'], now' + R.engine.window⟩, n + 1)
      else (none, n + 1) := by
  have hrun := view_run_some hbetween hview
  have hwindow := window_foldl R between
  rw [List.foldl_append]
  generalize between.foldl Router.apply R = R' at hrun hwindow
  show (R'.onSignal .signalTriggered payload' broker' now').view k = _
  split
  · next hdrained =>
      rw [if_pos hdrained] at hrun
      rw [view_push_none hkey hrun, hwindow]
  · next hheld =>
      rw [if_neg hheld] at hrun
      rw [view_push_some hkey hrun, if_neg hbroker]

theorem pushesOf_append (k : ConsensusKey) (events later : List RouterEvent) :
    pushesOf k (events ++ later) = pushesOf k events ++ pushesOf k later := by
  rw [pushesOf, pushesIn, List.filterMap_append, List.filter_append]
  rfl

theorem brokers_ne {before between after : List RouterEvent} {broker' : String} {now' : ℚ}
    {payload' : SignalDict} (hkey : payload.key = k) (hkey' : payload'.key = k)
    (h : ((pushesOf k (before ++ .onSignal .signalTriggered payload broker now ::
      (between ++ .onSignal .signalTriggered payload' broker' now' :: after))).map
        Push.broker).Nodup) : broker' ∉ [broker] := by
  have hsplit : ∀ (signal : SignalDict) (b : String) (t : ℚ) (l : List RouterEvent),
      signal.key = k → pushesOf k (.onSignal .signalTriggered signal b t :: l) =
        ⟨{ signal with broker := b }, b, t⟩ :: pushesOf k l :=
    fun _ _ _ _ hsignal => List.filter_cons_of_pos (decide_eq_true hsignal)
  rw [pushesOf_append, hsplit _ _ _ _ hkey, pushesOf_append, hsplit _ _ _ _ hkey', List.map_append,
    List.map_cons, List.map_append, List.map_cons] at h
  have hcons := (List.nodup_append.mp h).2.1
  rw [List.mem_singleton]
  rintro rfl
  exact (List.nodup_cons.mp hcons).1 (List.mem_append_right _ List.mem_cons_self)

theorem opened_le_one (hbrokers : ((pushesOf k events).map Push.broker).Nodup)
    (h : PushedTogether windowMs k events) : (runRouter windowMs events).opened k ≤ 1 := by
  rcases exists_first_push k events with hquiet | ⟨before, payload, broker, now, rest, rfl, hkey,
    hbefore⟩
  · have hnone : (runRouter windowMs events).view k = (none, 0) := view_run_none hquiet rfl
    rw [Router.opened, hnone]
    exact Nat.zero_le 1
  have hfirst := view_first_push windowMs hbefore hkey broker now
  rcases exists_first_push k rest with hquiet | ⟨between, payload', broker', now', after, rfl,
    hkey', hbetween⟩
  · have hview := view_run_some hquiet hfirst
    rw [runRouter, ← List.foldl_append, ← List.append_cons] at hview
    rw [Router.opened, runRouter, hview]
    split <;> simp
  · have hheld := h.held before between after payload broker now _ rfl hkey
      (decide_eq_true ⟨rfl, hkey'⟩)
    have hsecond := view_second_push hfirst hbetween hkey' (brokers_ne hkey hkey' hbrokers) now'
    rw [openedBy, hheld] at hsecond
    have htwo := h.two
    have hpush : RouterEvent.pushes k (.onSignal .signalTriggered payload broker now) = true :=
      decide_eq_true ⟨rfl, hkey⟩
    have hpush' : RouterEvent.pushes k (.onSignal .signalTriggered payload' broker' now') = true :=
      decide_eq_true ⟨rfl, hkey'⟩
    rw [List.countP_append, List.countP_cons_of_pos hpush, List.countP_append,
      List.countP_cons_of_pos hpush'] at htwo
    have hquiet : ∀ e ∈ after, RouterEvent.pushes k e = false :=
      pushes_eq_false_of_countP (by omega)
    rw [Router.opened, runRouter_split, view_run_none hquiet hsecond]
    exact le_refl 1

/-- A third push opens the key again, whatever became of the first two. -/
theorem countP_le_two (hbrokers : ((pushesOf k events).map Push.broker).Nodup)
    (h : (runRouter windowMs events).opened k ≤ 1) :
    events.countP (RouterEvent.pushes k) ≤ 2 := by
  rcases exists_first_push k events with hquiet | ⟨before, payload, broker, now, rest, rfl, hkey,
    hbefore⟩
  · rw [countP_pushes_eq_zero hquiet]
    exact Nat.zero_le 2
  have hpush : RouterEvent.pushes k (.onSignal .signalTriggered payload broker now) = true :=
    decide_eq_true ⟨rfl, hkey⟩
  rw [List.countP_append, countP_pushes_eq_zero hbefore, List.countP_cons_of_pos hpush]
  have hfirst := view_first_push windowMs hbefore hkey broker now
  rcases exists_first_push k rest with hquiet | ⟨between, payload', broker', now', after, rfl,
    hkey', hbetween⟩
  · rw [countP_pushes_eq_zero hquiet]
    omega
  have hpush' : RouterEvent.pushes k (.onSignal .signalTriggered payload' broker' now') = true :=
    decide_eq_true ⟨rfl, hkey'⟩
  rw [List.countP_append, countP_pushes_eq_zero hbetween, List.countP_cons_of_pos hpush']
  have hsecond := view_second_push hfirst hbetween hkey' (brokers_ne hkey hkey' hbrokers) now'
  rw [runRouter_split] at h
  generalize (between ++ [_]).foldl Router.apply (runRouter windowMs (before ++ [_])) = R
    at hsecond h
  rcases exists_first_push k after with hquiet | ⟨later, payload'', broker'', now'', last, rfl,
    hkey'', hlater⟩
  · rw [countP_pushes_eq_zero hquiet]
  · exfalso
    split at hsecond
    · have hle := (opened_le_run R _ k).trans h
      rw [Router.opened, hsecond] at hle
      simp at hle
    · have hpush'' : RouterEvent.pushes k
          (.onSignal .signalTriggered payload'' broker'' now'') = true :=
        decide_eq_true ⟨rfl, hkey''⟩
      rw [List.append_cons, List.foldl_append, List.foldl_append] at h
      have hle := (opened_le_run _ last k).trans h
      have hthird := opened_reopened (view_run_none hlater hsecond) hpush''
      rw [List.foldl_cons, List.foldl_nil, hthird] at hle
      omega

/-- A drain between the pushes makes the second one open the key again. -/
theorem held_of_opened {before between after : List RouterEvent} {e : RouterEvent}
    (hkey : payload.key = k) (he : RouterEvent.pushes k e = true)
    (htwo : (before ++ .onSignal .signalTriggered payload broker now ::
      (between ++ e :: after)).countP (RouterEvent.pushes k) ≤ 2)
    (h : (runRouter windowMs (before ++ .onSignal .signalTriggered payload broker now ::
      (between ++ e :: after))).opened k ≤ 1) :
    between.any (RouterEvent.drains (now + windowMs / 1000)) = false := by
  have hpush : RouterEvent.pushes k (.onSignal .signalTriggered payload broker now) = true :=
    decide_eq_true ⟨rfl, hkey⟩
  rw [List.countP_append, List.countP_cons_of_pos hpush, List.countP_append,
    List.countP_cons_of_pos he] at htwo
  have hbefore : ∀ e ∈ before, RouterEvent.pushes k e = false :=
    pushes_eq_false_of_countP (by omega)
  have hbetween : ∀ e ∈ between, RouterEvent.pushes k e = false :=
    pushes_eq_false_of_countP (by omega)
  have hrun := view_run_some hbetween (view_first_push windowMs hbefore hkey broker now)
  by_contra hdrained
  rw [Bool.not_eq_false] at hdrained
  rw [openedBy, hdrained, if_pos rfl] at hrun
  have hreopened := opened_reopened hrun he
  rw [List.append_cons, runRouter, List.foldl_append, ← runRouter, List.foldl_append,
    List.foldl_cons] at h
  have hle := (opened_le_run _ after k).trans h
  rw [hreopened] at hle
  omega

/-- Once every window is closed, a drain leaves the broadcasts that were sure to come. -/
theorem broadcastsOf_drain {T : ℚ}
    (h : ∀ p, R.engine.slot k = some p → p.expiresAt ≤ T) :
    (R.drain T).broadcastsOf k = R.opened k := by
  obtain ⟨slot, n, hview⟩ : ∃ slot n, R.view k = (slot, n) := ⟨_, _, rfl⟩
  have hcount : ((R.drain T).view k).2 = (R.drain T).broadcastsOf k := rfl
  rw [← hcount, Router.opened, hview]
  cases slot with
  | none => rw [view_drain_none hview]; rfl
  | some p =>
      rw [view_drain_some hview, if_pos (h p (congrArg Prod.fst hview))]
      rfl

theorem broadcastsOf_le_opened (R : Router) (k : ConsensusKey) : R.broadcastsOf k ≤ R.opened k :=
  Nat.le_add_right _ _

/-- **When a key is broadcast at most once**: in every run that the drain loop closes, exactly
    when its signals meet in one entry. -/
theorem broadcastOnce_iff {T : ℚ} (hbrokers : ((pushesOf k events).map Push.broker).Nodup)
    (hclosed : ∀ push ∈ pushesOf k events, push.now + windowMs / 1000 ≤ T) :
    (∀ n, (runRouter windowMs ((events ++ [RouterEvent.drain T]).take n)).broadcastsOf k ≤ 1) ↔
      PushedTogether windowMs k events := by
  have hslot : ∀ p, (runRouter windowMs events).engine.slot k = some p → p.expiresAt ≤ T := by
    intro p hp
    obtain ⟨payload, broker, now, hmem, hkey, rfl⟩ := slot_runRouter hp
    refine hclosed ⟨{ payload with broker := broker }, broker, now⟩ ?_
    exact List.mem_filter.mpr ⟨List.mem_filterMap.mpr ⟨_, hmem, rfl⟩, decide_eq_true hkey⟩
  have hlast : (runRouter windowMs (events ++ [.drain T])).broadcastsOf k =
      (runRouter windowMs events).opened k := by
    rw [runRouter, List.foldl_append, ← runRouter]
    exact broadcastsOf_drain hslot
  constructor
  · intro h
    have hopened : (runRouter windowMs events).opened k ≤ 1 := by
      have hle := h (events.length + 1)
      rwa [List.take_of_length_le (by simp), hlast] at hle
    have htwo := countP_le_two hbrokers hopened
    refine ⟨htwo, ?_⟩
    intro before between after payload broker now e heq hkey he
    subst heq
    exact held_of_opened hkey he htwo hopened
  · intro h n
    have hwhole : (runRouter windowMs (events ++ [.drain T])).opened k ≤ 1 := by
      rw [runRouter, List.foldl_append, ← runRouter]
      exact (opened_drain _ T k).trans_le (opened_le_one hbrokers h)
    rw [← List.take_append_drop n (events ++ [RouterEvent.drain T]), runRouter, List.foldl_append,
      ← runRouter] at hwhole
    exact (broadcastsOf_le_opened _ k).trans ((opened_le_run _ _ k).trans hwhole)

def sampleDict : SignalDict := sampleSignal.toDict ""

/-- Two brokers two seconds apart, with the drain loop in between. -/
def twoBrokers : List RouterEvent :=
  [.onSignal .signalTriggered sampleDict "a" 0, .drain 1,
    .onSignal .signalTriggered sampleDict "b" 2, .drain 3]

theorem twoBrokers_together : PushedTogether 60000 sampleDict.key twoBrokers := by
  refine ⟨by decide +kernel, ?_⟩
  intro before between after payload broker now e heq hkey he
  rcases before with _ | ⟨b₀, _ | ⟨b₁, _ | ⟨b₂, _ | ⟨b₃, before⟩⟩⟩⟩ <;>
    simp only [twoBrokers, List.nil_append, List.cons_append, List.cons.injEq, reduceCtorEq,
      RouterEvent.onSignal.injEq, false_and, and_false, List.nil_eq, List.append_eq_nil_iff] at heq
  · obtain ⟨⟨-, rfl, rfl, rfl⟩, heq⟩ := heq
    rcases between with _ | ⟨c₀, _ | ⟨c₁, _ | ⟨c₂, between⟩⟩⟩ <;>
      simp only [List.nil_append, List.cons_append, List.cons.injEq] at heq
    · rw [← heq.1] at he
      cases he
    · rw [← heq.1]
      decide +kernel
    · rw [← heq.2.2.1] at he
      cases he
    · simp at heq
  · obtain ⟨-, -, -, heq⟩ := heq
    rcases between with _ | ⟨c₀, between⟩ <;>
      simp only [List.nil_append, List.cons_append, List.cons.injEq] at heq
    · rw [← heq.1] at he
      cases he
    · simp at heq

theorem twoBrokers_once :
    (runRouter 60000 ((twoBrokers ++ [RouterEvent.drain 70]).take 5)).broadcastsOf
      sampleDict.key ≤ 1 :=
  (broadcastOnce_iff (by decide +kernel) (by decide +kernel)).mpr twoBrokers_together 5

/-- A third broker, within the window of the first, has the signal broadcast again. -/
theorem third_broker_broadcast :
    ¬ ∀ (windowMs : ℤ) (events : List RouterEvent) (k : ConsensusKey),
      ((pushesOf k events).map Push.broker).Nodup →
      (∀ push ∈ pushesOf k events, ∀ later ∈ pushesOf k events,
        later.now ≤ push.now + windowMs / 1000) →
      ∀ n, (runRouter windowMs (events.take n)).broadcastsOf k ≤ 1 := by
  intro h
  have honce := h 60000 (twoBrokers ++ [.onSignal .signalTriggered sampleDict "c" 4, .drain 70])
    sampleDict.key (by decide +kernel) (by decide +kernel) 6
  revert honce
  decide +kernel

end SignalEngine
