/-
  Hand-over: what the gateway has got of a signal when a lifecycle event of it goes by.

  Model. The calls on the gateway before an event are the `broadcasts` of the router before it.
  A signal is handed over by a broadcast under its id that names its broker in `consensus`.

  Proved: a signal once pushed is carried, pending or handed over, from then on (`holds_run`), so
  `triggeredFirst_of_settled`: in every run whose lifecycle events find no entry of their signal
  pending, and whose pushes find no other signal under their key, the triggered event goes first.
-/
import SignalEngine.Manager.Accounting

namespace SignalEngine

open Lib

/-- What the engine emits of a signal after it has triggered. -/
def lifecycleEvents : List SignalEvent :=
  [.signalTp1Hit, .signalTp2Hit, .signalSlHit, .signalExpired]

/-- One of the dicts is the signal, with its broker in the consensus. -/
def Holds (dicts : List ConsensusSignal) (broker : String) (id : SignalId) : Prop :=
  ∃ s ∈ dicts, s.signal.id = id ∧ broker ∈ s.consensus

instance (dicts : List ConsensusSignal) (broker : String) (id : SignalId) :
    Decidable (Holds dicts broker id) :=
  inferInstanceAs (Decidable (∃ s ∈ dicts, s.signal.id = id ∧ broker ∈ s.consensus))

/-- The engine has emitted `signal.triggered` of a signal before a lifecycle event of it. -/
def EmittedBefore (before : List RouterEvent) : RouterEvent → Prop
  | .onSignal event payload broker _ => event ∈ lifecycleEvents →
      ∃ push ∈ pushesIn before, push.broker = broker ∧ push.signal.id = payload.id
  | .drain _ => True

/-- The gateway has got `signal.triggered` of a signal before a lifecycle event of it. -/
def TriggeredBefore (R : Router) : RouterEvent → Prop
  | .onSignal event payload broker _ =>
      event ∈ lifecycleEvents → Holds R.broadcasts broker payload.id
  | .drain _ => True

/-- A signal is pushed under a free key or under one that holds the same signal, and its
    lifecycle events find it buffered no more. -/
def SettledStep (R : Router) : RouterEvent → Prop
  | .onSignal event payload broker _ =>
      (event = .signalTriggered → ∀ p ∈ R.engine.pending, p.key = payload.key →
        p.signal.id = payload.id) ∧
      (event ∈ lifecycleEvents → ∀ p ∈ R.engine.pending, p.signal.id = payload.id →
        broker ∉ p.brokers)
  | .drain _ => True

instance (before : List RouterEvent) (e : RouterEvent) : Decidable (EmittedBefore before e) :=
  match e with
  | .onSignal event payload broker _ => inferInstanceAs (Decidable (event ∈ lifecycleEvents →
      ∃ push ∈ pushesIn before, push.broker = broker ∧ push.signal.id = payload.id))
  | .drain _ => instDecidableTrue

instance (R : Router) (e : RouterEvent) : Decidable (TriggeredBefore R e) :=
  match e with
  | .onSignal event payload broker _ =>
      inferInstanceAs (Decidable (event ∈ lifecycleEvents → Holds R.broadcasts broker payload.id))
  | .drain _ => instDecidableTrue

instance (R : Router) (e : RouterEvent) : Decidable (SettledStep R e) :=
  match e with
  | .onSignal event payload broker _ => inferInstanceAs (Decidable
      ((event = .signalTriggered → ∀ p ∈ R.engine.pending, p.key = payload.key →
        p.signal.id = payload.id) ∧
      (event ∈ lifecycleEvents → ∀ p ∈ R.engine.pending, p.signal.id = payload.id →
        broker ∉ p.brokers)))
  | .drain _ => instDecidableTrue

/-! ## Signals that are not lost -/

variable {R : Router} {broker pusher : String} {id : SignalId} {windowMs : ℤ}
  {events : List RouterEvent} {dicts dicts' : List ConsensusSignal}

/-- The same engine sends the setup again. -/
theorem onSignal_again {payload : SignalDict} {p : Pending}
    (h : R.engine.slot payload.key = some p) (hpusher : pusher ∈ p.brokers) (now : ℚ) :
    R.onSignal .signalTriggered payload pusher now = R := by
  have hslot : R.engine.slot ({ payload with broker := pusher } : SignalDict).key = some p := h
  rw [Router.onSignal, if_pos rfl, push_again hslot hpusher, Option.toList_none, List.append_nil]

theorem Holds.perm (h : Holds dicts broker id) (hperm : dicts'.Perm dicts) :
    Holds dicts' broker id := by
  obtain ⟨s, hs, hrest⟩ := h
  exact ⟨s, hperm.mem_iff.mpr hs, hrest⟩

/-- A push keeps what is carried: the entry it joins leaves under its own signal. -/
theorem Holds.push (h : Holds R.carried broker id) (payload : SignalDict) (pusher : String)
    (now : ℚ) : Holds (R.onSignal .signalTriggered payload pusher now).carried broker id := by
  cases hslot : R.engine.slot payload.key with
  | none =>
      obtain ⟨s, hs, hrest⟩ := h
      exact Holds.perm ⟨s, List.mem_cons_of_mem _ hs, hrest⟩ (carried_push_none hslot)
  | some p =>
      by_cases hpusher : pusher ∈ p.brokers
      · rwa [onSignal_again hslot hpusher]
      · obtain ⟨rest, hold, hnow⟩ := carried_push_second hslot hpusher now
        refine Holds.perm ?_ hnow
        obtain ⟨s, hs, hid, hbroker⟩ := h.perm hold.symm
        rcases List.mem_cons.mp hs with rfl | hs
        · exact ⟨_, List.mem_cons_self, hid, List.mem_append_left _ hbroker⟩
        · exact ⟨s, List.mem_cons_of_mem _ hs, hid, hbroker⟩

theorem Holds.apply (h : Holds R.carried broker id) (e : RouterEvent) :
    Holds (R.apply e).carried broker id := by
  cases e with
  | drain now => exact h.perm (carried_drain R now)
  | onSignal event payload pusher now =>
      by_cases hevent : event = .signalTriggered
      · subst hevent
        exact h.push payload pusher now
      · rw [Router.apply, Router.onSignal, if_neg hevent]
        exact h

/-- A pushed signal is carried, unless another one holds its key. -/
theorem holds_pushed {payload : SignalDict} {now : ℚ}
    (h : ∀ p ∈ R.engine.pending, p.key = payload.key → p.signal.id = payload.id) :
    Holds (R.onSignal .signalTriggered payload pusher now).carried pusher payload.id := by
  cases hslot : R.engine.slot payload.key with
  | none =>
      refine Holds.perm ?_ (carried_push_none hslot)
      exact ⟨_, List.mem_cons_self, rfl, List.mem_singleton.mpr rfl⟩
  | some p =>
      obtain ⟨hp, hkey⟩ := slot_eq_some hslot
      have hid := h p hp hkey
      by_cases hpusher : pusher ∈ p.brokers
      · rw [onSignal_again hslot hpusher]
        exact ⟨p.emitted, List.mem_append_right _ (List.mem_map_of_mem hp), hid, hpusher⟩
      · obtain ⟨rest, -, hnow⟩ := carried_push_second hslot hpusher now
        refine Holds.perm ?_ hnow
        exact ⟨_, List.mem_cons_self, hid, List.mem_append_right _ (List.mem_singleton.mpr rfl)⟩

/-! ## Runs -/

/-- Every push of a settled run is carried from then on. -/
theorem holds_run
    (hsettled : ∀ n, (hn : n < events.length) →
      SettledStep (runRouter windowMs (events.take n)) events[n]) (n : ℕ) :
    ∀ push ∈ pushesIn (events.take n),
      Holds (runRouter windowMs (events.take n)).carried push.broker push.signal.id := by
  induction n with
  | zero => simp [pushesIn]
  | succ n ih =>
      by_cases hn : n < events.length
      swap
      · rw [List.take_of_length_le (by omega)] at ih ⊢
        exact ih
      intro push hpush
      rw [← List.take_append_getElem hn, pushesIn_append] at hpush
      rw [runRouter, foldl_take_succ _ _ hn, ← runRouter]
      rcases List.mem_append.mp hpush with hold | hnew
      · exact (ih push hold).apply events[n]
      have hstep := hsettled n hn
      cases he : events[n] with
      | drain now => simp [pushesIn, he, RouterEvent.push] at hnew
      | onSignal event payload broker now =>
          rw [he] at hstep hnew
          by_cases hevent : event = .signalTriggered
          · subst hevent
            obtain rfl : push = ⟨{ payload with broker := broker }, broker, now⟩ := by
              simpa [pushesIn, RouterEvent.push] using hnew
            exact holds_pushed (hstep.1 rfl)
          · simp [pushesIn, RouterEvent.push, hevent] at hnew

/-- **The triggered event goes first**: in every run that delivers each engine's events in
    order, the gateway has got `signal.triggered` of a signal before every lifecycle event of
    it, when each lifecycle event comes after its signal has left the buffer and each push finds
    no other signal under its key. -/
theorem triggeredFirst_of_settled
    (horder : ∀ n, (hn : n < events.length) → EmittedBefore (events.take n) events[n])
    (hsettled : ∀ n, (hn : n < events.length) →
      SettledStep (runRouter windowMs (events.take n)) events[n]) (n : ℕ)
    (hn : n < events.length) : TriggeredBefore (runRouter windowMs (events.take n)) events[n] := by
  have hemitted := horder n hn
  have hstep := hsettled n hn
  cases he : events[n] with
  | drain now => trivial
  | onSignal event payload broker now =>
      rw [he] at hemitted hstep
      intro hevent
      obtain ⟨push, hpush, rfl, hid⟩ := hemitted hevent
      obtain ⟨s, hs, hsid, hbroker⟩ := holds_run hsettled n push hpush
      rcases List.mem_append.mp hs with hs | hs
      · exact ⟨s, hs, hsid.trans hid, hbroker⟩
      · obtain ⟨p, hp, rfl⟩ := List.mem_map.mp hs
        exact absurd hbroker (hstep.2 hevent p hp (hsid.trans hid))

/-- Two brokers agree on a signal, which reaches its first target later. -/
def agreedPushes : List RouterEvent :=
  [.onSignal .signalTriggered sampleDict "a" 0, .onSignal .signalTriggered sampleDict "b" 2,
    .onSignal .signalTp1Hit sampleDict "b" 3]

theorem agreed_triggeredFirst :
    TriggeredBefore (runRouter 60000 [.onSignal .signalTriggered sampleDict "a" 0,
      .onSignal .signalTriggered sampleDict "b" 2])
      (.onSignal .signalTp1Hit sampleDict "b" 3) := by
  have horder : ∀ n, (hn : n < agreedPushes.length) →
      EmittedBefore (agreedPushes.take n) agreedPushes[n] := by decide +kernel
  have hsettled : ∀ n, (hn : n < agreedPushes.length) →
      SettledStep (runRouter 60000 (agreedPushes.take n)) agreedPushes[n] := by decide +kernel
  exact triggeredFirst_of_settled horder hsettled 2 (by decide)

/-- A target reached within the window of a lone broker is passed on before the signal. -/
theorem tp1Hit_overtakes :
    ¬ ∀ (windowMs : ℤ) (events : List RouterEvent),
      (∀ n, (hn : n < events.length) → EmittedBefore (events.take n) events[n]) →
      ∀ n, (hn : n < events.length) →
        TriggeredBefore (runRouter windowMs (events.take n)) events[n] := by
  intro h
  have hfirst := h 60000 [.onSignal .signalTriggered sampleDict "a" 0, .drain 1,
    .onSignal .signalTp1Hit sampleDict "a" 30, .drain 61] (by decide +kernel) 2 (by decide)
  revert hfirst
  decide +kernel

end SignalEngine
