/-
  Accounting: which emitted dict stands for which pushed signal.

  Model. `MeetsEqual` is a condition on a push and the state before it: what is pending under the
  key, if anything, has the same timeframes and comes from other brokers. The signals a router
  carries are the ones it has broadcast and the ones pending.

  Proved: `accounted_once`: in every run of such pushes that the drain loop closes, each pushed
  signal is accounted for by exactly one emitted dict, by the invariant `CarriesEach`, which
  opening an entry and joining one both keep.
-/
import SignalEngine.Lib.Loop
import SignalEngine.Manager.Broadcasts
import SignalEngine.Services.Moves

namespace SignalEngine

open Lib

/-! ## What an emitted dict accounts for -/

/-- The id that `_analyze_pair` gives a signal, from the fields the manager reads. -/
def SignalDict.Named (s : SignalDict) : Prop :=
  s.id = ⟨s.symbol, s.htfInterval, s.ltfInterval, s.key.ts, s.direction⟩

instance (s : SignalDict) : Decidable s.Named :=
  inferInstanceAs
    (Decidable (s.id = ⟨s.symbol, s.htfInterval, s.ltfInterval, s.key.ts, s.direction⟩))

theorem toDict_named {s : TradeSignal} (hid : s.id = s.namedId)
    (hopen : s.setupCandleOpenAt = some s.rejectionCandle.timestamp)
    (hts : s.rejectionCandle.timestamp ≠ 0) (broker : String) : (s.toDict broker).Named := by
  have hkey : (s.toDict broker).key.ts = s.rejectionCandle.timestamp := by
    simp [TradeSignal.toDict, SignalDict.key, pyOr, hopen, hts]
  rw [SignalDict.Named, hkey]
  exact hid

/-- What the engine emits is named, as long as its rejection candle has a timestamp. -/
theorem emitSetup_named {cfg : Settings} {raises : ℕ → Bool} {st : Service} {v : PairView}
    {io : PairInputs} {z : HtfRange} {rejection : RejectionCandle} {s : TradeSignal}
    (h : (st.emitSetup cfg raises v io z rejection).2 = .emitted s)
    (hts : rejection.timestamp ≠ 0) (broker : String) : (s.toDict broker).Named := by
  unfold Service.emitSetup at h
  split at h
  · cases h
  split at h
  · cases h
  next built hbuilt =>
  rw [evaluateSetup_signal] at hbuilt
  have hb := buildSignal_eq_some hbuilt
  cases h
  have hrejection : built.rejectionCandle = rejection := hb.rejectionCandle_eq
  refine toDict_named ?_ ?_ ?_ broker
  · show built.id = built.namedId
    exact hb.id_named
  · show some rejection.timestamp = some built.rejectionCandle.timestamp
    rw [hrejection]
  · show built.rejectionCandle.timestamp ≠ 0
    rw [hrejection]
    exact hts

/-- The same symbol, direction and setup candle, and the same timeframes. -/
def SameSetup (s s' : SignalDict) : Prop :=
  s.key = s'.key ∧ s.htfInterval = s'.htfInterval ∧ s.ltfInterval = s'.ltfInterval

instance (s s' : SignalDict) : Decidable (SameSetup s s') :=
  inferInstanceAs (Decidable (_ ∧ _ ∧ _))

/-- The dict lists the broker, and carries its signal or another broker's of the same setup. -/
def ConsensusSignal.AccountsFor (e : ConsensusSignal) (push : Push) : Prop :=
  push.broker ∈ e.consensus ∧ (e.signal.id = push.signal.id ∨
    e.signal.broker ≠ push.broker ∧ SameSetup e.signal push.signal)

instance (e : ConsensusSignal) (push : Push) : Decidable (e.AccountsFor push) :=
  inferInstanceAs (Decidable (_ ∧ _))

/-- What is pending under the key of a push is the same setup, from other brokers. -/
def MeetsEqual (R : Router) : RouterEvent → Prop
  | .onSignal event payload broker _ => event = .signalTriggered →
      ∀ p ∈ R.engine.slot payload.key, broker ∉ p.brokers ∧ SameSetup p.signal payload
  | .drain _ => True

instance (R : Router) : (e : RouterEvent) → Decidable (MeetsEqual R e)
  | .onSignal event payload broker _ => inferInstanceAs (Decidable (event = .signalTriggered →
      ∀ p ∈ R.engine.slot payload.key, broker ∉ p.brokers ∧ SameSetup p.signal payload))
  | .drain _ => instDecidableTrue

/-- Every push of the run meets an equal setup of another broker, or none. -/
def EqualMerges (windowMs : ℤ) (events : List RouterEvent) : Prop :=
  ∀ n, (hn : n < events.length) → MeetsEqual (runRouter windowMs (events.take n)) events[n]

instance (windowMs : ℤ) (events : List RouterEvent) : Decidable (EqualMerges windowMs events) :=
  inferInstanceAs (Decidable (∀ n, (hn : n < events.length) →
    MeetsEqual (runRouter windowMs (events.take n)) events[n]))

/-- The signals on their way to the gateway and those already there. -/
def Router.carried (R : Router) : List ConsensusSignal :=
  R.broadcasts ++ R.engine.pending.map Pending.emitted

variable {R : Router} {s s' : SignalDict} {e : ConsensusSignal} {push : Push}
  {dicts rest : List ConsensusSignal} {pushes : List Push} {events : List RouterEvent}
  {windowMs : ℤ}

/-- Among named signals the same setup is the same id. -/
theorem SameSetup.id_eq (h : SameSetup s s') (hs : s.Named) (hs' : s'.Named) : s.id = s'.id := by
  obtain ⟨hkey, hhtf, hltf⟩ := h
  have hsymbol : s.symbol = s'.symbol := congrArg ConsensusKey.symbol hkey
  have hdirection : s.direction = s'.direction := congrArg ConsensusKey.direction hkey
  rw [SignalDict.Named] at hs hs'
  rw [hs, hs', hkey, hhtf, hltf, hsymbol, hdirection]

theorem accountsFor_iff (he : e.signal.Named) (hpush : push.signal.Named) :
    e.AccountsFor push ↔ push.broker ∈ e.consensus ∧ e.signal.id = push.signal.id := by
  unfold ConsensusSignal.AccountsFor
  constructor
  · rintro ⟨hmem, hid | ⟨-, hsame⟩⟩
    · exact ⟨hmem, hid⟩
    · exact ⟨hmem, hsame.id_eq he hpush⟩
  · rintro ⟨hmem, hid⟩
    exact ⟨hmem, Or.inl hid⟩

/-! ## The invariant -/

/-- The carried signals stand for the pushes, each for its own. -/
structure CarriesEach (dicts : List ConsensusSignal) (pushes : List Push) : Prop where
  named : ∀ e ∈ dicts, e.signal.Named
  pushed : ∀ e ∈ dicts, ∀ broker ∈ e.consensus,
    ∃ push ∈ pushes, push.broker = broker ∧ push.signal.id = e.signal.id
  once : ∀ push ∈ pushes, push.signal.Named ∧
    dicts.countP (fun e => decide (e.AccountsFor push)) = 1

theorem CarriesEach.perm {dicts' : List ConsensusSignal} (h : CarriesEach dicts pushes)
    (hperm : dicts'.Perm dicts) : CarriesEach dicts' pushes := by
  refine ⟨fun e he => h.named e (hperm.mem_iff.mp he),
    fun e he => h.pushed e (hperm.mem_iff.mp he), fun push hpush => ?_⟩
  rw [hperm.countP_eq]
  exact h.once push hpush

/-- Nothing carried accounts for a signal its broker has not pushed. -/
theorem CarriesEach.countP_eq_zero (h : CarriesEach dicts pushes) (hnamed : push.signal.Named)
    (hnew : ∀ old ∈ pushes, ¬ (old.broker = push.broker ∧ old.signal.id = push.signal.id)) :
    dicts.countP (fun e => decide (e.AccountsFor push)) = 0 := by
  rw [List.countP_eq_zero]
  intro e he haccounts
  rw [decide_eq_true_eq, accountsFor_iff (h.named e he) hnamed] at haccounts
  obtain ⟨old, hold, hbroker, hid⟩ := h.pushed e he _ haccounts.1
  exact hnew old hold ⟨hbroker, hid.trans haccounts.2⟩

/-- A push joins a carried signal of the same id. -/
theorem CarriesEach.join (h : CarriesEach (e :: rest) pushes) (hnamed : push.signal.Named)
    (hid : e.signal.id = push.signal.id)
    (hnew : ∀ old ∈ pushes, ¬ (old.broker = push.broker ∧ old.signal.id = push.signal.id)) :
    CarriesEach (⟨e.signal, e.consensus ++ [push.broker]⟩ :: rest) (pushes ++ [push]) := by
  have heNamed := h.named e List.mem_cons_self
  have hjoined : ∀ old : Push, old.signal.Named →
      (ConsensusSignal.AccountsFor ⟨e.signal, e.consensus ++ [push.broker]⟩ old ↔
        (old.broker ∈ e.consensus ∨ old.broker = push.broker) ∧
          e.signal.id = old.signal.id) := by
    intro old hold
    have hiff := accountsFor_iff (e := ⟨e.signal, e.consensus ++ [push.broker]⟩) heNamed hold
    rwa [List.mem_append, List.mem_singleton] at hiff
  refine ⟨?_, ?_, ?_⟩
  · intro e' he'
    rcases List.mem_cons.mp he' with rfl | he'
    · exact heNamed
    · exact h.named e' (List.mem_cons_of_mem _ he')
  · intro e' he' broker hbroker
    rcases List.mem_cons.mp he' with rfl | he'
    · rcases List.mem_append.mp hbroker with hbroker | hbroker
      · obtain ⟨old, hold, heq⟩ := h.pushed e List.mem_cons_self broker hbroker
        exact ⟨old, List.mem_append_left _ hold, heq⟩
      · rw [List.mem_singleton] at hbroker
        exact ⟨push, by simp, hbroker.symm, hid.symm⟩
    · obtain ⟨old, hold, heq⟩ := h.pushed e' (List.mem_cons_of_mem _ he') broker hbroker
      exact ⟨old, List.mem_append_left _ hold, heq⟩
  · intro old hold
    rcases List.mem_append.mp hold with hold | hold
    · obtain ⟨holdNamed, hone⟩ := h.once old hold
      have hsame : ConsensusSignal.AccountsFor ⟨e.signal, e.consensus ++ [push.broker]⟩ old ↔
          e.AccountsFor old := by
        rw [hjoined old holdNamed, accountsFor_iff heNamed holdNamed]
        constructor
        · rintro ⟨hmem | heq, hid'⟩
          · exact ⟨hmem, hid'⟩
          · exact absurd ⟨heq, hid'.symm.trans hid⟩ (hnew old hold)
        · rintro ⟨hmem, hid'⟩
          exact ⟨Or.inl hmem, hid'⟩
      refine ⟨holdNamed, ?_⟩
      rw [← hone, List.countP_cons, List.countP_cons, decide_eq_decide.mpr hsame]
    · rw [List.mem_singleton] at hold
      subst hold
      have hzero := h.countP_eq_zero hnamed hnew
      rw [List.countP_cons] at hzero
      refine ⟨hnamed, ?_⟩
      rw [List.countP_cons, Nat.eq_zero_of_add_eq_zero_right hzero, if_pos]
      exact decide_eq_true ((hjoined old hnamed).mpr ⟨Or.inr rfl, hid⟩)

/-- A dict that lists no broker accounts for nothing. -/
theorem CarriesEach.cons_empty (h : CarriesEach dicts pushes) (hs : s.Named) :
    CarriesEach (⟨s, []⟩ :: dicts) pushes := by
  refine ⟨?_, ?_, ?_⟩
  · intro e he
    rcases List.mem_cons.mp he with rfl | he
    · exact hs
    · exact h.named e he
  · intro e he broker hbroker
    rcases List.mem_cons.mp he with rfl | he
    · cases hbroker
    · exact h.pushed e he broker hbroker
  · intro push hpush
    refine ⟨(h.once push hpush).1, ?_⟩
    rw [List.countP_cons, (h.once push hpush).2, if_neg]
    simp [ConsensusSignal.AccountsFor]

/-! ## Runs -/

theorem carried_drain (R : Router) (now : ℚ) : (R.drain now).carried.Perm R.carried := by
  unfold Router.carried Router.drain ConsensusEngine.drainExpired
  dsimp only
  rw [List.append_assoc, ← List.map_append]
  exact ((List.filter_append_perm (Pending.isExpired now) R.engine.pending).map _).append_left _

theorem carried_push_none {broker : String} {now : ℚ} (h : R.engine.slot s.key = none) :
    (R.onSignal .signalTriggered s broker now).carried.Perm
      (⟨{ s with broker := broker }, [broker]⟩ :: R.carried) := by
  have hslot : R.engine.slot ({ s with broker := broker } : SignalDict).key = none := h
  have hnew : (⟨{ s with broker := broker }, [broker], now + R.engine.window⟩ : Pending).key ∉
      keys Pending.key R.engine.pending := lookup_eq_none.mp h
  rw [Router.onSignal, if_pos rfl, push_none hslot]
  unfold Router.carried ConsensusEngine.buffer
  dsimp only
  rw [put_of_new hnew, List.map_append, Option.toList_none, List.append_nil, ← List.append_assoc]
  exact List.perm_append_singleton _ _

theorem carried_push_second {broker : String} {p : Pending}
    (h : R.engine.slot s.key = some p) (hbroker : broker ∉ p.brokers) (now : ℚ) :
    ∃ rest, R.carried.Perm (p.emitted :: rest) ∧
      (R.onSignal .signalTriggered s broker now).carried.Perm
        (⟨p.signal, p.brokers ++ [broker]⟩ :: rest) := by
  have hslot : R.engine.slot ({ s with broker := broker } : SignalDict).key = some p := h
  obtain ⟨hp, hkey⟩ := slot_eq_some h
  refine ⟨R.broadcasts ++ (erase Pending.key s.key R.engine.pending).map Pending.emitted, ?_, ?_⟩
  · have hperm := (perm_cons_erase R.engine.nodup hp).map Pending.emitted
    rw [hkey, List.map_cons] at hperm
    exact (hperm.append_left R.broadcasts).trans List.perm_middle
  · rw [Router.onSignal, if_pos rfl, push_second hslot hbroker]
    unfold Router.carried ConsensusEngine.delete
    dsimp only
    rw [Option.toList_some, List.append_assoc, List.singleton_append]
    exact List.perm_middle

/-- One event of the router keeps the invariant, a push when it is new and meets its equal. -/
theorem CarriesEach.apply (h : CarriesEach R.carried pushes) {event : RouterEvent}
    (hmeets : MeetsEqual R event) (hnamed : ∀ push ∈ event.push, push.signal.Named)
    (hnew : ∀ push ∈ event.push, ∀ old ∈ pushes,
      ¬ (old.broker = push.broker ∧ old.signal.id = push.signal.id)) :
    CarriesEach (R.apply event).carried (pushes ++ event.push.toList) := by
  cases event with
  | drain now =>
      rw [RouterEvent.push, Option.toList_none, List.append_nil]
      exact h.perm (carried_drain R now)
  | onSignal kind payload broker now =>
      by_cases hkind : kind = .signalTriggered
      · subst hkind
        have hpush : (RouterEvent.onSignal .signalTriggered payload broker now).push =
            some ⟨{ payload with broker := broker }, broker, now⟩ := rfl
        rw [hpush] at hnamed hnew
        have hname := hnamed _ rfl
        have hfresh := hnew _ rfl
        rw [hpush, Option.toList_some]
        cases hslot : R.engine.slot payload.key with
        | none =>
            refine CarriesEach.perm ?_ (carried_push_none hslot)
            exact (h.cons_empty hname).join hname rfl hfresh
        | some p =>
            obtain ⟨hbroker, hsame⟩ := hmeets rfl p hslot
            obtain ⟨rest, hold, hnow⟩ := carried_push_second hslot hbroker now
            have hrest := h.perm hold.symm
            refine CarriesEach.perm ?_ hnow
            have hequal : SameSetup p.signal { payload with broker := broker } := hsame
            exact hrest.join hname (hequal.id_eq (hrest.named _ List.mem_cons_self) hname) hfresh
      · have happly : (R.apply (.onSignal kind payload broker now)).carried = R.carried := by
          show (R.onSignal kind payload broker now).carried = R.carried
          rw [Router.onSignal, if_neg hkind]
          rfl
        have hpush : (RouterEvent.onSignal kind payload broker now).push = none := if_neg hkind
        rw [happly, hpush, Option.toList_none, List.append_nil]
        exact h

theorem pushesIn_append (events later : List RouterEvent) :
    pushesIn (events ++ later) = pushesIn events ++ pushesIn later :=
  List.filterMap_append

theorem pushesIn_cons (event : RouterEvent) (events : List RouterEvent) :
    pushesIn (event :: events) = event.push.toList ++ pushesIn events := by
  cases hpush : event.push with
  | none => exact List.filterMap_cons_none hpush
  | some push => exact List.filterMap_cons_some hpush

/-- The pushes of a run, around one of its events. -/
theorem pushesIn_split {n : ℕ} (hn : n < events.length) :
    pushesIn events =
      pushesIn (events.take n) ++ (events[n].push.toList ++ pushesIn (events.drop (n + 1))) := by
  rw [← pushesIn_cons, ← pushesIn_append, ← List.drop_eq_getElem_cons hn, List.take_append_drop]

theorem carriesEach_run (hmeets : EqualMerges windowMs events)
    (hnamed : ∀ push ∈ pushesIn events, push.signal.Named)
    (honce : ((pushesIn events).map (fun push => (push.broker, push.signal.id))).Nodup) (n : ℕ) :
    CarriesEach (runRouter windowMs (events.take n)).carried (pushesIn (events.take n)) := by
  induction n with
  | zero => exact ⟨by simp [runRouter, Router.carried, ConsensusEngine.new],
      by simp [runRouter, Router.carried, ConsensusEngine.new], by simp [pushesIn]⟩
  | succ n ih =>
      by_cases hn : n < events.length
      · have hsplit := pushesIn_split hn
        have hpushes : pushesIn (events.take (n + 1)) =
            pushesIn (events.take n) ++ events[n].push.toList := by
          rw [← List.take_append_getElem hn, pushesIn_append, pushesIn_cons]
          exact congrArg _ (List.append_nil _)
        rw [hpushes, runRouter, foldl_take_succ _ _ hn]
        refine ih.apply (hmeets n hn) (fun push hpush => hnamed push ?_) ?_
        · rw [hsplit, Option.mem_def.mp hpush]
          exact List.mem_append_right _ List.mem_cons_self
        · intro push hpush old hold heq
          rw [hsplit, List.map_append] at honce
          refine (List.nodup_append.mp honce).2.2 (old.broker, old.signal.id)
            (List.mem_map_of_mem hold) (push.broker, push.signal.id) ?_ (Prod.ext heq.1 heq.2)
          refine List.mem_map_of_mem (List.mem_append_left _ ?_)
          rw [Option.mem_def.mp hpush]
          exact List.mem_singleton_self push
      · rw [List.take_of_length_le (by omega)] at ih ⊢
        exact ih

/-- Once every window is closed, a drain leaves nothing pending. -/
theorem carried_closed {T : ℚ}
    (hclosed : ∀ push ∈ pushesIn events, push.now + windowMs / 1000 ≤ T) :
    ((runRouter windowMs events).drain T).carried =
      ((runRouter windowMs events).drain T).broadcasts := by
  have hempty : ((runRouter windowMs events).drain T).engine.pending = [] := by
    show (runRouter windowMs events).engine.pending.filter (fun p => !p.isExpired T) = []
    rw [List.filter_eq_nil_iff]
    intro p hp
    obtain ⟨payload, broker, now, hmem, -, rfl⟩ :=
      slot_runRouter (lookup_of_mem (runRouter windowMs events).engine.nodup hp)
    have hover : (openedBy windowMs payload broker now).isExpired T = true :=
      decide_eq_true (hclosed ⟨{ payload with broker := broker }, broker, now⟩
        (List.mem_filterMap.mpr ⟨_, hmem, rfl⟩))
    rw [hover]
    exact Bool.false_ne_true
  rw [Router.carried, hempty, List.map_nil, List.append_nil]

/-- **Each signal is emitted once**: in every run whose pushes meet equal setups of other brokers
    only, every pushed signal is accounted for by exactly one emitted dict, and two signals of one
    broker never by the same. -/
theorem accounted_once {T : ℚ} (hmeets : EqualMerges windowMs events)
    (hnamed : ∀ push ∈ pushesIn events, push.signal.Named)
    (honce : ((pushesIn events).map (fun push => (push.broker, push.signal.id))).Nodup)
    (hclosed : ∀ push ∈ pushesIn events, push.now + windowMs / 1000 ≤ T) :
    (∀ push ∈ pushesIn events,
        (runRouter windowMs (events ++ [.drain T])).broadcasts.countP
          (fun e => decide (e.AccountsFor push)) = 1) ∧
      ∀ push ∈ pushesIn events, ∀ other ∈ pushesIn events,
        push.signal.id ≠ other.signal.id →
        ∀ e ∈ (runRouter windowMs (events ++ [.drain T])).broadcasts,
          ¬ (e.AccountsFor push ∧ e.AccountsFor other) := by
  have hrun := carriesEach_run hmeets hnamed honce events.length
  rw [List.take_length] at hrun
  have hlast : runRouter windowMs (events ++ [.drain T]) = (runRouter windowMs events).drain T := by
    rw [runRouter, List.foldl_append, ← runRouter]
    rfl
  have hcarries := hrun.perm (carried_drain (runRouter windowMs events) T)
  rw [carried_closed hclosed] at hcarries
  rw [hlast]
  refine ⟨fun push hpush => (hcarries.once push hpush).2, ?_⟩
  rintro push hpush other hother hne e he ⟨haccounts, haccounts'⟩
  rw [accountsFor_iff (hcarries.named e he) (hnamed push hpush)] at haccounts
  rw [accountsFor_iff (hcarries.named e he) (hnamed other hother)] at haccounts'
  exact hne (haccounts.2.symm.trans haccounts'.2)

def fourHours : Interval := ⟨4, .h, by decide⟩

/-- The sample signal as the four-hourly zone around it gives it, on the same candle. -/
def fourHourSignal : TradeSignal :=
  { sampleSignal with
    id := ⟨"XAUUSD", fourHours, fiveMin, 7200000, .long⟩
    htfInterval := fourHours }

/-- Two brokers agree on the sample signal before one of them has the four-hourly one. -/
def agreedFirst : List RouterEvent :=
  [.onSignal .signalTriggered sampleDict "a" 0, .onSignal .signalTriggered sampleDict "b" 2,
    .onSignal .signalTriggered (fourHourSignal.toDict "") "a" 3, .drain 4]

theorem agreedFirst_accounted :
    (runRouter 60000 (agreedFirst ++ [.drain 70])).broadcasts.countP
      (fun e => decide (e.AccountsFor ⟨sampleSignal.toDict "b", "b", 2⟩)) = 1 :=
  (accounted_once (T := 70) (by decide +kernel) (by decide +kernel) (by decide +kernel)
    (by decide +kernel)).1 ⟨sampleSignal.toDict "b", "b", 2⟩ (by decide +kernel)

/-- Pushed while the first is pending, the second signal of a broker is dropped as a duplicate. -/
theorem other_timeframe_dropped :
    ¬ ∀ (windowMs : ℤ) (events : List RouterEvent) (T : ℚ),
      (∀ push ∈ pushesIn events, push.signal.Named) →
      ((pushesIn events).map (fun push => (push.broker, push.signal.id))).Nodup →
      (∀ push ∈ pushesIn events, push.now + windowMs / 1000 ≤ T) →
      ∀ push ∈ pushesIn events,
        (runRouter windowMs (events ++ [.drain T])).broadcasts.countP
          (fun e => decide (e.AccountsFor push)) = 1 := by
  intro h
  have hone := h 60000
    [.onSignal .signalTriggered sampleDict "a" 0,
      .onSignal .signalTriggered (fourHourSignal.toDict "") "a" 1] 70
    (by decide +kernel) (by decide +kernel) (by decide +kernel)
    ⟨fourHourSignal.toDict "a", "a", 1⟩ (by decide +kernel)
  revert hone
  decide +kernel

end SignalEngine
