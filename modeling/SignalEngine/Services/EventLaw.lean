/-
  EventLaw: what the listeners are told of one signal, in which order.

  `EventLaw` is the law of one id: its events, the records stored of it and its place on the
  watchlist. An emission is of an id without events, since its rejection was not yet seen; a
  candle of a watched signal moves its id one phase on.

  Proved: `eventLaw_of_run`, for every id after any calls of one process whose store takes every
  write.
-/
import SignalEngine.Services.Calls
import SignalEngine.Services.RestartSafety

namespace SignalEngine

open Lib

/-! ## The law -/

def ServiceEvent.signalId : ServiceEvent → Option SignalId
  | .pending _ _ _ => none
  | .triggered s => some s.id
  | .updated _ _ _ s => some s.id

/-- What the listeners were told of a signal. -/
def Service.eventsOf (st : Service) (id : SignalId) : List ServiceEvent :=
  st.events.filter (fun e => decide (e.signalId = some id))

/-- The record a call of the store has taken for `id`. -/
def recordFor (id : SignalId) : StoreOp × Bool → Option ClosedSignalRecord
  | (.insertClosed rec _, true) => if rec.signalId = id then some rec else none
  | _ => none

/-- The records stored of a signal. -/
def Service.recordsOf (st : Service) (id : SignalId) : List ClosedSignalRecord :=
  st.calls.filterMap (recordFor id)

/-- The phases of an id. The watchlist holds it from `signal.triggered` to its last event, which
    is that of its final status, and one record is stored with that. -/
inductive EventLaw (st : Service) (id : SignalId) : Prop
  | unseen : st.eventsOf id = [] → st.recordsOf id = [] →
      id ∉ keys TradeSignal.id st.watchlist → EventLaw st id
  | triggered (s₀ s : TradeSignal) : s ∈ st.watchlist → s.id = id → s.status = .triggered →
      st.eventsOf id = [.triggered s₀] → st.recordsOf id = [] → EventLaw st id
  | tp1Hit (s₀ s₁ s : TradeSignal) (prev : SignalStatus) (price : Option ℚ) :
      s ∈ st.watchlist → s.id = id → s.status = .tp1Hit →
      st.eventsOf id = [.triggered s₀, .updated .signalTp1Hit prev price s₁] →
      st.recordsOf id = [] → EventLaw st id
  | ended (s₀ s : TradeSignal) (tp1 : List ServiceEvent) (event : SignalEvent)
      (prev : SignalStatus) (price : Option ℚ) (rec : ClosedSignalRecord) :
      tp1 = [] ∨ (∃ prev price s₁, tp1 = [.updated .signalTp1Hit prev price s₁]) →
      s.status = .tp2Hit ∨ s.status = .slHit ∨ s.status = .expired →
      statusToCloseEvent s.status = some event →
      st.eventsOf id = .triggered s₀ :: (tp1 ++ [.updated event prev price s]) →
      st.recordsOf id = [rec] → id ∉ keys TradeSignal.id st.watchlist → EventLaw st id

/-- The rejection an id is named after. -/
def SignalId.rejKey (id : SignalId) : RejKey :=
  ⟨id.symbol, id.htfInterval, id.ltfInterval, id.rejTs⟩

/-- Ids with events have seen rejections. -/
structure EventInv (st : Service) : Prop extends Watching st where
  seen_of_told : ∀ id, st.eventsOf id ≠ [] → id.rejKey ∈ st.coordinator.state.seenRej
  law : ∀ id, EventLaw st id

variable {cfg : Settings} {raises : ℕ → Bool} {st st' : Service} {s : TradeSignal}
  {v : PairView} {z : HtfRange} {id : SignalId} {e : ServiceEvent}
  {profileOf : String → Interval → Interval → AssetProfile}

/-! ## Events and records of one id -/

theorem eventsOf_emit (h : st'.events = st.events ++ [e]) (hid : e.signalId = some id) :
    st'.eventsOf id = st.eventsOf id ++ [e] := by
  simp [Service.eventsOf, h, hid]

theorem eventsOf_emit_other (h : st'.events = st.events ++ [e]) (hid : e.signalId ≠ some id) :
    st'.eventsOf id = st.eventsOf id := by
  simp [Service.eventsOf, h, hid]

theorem recordsOf_append {log : List (StoreOp × Bool)} (h : st'.calls = st.calls ++ log) :
    st'.recordsOf id = st.recordsOf id ++ log.filterMap (recordFor id) := by
  rw [Service.recordsOf, h, List.filterMap_append]
  rfl

theorem recordFor_insertClosed {rec : ClosedSignalRecord} (h : rec.signalId = id) (day : ℤ) :
    recordFor id (.insertClosed rec day, true) = some rec :=
  if_pos h

theorem recordFor_insertClosed_other {rec : ClosedSignalRecord} (h : rec.signalId ≠ id) (day : ℤ)
    (ok : Bool) : recordFor id (.insertClosed rec day, ok) = none := by
  cases ok with
  | true => exact if_neg h
  | false => rfl

/-- The law of an id depends on nothing of the others. -/
theorem EventLaw.of_same (h : EventLaw st id) (hevents : st'.eventsOf id = st.eventsOf id)
    (hrecords : st'.recordsOf id = st.recordsOf id)
    (hwatch : ∀ y, y.id = id → (y ∈ st'.watchlist ↔ y ∈ st.watchlist)) : EventLaw st' id := by
  have hkeys : id ∉ keys TradeSignal.id st.watchlist →
      id ∉ keys TradeSignal.id st'.watchlist := by
    intro hnot hmem
    obtain ⟨y, hy, hid⟩ := mem_keys.mp hmem
    exact hnot (mem_keys.mpr ⟨y, (hwatch y hid).mp hy, hid⟩)
  cases h with
  | unseen hev hrec hid => exact .unseen (hevents.trans hev) (hrecords.trans hrec) (hkeys hid)
  | triggered s₀ s hs hid hst hev hrec =>
      exact .triggered s₀ s ((hwatch s hid).mpr hs) hid hst (hevents.trans hev)
        (hrecords.trans hrec)
  | tp1Hit s₀ s₁ s prev price hs hid hst hev hrec =>
      exact .tp1Hit s₀ s₁ s prev price ((hwatch s hid).mpr hs) hid hst (hevents.trans hev)
        (hrecords.trans hrec)
  | ended s₀ s tp1 event prev price rec htp1 hst hevent hev hrec hid =>
      exact .ended s₀ s tp1 event prev price rec htp1 hst hevent (hevents.trans hev)
        (hrecords.trans hrec) (hkeys hid)

/-- An id without events has no record and is not watched. -/
theorem EventLaw.of_untold (h : EventLaw st id) (hev : st.eventsOf id = []) :
    st.recordsOf id = [] ∧ id ∉ keys TradeSignal.id st.watchlist := by
  cases h with
  | unseen _ hrec hid => exact ⟨hrec, hid⟩
  | triggered s₀ s _ _ _ hev' => rw [hev] at hev'; cases hev'
  | tp1Hit s₀ s₁ s prev price _ _ _ hev' => rw [hev] at hev'; cases hev'
  | ended s₀ s tp1 event prev price rec _ _ _ hev' => rw [hev] at hev'; cases hev'

/-! ## Analysis -/

/-- Blocks that tell nothing of any id. -/
theorem EventInv.of_quiet (h : EventInv st) (hw : st'.watchlist = st.watchlist)
    (hcalls : st'.calls = st.calls) (hevents : ∀ id, st'.eventsOf id = st.eventsOf id)
    (hseen : st'.coordinator.state.seenRej = st.coordinator.state.seenRej) : EventInv st' where
  ids_nodup := hw ▸ h.ids_nodup
  open_of_mem := hw ▸ h.open_of_mem
  seen_of_told := fun id hne => by
    rw [hevents] at hne
    rw [hseen]
    exact h.seen_of_told id hne
  law := fun id => (h.law id).of_same (hevents id) (by rw [Service.recordsOf, hcalls]; rfl)
    (fun y _ => by rw [hw])

theorem EventInv.notePending (h : EventInv st) (v : PairView) (z : HtfRange) :
    EventInv (st.notePending v z) := by
  unfold Service.notePending
  split
  · exact h
  · refine h.of_quiet rfl rfl (fun id => eventsOf_emit_other rfl ?_) rfl
    intro hid
    cases hid

theorem EventInv.check (h : EventInv st) (x : Setup) (now : ℤ)
    (load : ℤ → List ClosedSignalRecord) (nowMs : ℤ) :
    EventInv { st with coordinator := (st.coordinator.shouldEmit cfg x now load nowMs).1 } := by
  refine h.of_quiet rfl rfl (fun id => rfl) ?_
  rcases shouldEmit_state cfg st.coordinator x now load nowMs with hstate | hstate
  · dsimp only
    rw [hstate]
    rfl
  · dsimp only
    rw [hstate]

/-- An emitted id is new: its rejection was not yet seen. -/
theorem EventInv.emit (h : EventInv st) (he : Emits cfg raises v z s st st') : EventInv st' := by
  have hrej : (setupOf s).rejKey = s.id.rejKey := by
    rw [he.named]
    rfl
  have hseen : st'.coordinator.state.seenRej =
      insert s.id.rejKey st.coordinator.state.seenRej := by
    rw [he.coordinator_eq, ← hrej]
    exact register_seenRej
  have huntold : st.eventsOf s.id = [] := by
    by_contra hne
    exact he.new_rejection (hrej ▸ h.seen_of_told s.id hne)
  have hrecords : ∀ id, st'.recordsOf id = st.recordsOf id := by
    intro id
    rw [recordsOf_append he.calls_eq]
    exact List.append_nil _
  refine ⟨h.toWatching.move he.tradeMove.move, fun id hne => ?_, fun id => ?_⟩
  · rw [hseen]
    by_cases hid : s.id = id
    · exact Finset.mem_insert.mpr (Or.inl (hid ▸ rfl))
    · rw [eventsOf_emit_other he.events_eq (fun heq => hid (Option.some.inj heq))] at hne
      exact Finset.mem_insert_of_mem (h.seen_of_told id hne)
  · by_cases hid : s.id = id
    · subst hid
      have hevents : st'.eventsOf s.id = st.eventsOf s.id ++ [.triggered s] :=
        eventsOf_emit he.events_eq rfl
      rw [huntold] at hevents
      refine .triggered s s ?_ rfl he.triggered hevents ?_
      · rw [he.watchlist_eq]
        exact List.mem_append_right _ (List.mem_singleton_self s)
      · exact (hrecords s.id).trans ((h.law s.id).of_untold huntold).1
    · refine (h.law id).of_same
        (eventsOf_emit_other he.events_eq (fun heq => hid (Option.some.inj heq))) (hrecords id) ?_
      intro y hy
      rw [he.watchlist_eq, List.mem_append, List.mem_singleton]
      exact or_iff_left (fun heq => hid (heq ▸ hy))

theorem EventInv.analysisRule (cfg : Settings) (raises : ℕ → Bool) (v : PairView) :
    AnalysisRule cfg raises v EventInv EventInv where
  pending := fun _ z _ _ h => h.notePending v z
  check := fun _ x now load nowMs h => h.check x now load nowMs
  emit := fun _ _ _ _ h he => h.emit he
  done := fun _ h => h

/-! ## A candle of a watched signal -/

/-- `s` stands where its status says. -/
def StandsAt (s : TradeSignal) (tp1 : List ServiceEvent) : Prop :=
  (s.status = .triggered ∧ tp1 = []) ∨
    s.status = .tp1Hit ∧ ∃ prev price s₁, tp1 = [.updated .signalTp1Hit prev price s₁]

theorem EventInv.standsAt (h : EventInv st) (hs : s ∈ st.watchlist) :
    ∃ s₀ tp1, st.eventsOf s.id = .triggered s₀ :: tp1 ∧ st.recordsOf s.id = [] ∧
      StandsAt s tp1 := by
  have hlaw := h.law s.id
  have hmem : s.id ∈ keys TradeSignal.id st.watchlist := List.mem_map_of_mem hs
  cases hlaw with
  | unseen _ _ hid => exact absurd hmem hid
  | triggered s₀ y hy hid hst hev hrec =>
      obtain rfl := h.eq_of_id hy hs hid
      exact ⟨s₀, [], hev, hrec, Or.inl ⟨hst, rfl⟩⟩
  | tp1Hit s₀ s₁ y prev price hy hid hst hev hrec =>
      obtain rfl := h.eq_of_id hy hs hid
      exact ⟨s₀, _, hev, hrec, Or.inr ⟨hst, prev, price, s₁, rfl⟩⟩
  | ended s₀ s tp1 event prev price rec _ _ _ _ _ hid => exact absurd hmem hid

theorem EventLaw.of_standsAt {s₀ : TradeSignal} {tp1 : List ServiceEvent}
    (hs : s ∈ st.watchlist) (hev : st.eventsOf s.id = .triggered s₀ :: tp1)
    (hrec : st.recordsOf s.id = []) (h : StandsAt s tp1) : EventLaw st s.id := by
  rcases h with ⟨hst, rfl⟩ | ⟨hst, prev, price, s₁, rfl⟩
  · exact .triggered s₀ s hs rfl hst hev hrec
  · exact .tp1Hit s₀ s₁ s prev price hs rfl hst hev hrec

theorem SignalTurn.eventsOf_other (h : SignalTurn cfg raises s st st') (hid : s.id ≠ id) :
    st'.eventsOf id = st.eventsOf id := by
  cases h with
  | raised | waited => rfl
  | tookTp1 s' price now hsame _ _ =>
      refine eventsOf_emit_other rfl (fun heq => hid ?_)
      rw [← hsame.id_eq]
      exact Option.some.inj heq
  | closed s' o r c told hsame _ _ htold =>
      rcases htold with ⟨event, -, rfl⟩ | ⟨-, rfl⟩
      · refine eventsOf_emit_other rfl (fun heq => hid ?_)
        rw [← hsame.id_eq]
        exact Option.some.inj heq
      · rw [Service.eventsOf, List.append_nil]
        rfl

/-- A candle tells and stores nothing of another id. -/
theorem SignalTurn.other (h : SignalTurn cfg raises s st st') (hid : s.id ≠ id)
    (hlaw : EventLaw st id) : EventLaw st' id := by
  have hevents := h.eventsOf_other hid
  cases h with
  | raised => exact hlaw
  | waited s' hsame _ =>
      refine hlaw.of_same hevents rfl (fun y hy => mem_overwrite_iff_of_ne ?_)
      rw [hsame.id_eq, hy]
      exact hid.symm
  | tookTp1 s' price now hsame _ _ =>
      refine hlaw.of_same hevents ?_ (fun y hy => mem_overwrite_iff_of_ne ?_)
      · exact (recordsOf_append rfl).trans (List.append_nil _)
      · rw [hsame.id_eq, hy]
        exact hid.symm
  | closed s' o r c told hsame _ _ _ =>
      refine hlaw.of_same hevents ?_ (fun y hy => ?_)
      · rw [recordsOf_append rfl, List.filterMap_cons_none rfl, List.filterMap_cons_none
          (recordFor_insertClosed_other (hsame.id_eq.trans_ne hid) _ _), List.filterMap_nil,
          List.append_nil]
      · rw [mem_erase]
        exact and_iff_left (hy ▸ hid.symm)

/-- A candle moves a watched id on. -/
theorem EventInv.turn_self (h : EventInv st) (hs : s ∈ st.watchlist)
    (hmax : 1 ≤ cfg.maxConsecutiveLosses)
    (ht : SignalTurn cfg (fun _ => false) s st st') : EventLaw st' s.id := by
  obtain ⟨s₀, tp1, hev, hrec, hat⟩ := h.standsAt hs
  have hmem : s.id ∈ keys TradeSignal.id st.watchlist := List.mem_map_of_mem hs
  cases ht with
  | raised => exact .of_standsAt hs hev hrec hat
  | waited s' hsame hst =>
      rw [← hsame.id_eq] at hev hrec hmem ⊢
      refine .of_standsAt (mem_overwrite_self hmem) hev hrec ?_
      rwa [StandsAt, hst]
  | tookTp1 s' price now hsame hst hst' =>
      obtain ⟨-, rfl⟩ := hat.resolve_right (fun hat => by rw [hst] at hat; cases hat.1)
      rw [← hsame.id_eq] at hev hrec hmem ⊢
      refine .tp1Hit s₀ s' s' s.status price (mem_overwrite_self hmem) rfl hst' ?_ ?_
      · rw [eventsOf_emit rfl rfl, hev]
        rfl
      · rw [recordsOf_append rfl, hrec]
        rfl
  | closed s' o r c told hsame hend _ htold =>
      obtain ⟨event, hevent, rfl⟩ := htold.resolve_right (fun hfail => by omega)
      have htp1 : tp1 = [] ∨ ∃ prev price s₁, tp1 = [.updated .signalTp1Hit prev price s₁] :=
        hat.imp And.right And.right
      refine .ended s₀ s' tp1 event s.status s'.closePrice (closedRecord s' o r) htp1 hend hevent
        ?_ ?_ ?_
      · rw [eventsOf_emit rfl (by rw [ServiceEvent.signalId, hsame.id_eq]), hev]
        rfl
      · have hrecord : recordFor s.id (.insertClosed (closedRecord s' o r)
            st.coordinator.sessionDay, true) = some (closedRecord s' o r) :=
          recordFor_insertClosed hsame.id_eq _
        rw [recordsOf_append rfl, hrec, List.filterMap_cons_none rfl]
        exact List.filterMap_cons_some hrecord
      · rw [mem_keys_erase]
        exact fun hin => hin.2 rfl

theorem EventInv.turn (h : EventInv st) (hs : s ∈ st.watchlist)
    (hmax : 1 ≤ cfg.maxConsecutiveLosses)
    (ht : SignalTurn cfg (fun _ => false) s st st') : EventInv st' := by
  have hlaw : ∀ id, EventLaw st' id := by
    intro id
    by_cases hid : s.id = id
    · exact hid ▸ h.turn_self hs hmax ht
    · exact ht.other hid (h.law id)
  refine ⟨h.toWatching.move (ht.tradeMove hs (h.open_of_mem s hs)).move, fun id hne => ?_, hlaw⟩
  have htold : st.eventsOf id ≠ [] := by
    by_cases hid : s.id = id
    · subst hid
      obtain ⟨s₀, tp1, hev, -⟩ := h.standsAt hs
      rw [hev]
      exact List.cons_ne_nil _ _
    · rwa [ht.eventsOf_other hid] at hne
  rw [ht.tables_eq.1]
  exact h.seen_of_told id htold

theorem EventInv.watchRule (hmax : 1 ≤ cfg.maxConsecutiveLosses) :
    WatchRule cfg (fun _ => false) EventInv where
  watching := fun _ h => h.toWatching
  turn := fun _ _ _ h hs ht => h.turn hs hmax ht

/-! ## Runs -/

theorem EventInv.call (h : EventInv st) (hmax : 1 ≤ cfg.maxConsecutiveLosses)
    (call : ServiceCall) : EventInv (st.call cfg profileOf (fun _ => false) call) := by
  cases call with
  | analyzePair symbol htfInterval ltfInterval firedAt io =>
      refine AnalysisRule.analyzePair h (fun v _ => ⟨EventInv, EventInv.analysisRule cfg _ v, ?_⟩)
      exact h.of_quiet rfl rfl (fun id => rfl) rfl
  | evaluateGroup clock symbol ltfInterval fetch now =>
      exact (EventInv.watchRule hmax).evaluateGroup h clock symbol ltfInterval fetch now

/-- A new process has told nothing and watches nothing. -/
theorem eventInv_new (c : Coordinator) : EventInv { coordinator := c } where
  ids_nodup := List.nodup_nil
  open_of_mem := fun _ hs => absurd hs List.not_mem_nil
  seen_of_told := fun _ hne => absurd rfl hne
  law := fun _ => .unseen rfl rfl List.not_mem_nil

theorem EventInv.run (h : EventInv st) (hmax : 1 ≤ cfg.maxConsecutiveLosses)
    (calls : List ServiceCall) : EventInv (st.run cfg profileOf (fun _ => false) calls) :=
  List.foldlRecOn calls _ h (fun _ h call _ => h.call hmax call)

/-- **Event law**: after any calls of a process whose store takes every write, every id is in one
    of its phases. -/
theorem eventLaw_of_run (hmax : 1 ≤ cfg.maxConsecutiveLosses) (c : Coordinator)
    (calls : List ServiceCall) (id : SignalId) :
    EventLaw (Service.run cfg profileOf (fun _ => false) { coordinator := c } calls) id :=
  ((eventInv_new c).run hmax calls).law id

/-- The sample signal is emitted, and the next two candles take it to its stop. -/
def stoppedCalls : List ServiceCall :=
  [.analyzePair "XAUUSD" oneHour fiveMin 300000 (sampleInputs 0),
    .evaluateGroup (fun _ => 900000) "XAUUSD" fiveMin
      (fun _ _ => [⟨300000, 9, 92 / 10, 88 / 10, 9, 0⟩, ⟨600000, 9, 9, 7, 8, 0⟩]) 900000]

theorem stoppedCalls_law :
    let st := Service.run sampleSettings sampleProfiles (fun _ => false)
      { coordinator := { sessionDay := 0 } } stoppedCalls
    let id : SignalId := ⟨"XAUUSD", oneHour, fiveMin, 0, .long⟩
    EventLaw st id ∧ (st.eventsOf id).length = 2 ∧ (st.recordsOf id).length = 1 :=
  ⟨eventLaw_of_run (by decide) _ _ _, by decide +kernel, by decide +kernel⟩

end SignalEngine
