/-
  Pending: the announcements of `_pending_emitted`.

  A zone is noted with the time of its break, and every tick of every pair drops the notes that
  are an expiry old: a zone that outlives the expiry is announced again at each tick. A trigger
  drops the note too, so a zone still in view after its last signal is announced once more.

  Proved: `announcedOnce_of_run`, for a zone and every run whose ticks find its note younger than
  the expiry and never see it at its limit; and a run for each way out.
-/
import SignalEngine.Services.Calls
import SignalEngine.Lib.Trace
import SignalEngine.Services.RestartSafety

namespace SignalEngine

open Lib

/-! ## Once each -/

def PendingKey.zoneKey (k : PendingKey) : ZoneKey :=
  ⟨k.symbol, k.htfInterval, k.ltfInterval, k.htfTs, k.direction⟩

/-- The event is `signal.pending` for the zone. -/
def Announces (k : PendingKey) : ServiceEvent → Prop
  | .pending k' _ _ => k' = k
  | _ => False

/-- The event is `signal.triggered` for the zone. -/
def Triggers (k : PendingKey) : ServiceEvent → Prop
  | .triggered s => s.pendingKey = k
  | _ => False

instance (k : PendingKey) : DecidablePred (Announces k)
  | .pending k' _ _ => inferInstanceAs (Decidable (k' = k))
  | .triggered _ => .isFalse id
  | .updated _ _ _ _ => .isFalse id

instance (k : PendingKey) : DecidablePred (Triggers k)
  | .triggered s => inferInstanceAs (Decidable (s.pendingKey = k))
  | .pending _ _ _ => .isFalse id
  | .updated _ _ _ _ => .isFalse id

/-- The signals a zone has had: those the process has started with and those told since. -/
def signalCount (c : Coordinator) (events : List ServiceEvent) (k : PendingKey) : ℕ :=
  c.state.zoneSignalCounts k.zoneKey + events.countP (fun e => decide (Triggers k e))

/-- What a process started with `c` tells of the zone. -/
structure AnnouncedOnce (cfg : Settings) (c : Coordinator) (k : PendingKey)
    (events : List ServiceEvent) : Prop where
  separated : Separated (Announces k) (Triggers k) events
  below_limit : EachAfter
    (fun pre e => Announces k e → signalCount c pre k < cfg.maxSignalCountPerZone) events

/-! ## The ticks -/

/-- The zone is in view and the trend allows it. -/
def PairView.Shows (v : PairView) (k : PendingKey) : Prop :=
  ∃ z ∈ v.zones, v.pendingKey z = k ∧ v.bias.any (fun b => !b.allows z.signalDirection) = false

/-- A tick that finds the note of the zone younger than the expiry, and does not see the zone at
    its limit. -/
structure SettledTick (cfg : Settings) (v : PairView) (k : PendingKey) (st : Service) :
    Prop where
  young : ∀ e ∈ st.pendingEmitted, e.1 = k →
    v.pairFiredAt - pyInt (cfg.signalExpiryHours * msPerHour) < e.2
  below_limit : v.Shows k →
    st.coordinator.state.zoneSignalCounts k.zoneKey < cfg.maxSignalCountPerZone

/-- An analysis of the zone's pair that gets as far as its zones finds it among them. -/
def ServiceCall.Sees (cfg : Settings) (profileOf : String → Interval → Interval → AssetProfile)
    (k : PendingKey) : ServiceCall → Prop
  | .analyzePair symbol htfInterval ltfInterval firedAt io =>
      symbol = k.symbol → htfInterval = k.htfInterval → ltfInterval = k.ltfInterval →
        ∀ v ∈ pairView cfg (profileOf symbol htfInterval ltfInterval) symbol htfInterval
          ltfInterval firedAt io, ∃ z ∈ v.zones, v.pendingKey z = k
  | .evaluateGroup _ _ _ _ _ => True

def SettledCall (cfg : Settings) (profileOf : String → Interval → Interval → AssetProfile)
    (k : PendingKey) (st : Service) : ServiceCall → Prop
  | .analyzePair symbol htfInterval ltfInterval firedAt io =>
      ∀ v, pairView cfg (profileOf symbol htfInterval ltfInterval) symbol htfInterval ltfInterval
        firedAt io = some v → SettledTick cfg v k st
  | .evaluateGroup _ _ _ _ _ => True

/-- The zone is noted from its announcement to its trigger; its count is that of the told
    triggers. -/
structure PendingInv (cfg : Settings) (c : Coordinator) (k : PendingKey) (st : Service) : Prop
    extends Watching st where
  noted : Outstanding (Announces k) (Triggers k) st.events → k ∈ keys Prod.fst st.pendingEmitted
  count_eq : st.coordinator.state.zoneSignalCounts k.zoneKey = signalCount c st.events k
  told : EachAfter (fun pre e => Announces k e →
    ¬ Outstanding (Announces k) (Triggers k) pre ∧
      signalCount c pre k < cfg.maxSignalCountPerZone) st.events

variable {cfg : Settings} {raises : ℕ → Bool} {c : Coordinator} {st st' : Service}
  {s : TradeSignal} {v : PairView} {z : HtfRange} {k : PendingKey} {e : ServiceEvent}
  {events : List ServiceEvent} {profileOf : String → Interval → Interval → AssetProfile}

theorem zoneKey_injective : Function.Injective PendingKey.zoneKey := by
  rintro ⟨symbol, htf, ltf, ts, direction⟩ ⟨symbol', htf', ltf', ts', direction'⟩ h
  simpa [PendingKey.zoneKey] using h

theorem signalCount_trigger (h : Triggers k e) :
    signalCount c (events ++ [e]) k = signalCount c events k + 1 := by
  simp [signalCount, h, Nat.add_assoc]

theorem signalCount_other (h : ¬ Triggers k e) :
    signalCount c (events ++ [e]) k = signalCount c events k := by
  simp [signalCount, h]

theorem PendingInv.announcedOnce (h : PendingInv cfg c k st) : AnnouncedOnce cfg c k st.events where
  separated := separated_iff.mpr (fun pre e post heq ha => (h.told pre e post heq ha).1)
  below_limit := fun pre e post heq ha => (h.told pre e post heq ha).2

/-- Blocks that tell nothing of zones. -/
theorem PendingInv.of_quiet (h : PendingInv cfg c k st) (hwatching : Watching st')
    (hnoted : k ∈ keys Prod.fst st.pendingEmitted → k ∈ keys Prod.fst st'.pendingEmitted)
    (hevents : st'.events = st.events)
    (hcounts : st'.coordinator.state.zoneSignalCounts = st.coordinator.state.zoneSignalCounts) :
    PendingInv cfg c k st' where
  toWatching := hwatching
  noted := by rw [hevents]; exact fun hout => hnoted (h.noted hout)
  count_eq := by rw [hcounts, hevents]; exact h.count_eq
  told := by rw [hevents]; exact h.told

/-! ## Analysis -/

theorem PendingInv.notePending (h : PendingInv cfg c k st)
    (hlimit : v.pendingKey z = k →
      st.coordinator.state.zoneSignalCounts k.zoneKey < cfg.maxSignalCountPerZone) :
    PendingInv cfg c k (st.notePending v z) := by
  unfold Service.notePending
  split
  · exact h
  next hnew =>
  refine ⟨⟨h.ids_nodup, h.open_of_mem⟩, fun hout => ?_, ?_, ?_⟩
  · rw [keys_append, List.mem_append]
    rcases outstanding_concat.mp hout with hkey | ⟨hout, -⟩
    · exact Or.inr (List.mem_singleton.mpr hkey.symm)
    · exact Or.inl (h.noted hout)
  · rw [signalCount_other id]
    exact h.count_eq
  · refine eachAfter_concat.mpr ⟨h.told, fun hkey => ?_⟩
    obtain rfl : v.pendingKey z = k := hkey
    exact ⟨fun hout => hnew (h.noted hout), h.count_eq ▸ hlimit rfl⟩

theorem notePending_coordinator : (st.notePending v z).coordinator = st.coordinator := by
  unfold Service.notePending
  split <;> rfl

theorem shouldEmit_counts (cfg : Settings) (c : Coordinator) (x : Setup) (now : ℤ)
    (load : ℤ → List ClosedSignalRecord) (nowMs : ℤ) :
    (c.shouldEmit cfg x now load nowMs).1.state.zoneSignalCounts = c.state.zoneSignalCounts := by
  rcases shouldEmit_state cfg c x now load nowMs with hstate | hstate
  · rw [hstate]
    rfl
  · rw [hstate]

theorem PendingInv.emit (h : PendingInv cfg c k st) (he : Emits cfg raises v z s st st') :
    PendingInv cfg c k st' := by
  refine ⟨h.toWatching.move he.tradeMove.move, fun hout => ?_, ?_, ?_⟩
  · rw [he.events_eq] at hout
    rw [he.pending_eq, mem_keys_erase, ← he.key_eq]
    rcases outstanding_concat.mp hout with hfalse | ⟨hout, hother⟩
    · exact hfalse.elim
    · exact ⟨h.noted hout, fun hk => hother hk.symm⟩
  · have hcounts : st'.coordinator.state.zoneSignalCounts k.zoneKey =
        st.coordinator.state.zoneSignalCounts k.zoneKey +
          if s.pendingKey.zoneKey = k.zoneKey then 1 else 0 := by
      rw [he.coordinator_eq]
      exact register_counts k.zoneKey
    rw [hcounts, he.events_eq, h.count_eq]
    by_cases hk : Triggers k (.triggered s)
    · rw [if_pos (congrArg PendingKey.zoneKey hk), signalCount_trigger hk]
    · rw [if_neg (fun heq => hk (zoneKey_injective heq)), signalCount_other hk, Nat.add_zero]
  · rw [he.events_eq]
    exact eachAfter_concat.mpr ⟨h.told, fun hfalse => hfalse.elim⟩

theorem PendingInv.analysisRule (cfg : Settings) (raises : ℕ → Bool) (v : PairView)
    (c : Coordinator) (k : PendingKey) :
    AnalysisRule cfg raises v
      (fun st => PendingInv cfg c k st ∧ (v.Shows k →
        st.coordinator.state.zoneSignalCounts k.zoneKey < cfg.maxSignalCountPerZone))
      (PendingInv cfg c k) where
  pending := fun st z hz hbias h => by
    refine ⟨h.1.notePending (fun hk => h.2 ⟨z, hz, hk, hbias⟩), ?_⟩
    rw [notePending_coordinator]
    exact h.2
  check := fun st x now load nowMs h => by
    have hcounts := shouldEmit_counts cfg st.coordinator x now load nowMs
    refine ⟨h.1.of_quiet ⟨h.1.ids_nodup, h.1.open_of_mem⟩ id rfl hcounts, ?_⟩
    rw [hcounts]
    exact h.2
  emit := fun _ _ _ _ h he => h.1.emit he
  done := fun _ h => h.1

/-- A settled tick keeps the note. -/
theorem PendingInv.evictPending (h : PendingInv cfg c k st) (htick : SettledTick cfg v k st) :
    PendingInv cfg c k (st.evictPending cfg v.pairFiredAt) := by
  refine h.of_quiet ⟨h.ids_nodup, h.open_of_mem⟩ (fun hnoted => ?_) rfl rfl
  obtain ⟨e, he, hk⟩ := mem_keys.mp hnoted
  exact mem_keys.mpr ⟨e, List.mem_filter.mpr ⟨he, decide_eq_true (htick.young e he hk)⟩, hk⟩

/-! ## Watchlist -/

theorem PendingInv.turn (h : PendingInv cfg c k st) (hs : s ∈ st.watchlist)
    (ht : SignalTurn cfg raises s st st') : PendingInv cfg c k st' := by
  have hwatching := h.toWatching.move (ht.tradeMove hs (h.open_of_mem s hs)).move
  have hpending : st'.pendingEmitted = st.pendingEmitted := by cases ht <;> rfl
  have htold : st'.events = st.events ∨
      ∃ event prev price s', st'.events = st.events ++ [.updated event prev price s'] := by
    cases ht with
    | raised | waited => exact Or.inl rfl
    | tookTp1 => exact Or.inr ⟨_, _, _, _, rfl⟩
    | closed s' o r c told _ _ _ htold =>
        rcases htold with ⟨event, -, rfl⟩ | ⟨-, rfl⟩
        · exact Or.inr ⟨_, _, _, _, rfl⟩
        · exact Or.inl (List.append_nil _)
  rcases htold with hevents | ⟨event, prev, price, s', hevents⟩
  · exact h.of_quiet hwatching (hpending ▸ id) hevents ht.tables_eq.2
  · refine ⟨hwatching, fun hout => ?_, ?_, ?_⟩
    · rw [hevents] at hout
      rw [hpending]
      rcases outstanding_concat.mp hout with hfalse | ⟨hout, -⟩
      · exact hfalse.elim
      · exact h.noted hout
    · rw [ht.tables_eq.2, hevents, signalCount_other id]
      exact h.count_eq
    · rw [hevents]
      exact eachAfter_concat.mpr ⟨h.told, fun hfalse => hfalse.elim⟩

/-! ## Runs -/

theorem PendingInv.call (h : PendingInv cfg c k st) {call : ServiceCall}
    (hsettled : SettledCall cfg profileOf k st call) :
    PendingInv cfg c k (st.call cfg profileOf raises call) := by
  cases call with
  | analyzePair symbol htfInterval ltfInterval firedAt io =>
      refine AnalysisRule.analyzePair h (fun v hview => ?_)
      have htick : SettledTick cfg v k st := hsettled v hview
      exact ⟨_, PendingInv.analysisRule cfg raises v c k, h.evictPending htick, htick.below_limit⟩
  | evaluateGroup clock symbol ltfInterval fetch now =>
      have hrule : WatchRule cfg raises (PendingInv cfg c k) :=
        ⟨fun _ h => h.toWatching, fun _ _ _ h hs ht => h.turn hs ht⟩
      exact hrule.evaluateGroup h clock symbol ltfInterval fetch now

theorem pendingInv_new (cfg : Settings) (c : Coordinator) (k : PendingKey) :
    PendingInv cfg c k { coordinator := c } where
  ids_nodup := List.nodup_nil
  open_of_mem := fun _ hs => absurd hs List.not_mem_nil
  noted := fun hout => absurd hout not_outstanding_nil
  count_eq := rfl
  told := eachAfter_nil

/-- **Announced once**: over every run of ticks settled for a zone, between any two
    `signal.pending` of it there is a `signal.triggered` of it, and none is told at its limit. -/
theorem announcedOnce_of_run (c : Coordinator) (k : PendingKey) {calls : List ServiceCall}
    (hsettled : ∀ n, (hn : n < calls.length) → SettledCall cfg profileOf k
      (Service.run cfg profileOf raises { coordinator := c } (calls.take n)) calls[n]) (n : ℕ) :
    AnnouncedOnce cfg c k
      (Service.run cfg profileOf raises { coordinator := c } (calls.take n)).events :=
  (foldl_take_invariant (PendingInv cfg c k) (fun _ _ h hcall => h.call hcall)
    (pendingInv_new cfg c k) hsettled n).announcedOnce

/-! ## A zone in view at two ticks

The sample process's zone breaks at the open of its last hour, `1767222000000`. -/

def hourZone : HtfRange where
  rangeHigh := 11
  rangeLow := 8
  bosDirection := .bullish
  timestamp := 1767214800000
  brokenAt := 1767222000000
  tpLevel := 11
  htfCandleOpen := 1767214800000
  htfCandleClose := 1767218400000

def hourKey : PendingKey := ⟨"XAUUSD", oneHour, fiveMin, 1767214800000, .long⟩

/-- Without an entry, five minutes apart. -/
def quietInputs : PairInputs :=
  { sampleInputs 1767225600000 with
    fetchLtf := fun _ _ => (List.range 14).map
      (fun i => (⟨1767222000000 + i * 300000, 9, 92 / 10, 88 / 10, 9, 0⟩ : Candle)) }

def quietTicks : List ServiceCall :=
  [.analyzePair "XAUUSD" oneHour fiveMin 1767225900000 quietInputs,
    .analyzePair "XAUUSD" oneHour fiveMin 1767226200000 quietInputs]

theorem quietTicks_announcedOnce :
    AnnouncedOnce sampleSettings { sessionDay := 20454 } hourKey
      (Service.run sampleSettings sampleProfiles (fun _ => false)
        { coordinator := { sessionDay := 20454 } } (quietTicks.take 2)).events := by
  refine announcedOnce_of_run _ _ (fun n hn => ?_) 2
  match n, hn with
  | 0, _ =>
      intro v _
      exact ⟨fun e he => absurd he List.not_mem_nil, fun _ => by decide⟩
  | 1, _ =>
      have hyoung : ∀ v ∈ pairView sampleSettings (sampleProfiles "XAUUSD" oneHour fiveMin)
          "XAUUSD" oneHour fiveMin 1767226200000 quietInputs,
          ∀ e ∈ (Service.run sampleSettings sampleProfiles (fun _ => false)
            { coordinator := { sessionDay := 20454 } } (quietTicks.take 1)).pendingEmitted,
            e.1 = hourKey →
              v.pairFiredAt - pyInt (sampleSettings.signalExpiryHours * msPerHour) < e.2 := by
        decide +kernel
      exact fun v hv => ⟨hyoung v hv, fun _ => by decide +kernel⟩

/-- With an expiry of one hour the second tick has dropped the note. -/
theorem agedZone_reannounced :
    (∀ call ∈ quietTicks, call.Sees { sampleSettings with signalExpiryHours := 1 } sampleProfiles
      hourKey) ∧
      ¬ AnnouncedOnce { sampleSettings with signalExpiryHours := 1 } { sessionDay := 20454 } hourKey
        (Service.run { sampleSettings with signalExpiryHours := 1 } sampleProfiles (fun _ => false)
          { coordinator := { sessionDay := 20454 } } quietTicks).events := by
  constructor
  · rw [quietTicks, List.forall_mem_cons, List.forall_mem_singleton]
    exact ⟨fun _ _ _ => by decide +kernel, fun _ _ _ => by decide +kernel⟩
  · intro h
    obtain ⟨t, ht, -⟩ := h.separated [] (.pending hourKey hourZone 1767225600000) []
      (.pending hourKey hourZone 1767225900000) [] (by decide +kernel) rfl rfl
    cases ht

/-- The zone's one signal is taken at the first tick. -/
def spentTicks : List ServiceCall :=
  [.analyzePair "XAUUSD" oneHour fiveMin 1767225900000 (sampleInputs 1767225600000),
    .analyzePair "XAUUSD" oneHour fiveMin 1767226200000 quietInputs]

theorem spentZone_announced :
    ¬ AnnouncedOnce sampleSettings { sessionDay := 20454 } hourKey
      (Service.run sampleSettings sampleProfiles (fun _ => false)
        { coordinator := { sessionDay := 20454 } } spentTicks).events := by
  intro h
  have hlast : (Service.run sampleSettings sampleProfiles (fun _ => false)
      { coordinator := { sessionDay := 20454 } } spentTicks).events.drop 2 =
      [.pending hourKey hourZone 1767225900000] := by decide +kernel
  have hevents := List.take_append_drop 2 (Service.run sampleSettings sampleProfiles
    (fun _ => false) { coordinator := { sessionDay := 20454 } } spentTicks).events
  rw [hlast] at hevents
  have hcount := h.below_limit _ _ [] hevents.symm rfl
  revert hcount
  decide +kernel

end SignalEngine
