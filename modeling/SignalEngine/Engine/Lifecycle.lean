/-
  Lifecycle: what holds along every run of `step_signal_state`.

  `lifecycleSteps` lists the steps of a run that takes the candles one by one, with `now` the
  candle's timestamp, and stops at the first terminal step. An open signal keeps `OpenState`;
  a terminal step leaves a `TerminalState`, in exactly one of five `EndCase`s.

  The induction is on the candle list. It carries `OpenState`, the trade's unchanged levels
  and the fact that TP1, once hit, was hit no later than every candle still to come.
-/
import SignalEngine.Domain.Builder
import SignalEngine.Engine.Replay

namespace SignalEngine

/-- `_STATUS_TO_CLOSE_EVENT`. -/
def statusToCloseEvent : SignalStatus → Option SignalEvent
  | .expired => some .signalExpired
  | .tp2Hit => some .signalTp2Hit
  | .invalidated => some .signalInvalidated
  | .slHit => some .signalSlHit
  | .pending | .triggered | .tp1Hit => none

/-- The steps of a run: each candle with the signal and the outcome after it. -/
def lifecycleSteps (p : AssetProfile) (s : TradeSignal) :
    List Candle → Except CandleError (List (Candle × TradeSignal × StepOutcome))
  | [] => .ok []
  | c :: cs =>
      match stepSignalState s c p c.timestamp with
      | .error e => .error e
      | .ok (s', out) =>
          if out.terminal then .ok [(c, s', out)]
          else (lifecycleSteps p s' cs).map (fun steps => (c, s', out) :: steps)

/-! ## The two kinds of state -/

/-- A trade that is still running. -/
structure OpenState (s : TradeSignal) : Prop where
  status_open : s.status = .triggered ∨ s.status = .tp1Hit
  tp1HitAt_iff : s.tp1HitAt.isSome = true ↔ s.status = .tp1Hit
  outcome_eq : s.outcome = none
  realizedRr_eq : s.realizedRr = none
  closePrice_eq : s.closePrice = none
  closedAt_eq : s.closedAt = none

/-- The five ways a trade ends. -/
inductive EndCase where
  | target
  | stopLoss
  | stopBreakeven
  | expired
  | expiredBreakeven
  deriving DecidableEq, Repr

/-- What the signal shows when it has ended at candle `c` in the given way. -/
def EndCase.Holds (p : AssetProfile) (c : Candle) (s : TradeSignal) : EndCase → Prop
  | .target =>
      s.status = .tp2Hit ∧ s.outcome = some .winFull ∧ s.closePrice = some s.tp2 ∧
        s.realizedRr =
          some (tp2WeightedRr s.riskRewardRatio p.tp1TriggerPct p.tp1ClosePct) ∧
        s.tp1HitAt.isSome = true
  | .stopLoss =>
      s.status = .slHit ∧ s.outcome = some .loss ∧ s.closePrice = some s.stopLoss ∧
        s.realizedRr = some (-1)
  | .stopBreakeven =>
      s.status = .slHit ∧ s.outcome = some .breakeven ∧ s.closePrice = some s.entryPrice ∧
        s.realizedRr = some (tp1BookedRr s.riskRewardRatio p.tp1TriggerPct p.tp1ClosePct)
  | .expired =>
      s.status = .expired ∧ s.outcome = some .expired ∧ s.closePrice = some c.close ∧
        s.realizedRr = some 0
  | .expiredBreakeven =>
      s.status = .expired ∧ s.outcome = some .breakeven ∧ s.closePrice = some s.entryPrice ∧
        s.realizedRr = some (tp1BookedRr s.riskRewardRatio p.tp1TriggerPct p.tp1ClosePct)

/-- A trade that has just ended at candle `c`. -/
structure TerminalState (p : AssetProfile) (c : Candle) (s : TradeSignal) : Prop where
  one_case : ∃! k : EndCase, k.Holds p c s
  breakeven_only : s.outcome = some .breakeven →
    s.tp1HitAt.isSome = true ∧ p.moveSlToBeOnTp1 = true
  realizedRr_bounds : ∃ r, s.realizedRr = some r ∧ -1 ≤ r ∧ r ≤ s.riskRewardRatio
  closedAt_eq : s.closedAt = some c.timestamp
  tp1HitAt_le : ∀ t, s.tp1HitAt = some t → t ≤ c.timestamp
  one_hit : ([s.tp2HitAt, s.slHitAt, s.expiredAt].filter Option.isSome).length = 1
  close_event : (statusToCloseEvent s.status).isSome = true

/-! ## The invariant of a run -/

/-- `s` is a running state of the trade `s₀`, ready for the candles `cs`. -/
structure RunState (s₀ s : TradeSignal) (cs : List Candle) : Prop where
  isOpen : OpenState s
  same : SameTrade s₀ s
  no_tp2 : s.tp2HitAt = none
  no_sl : s.slHitAt = none
  no_expiry : s.expiredAt = none
  tp1HitAt_le : ∀ t, s.tp1HitAt = some t → ∀ c ∈ cs, t ≤ c.timestamp

theorem OpenState.isOpen_eq {s : TradeSignal} (h : OpenState s) : s.status.isOpen = true := by
  rcases h.status_open with h | h <;> rw [h] <;> rfl

theorem OpenState.tp1HitAt_isSome {s : TradeSignal} (h : OpenState s) (hs : s.status = .tp1Hit) :
    s.tp1HitAt.isSome = true :=
  h.tp1HitAt_iff.mpr hs

theorem FreshSignal.runState {s : TradeSignal} (h : FreshSignal s) (cs : List Candle) :
    RunState s s cs where
  isOpen := {
    status_open := Or.inl h.status_eq
    tp1HitAt_iff := by simp [h.tp1HitAt_eq, h.status_eq]
    outcome_eq := h.outcome_eq
    realizedRr_eq := h.realizedRr_eq
    closePrice_eq := h.closePrice_eq
    closedAt_eq := h.closedAt_eq }
  same := SameTrade.refl s
  no_tp2 := h.tp2HitAt_eq
  no_sl := h.slHitAt_eq
  no_expiry := h.expiredAt_eq
  tp1HitAt_le := by simp [h.tp1HitAt_eq]

/-- The two statuses and outcomes of an end case determine it. -/
theorem EndCase.holds_unique {p : AssetProfile} {c : Candle} {s : TradeSignal} {k : EndCase}
    (hk : k.Holds p c s) : ∃! k : EndCase, k.Holds p c s := by
  refine ⟨k, hk, fun k' hk' => ?_⟩
  cases k <;> cases k' <;> simp only [EndCase.Holds] at hk hk' <;> first
    | rfl
    | (exfalso; rw [hk.1] at hk'; exact absurd hk'.1 (by decide))
    | (exfalso; rw [hk.2.1] at hk'; exact absurd hk'.2.1 (by decide))

/-- A step that is not terminal keeps the invariant for the candles that follow. -/
theorem RunState.step {s₀ s s' : TradeSignal} {p : AssetProfile} {c : Candle} {cs : List Candle}
    {out : StepOutcome} (h : RunState s₀ s (c :: cs))
    (hle : ∀ c' ∈ cs, c.timestamp ≤ c'.timestamp)
    (hstep : LifecycleStep p c c.timestamp s (s', out)) (hout : out.terminal = false) :
    RunState s₀ s' cs := by
  have htail : ∀ t, s.tp1HitAt = some t → ∀ c' ∈ cs, t ≤ c'.timestamp :=
    fun t ht c' hc' => h.tp1HitAt_le t ht c' (List.mem_cons_of_mem _ hc')
  cases hstep with
  | tp1 =>
      obtain ⟨_, _, ho, hr, hc, hcl⟩ := h.isOpen
      refine ⟨⟨Or.inr rfl, by simp, ho, hr, hc, hcl⟩, ?_, h.no_tp2, h.no_sl, h.no_expiry, ?_⟩
      · exact h.same.trans (by constructor <;> rfl)
      · rintro t ⟨⟩ c' hc'
        exact hle c' hc'
  | wait | hold => exact ⟨h.isOpen, h.same, h.no_tp2, h.no_sl, h.no_expiry, htail⟩
  | _ => cases hout

/-- A terminal step from a running state ends the trade in exactly one of the five ways. -/
theorem RunState.terminal {s₀ s s' : TradeSignal} {p : AssetProfile} {c : Candle}
    {cs : List Candle} {out : StepOutcome} (hp : p.PctInRange) (hrr : 0 < s₀.riskRewardRatio)
    (h : RunState s₀ s (c :: cs)) (hstep : LifecycleStep p c c.timestamp s (s', out))
    (hout : out.terminal = true) : TerminalState p c s' := by
  have hpos : 0 ≤ s.riskRewardRatio := by rw [h.same.riskRewardRatio_eq]; exact hrr.le
  have hw0 := tp2WeightedRr_nonneg hp hpos
  have hw1 := tp2WeightedRr_le hp hpos
  have hb0 := tp1BookedRr_nonneg hp hpos
  have hb1 := tp1BookedRr_le hp hpos
  have htp1 : ∀ t, s.tp1HitAt = some t → t ≤ c.timestamp :=
    fun t ht => h.tp1HitAt_le t ht c List.mem_cons_self
  have hno := And.intro h.no_tp2 (And.intro h.no_sl h.no_expiry)
  cases hstep with
  | expireTriggered hst hexp =>
      refine ⟨EndCase.holds_unique (k := .expired) ⟨rfl, rfl, rfl, rfl⟩, by simp,
        ⟨0, rfl, by norm_num, hpos⟩, rfl, htp1, by simp [hno], rfl⟩
  | expireBreakeven hst hexp hbe =>
      refine ⟨EndCase.holds_unique (k := .expiredBreakeven) ⟨rfl, rfl, rfl, rfl⟩,
        fun _ => ⟨h.isOpen.tp1HitAt_isSome hst, hbe⟩, ⟨_, rfl, ?_, hb1⟩, rfl, htp1,
        by simp [hno], rfl⟩
      exact (by norm_num : (-1 : ℚ) ≤ 0).trans hb0
  | expireAfterTp1 hst hexp hbe =>
      refine ⟨EndCase.holds_unique (k := .expired) ⟨rfl, rfl, rfl, rfl⟩, by simp,
        ⟨0, rfl, by norm_num, hpos⟩, rfl, htp1, by simp [hno], rfl⟩
  | bothTargets hst hexp h1 h2 =>
      refine ⟨EndCase.holds_unique (k := .target) ⟨rfl, rfl, rfl, rfl, rfl⟩, by simp [closeAtTp2],
        ⟨_, rfl, ?_, hw1⟩, rfl, ?_, by simp [closeAtTp2, hno], rfl⟩
      · exact (by norm_num : (-1 : ℚ) ≤ 0).trans hw0
      · rintro t ⟨⟩
        exact le_rfl
  | stop hst hexp h1 =>
      refine ⟨EndCase.holds_unique (k := .stopLoss) ⟨rfl, rfl, rfl, rfl⟩, by simp [closeAtStop],
        ⟨-1, rfl, le_rfl, ?_⟩, rfl, htp1, by simp [closeAtStop, hno], rfl⟩
      exact (by norm_num : (-1 : ℚ) ≤ 0).trans hpos
  | tp2AfterTp1 hst hexp h2 =>
      refine ⟨EndCase.holds_unique (k := .target)
          ⟨rfl, rfl, rfl, rfl, h.isOpen.tp1HitAt_isSome hst⟩, by simp [closeAtTp2],
        ⟨_, rfl, ?_, hw1⟩, rfl, htp1, by simp [closeAtTp2, hno], rfl⟩
      exact (by norm_num : (-1 : ℚ) ≤ 0).trans hw0
  | breakeven hst hexp h2 hbe h3 =>
      refine ⟨EndCase.holds_unique (k := .stopBreakeven) ⟨rfl, rfl, rfl, rfl⟩,
        fun _ => ⟨h.isOpen.tp1HitAt_isSome hst, hbe⟩, ⟨_, rfl, ?_, hb1⟩, rfl, htp1,
        by simp [closeAtBreakeven, hno], rfl⟩
      exact (by norm_num : (-1 : ℚ) ≤ 0).trans hb0
  | stopAfterTp1 hst hexp h2 hbe h3 =>
      refine ⟨EndCase.holds_unique (k := .stopLoss) ⟨rfl, rfl, rfl, rfl⟩, by simp [closeAtStop],
        ⟨-1, rfl, le_rfl, ?_⟩, rfl, htp1, by simp [closeAtStop, hno], rfl⟩
      exact (by norm_num : (-1 : ℚ) ≤ 0).trans hpos
  | tp1 | wait | hold => cases hout

/-! ## Runs -/

/-- Every step of a run from a running state, terminal or not, does what its kind promises. -/
theorem RunState.steps {s₀ : TradeSignal} {p : AssetProfile} (hp : p.PctInRange)
    (hrr : 0 < s₀.riskRewardRatio) (cs : List Candle) (hvalid : ∀ c ∈ cs, c.Valid)
    (hsorted : cs.Pairwise (fun a b => a.timestamp ≤ b.timestamp)) (s : TradeSignal)
    (h : RunState s₀ s cs) :
    ∃ steps, lifecycleSteps p s cs = .ok steps ∧
      ∀ x ∈ steps, (x.2.2.terminal = false → OpenState x.2.1) ∧
        (x.2.2.terminal = true → TerminalState p x.1 x.2.1) := by
  induction cs generalizing s with
  | nil => exact ⟨[], rfl, by simp⟩
  | cons c cs ih =>
      obtain ⟨hle, hsorted⟩ := List.pairwise_cons.mp hsorted
      have hcase := advance_cases h.isOpen.isOpen_eq c p c.timestamp
      rw [lifecycleSteps, stepSignalState_of_valid (hvalid c List.mem_cons_self)]
      generalize advance s c p c.timestamp = r at hcase ⊢
      obtain ⟨s', out⟩ := r
      cases hout : out.terminal with
      | true =>
          refine ⟨[(c, s', out)], by simp [hout], fun x hx => ?_⟩
          obtain rfl := List.mem_singleton.mp hx
          refine ⟨fun hf => ?_, fun _ => h.terminal hp hrr hcase hout⟩
          exact absurd (hout.symm.trans hf) (by decide)
      | false =>
          have hnext := h.step hle hcase hout
          obtain ⟨steps, hsteps, hall⟩ :=
            ih (fun c' hc' => hvalid c' (List.mem_cons_of_mem _ hc')) hsorted s' hnext
          refine ⟨(c, s', out) :: steps, by simp [hout, hsteps, Except.map], fun x hx => ?_⟩
          rcases List.mem_cons.mp hx with rfl | hx
          · refine ⟨fun _ => hnext.isOpen, fun ht => ?_⟩
            exact absurd (hout.symm.trans ht) (by decide)
          · exact hall x hx

section BuiltSignals

variable {symbol : String} {htfInterval ltfInterval : Interval} {htfRange : HtfRange}
  {rejection : RejectionCandle} {signalId : SignalId} {p₀ p : AssetProfile} {broker : String}
  {liveBid liveAsk : Option ℚ} {s : TradeSignal}

/-- **The lifecycle invariant.** A signal from `build_signal`, run over valid candles with
    nondecreasing timestamps, is a running trade after every step that is not terminal and a
    trade ended in exactly one way after the terminal one. -/
theorem lifecycleSteps_of_buildSignal
    (hb : buildSignal symbol htfInterval ltfInterval htfRange rejection signalId p₀ broker
      liveBid liveAsk = some s)
    (hp : p.PctInRange) (cs : List Candle) (hvalid : ∀ c ∈ cs, c.Valid)
    (hsorted : cs.Pairwise (fun a b => a.timestamp ≤ b.timestamp)) :
    ∃ steps, lifecycleSteps p s cs = .ok steps ∧
      ∀ x ∈ steps, (x.2.2.terminal = false → OpenState x.2.1) ∧
        (x.2.2.terminal = true → TerminalState p x.1 x.2.1) := by
  have hfrom := buildSignal_eq_some hb
  exact RunState.steps hp hfrom.riskRewardRatio_pos cs hvalid hsorted s (hfrom.fresh.runState cs)

end BuiltSignals

/-- The sample trade reaches TP1 on the first candle and falls back to its entry on the
    second. -/
theorem lifecycleSteps_of_sampleSignal :
    ∃ steps, lifecycleSteps sampleProfile sampleSignal
        [⟨7500000, 106, 120, 105, 119, 0⟩, ⟨7800000, 119, 119, 104, 105, 0⟩] = .ok steps ∧
      ∀ x ∈ steps, (x.2.2.terminal = false → OpenState x.2.1) ∧
        (x.2.2.terminal = true → TerminalState sampleProfile x.1 x.2.1) :=
  lifecycleSteps_of_buildSignal sampleSignal_built sampleProfile_pctInRange _
    (by decide +kernel) (by decide +kernel)

end SignalEngine
