/-
  StatusQuery: `query_signal_status`, against the tick that leaves the signal where it is.

  Model. The query reads the signal back from its dict, resets it to a fresh trade and replays
  every candle fetched since the entry, up to the one that is still forming; the tick replays
  the closed ones alone. An entry time of 0 sends the query back to the signal candle
  (`earlySince`). `str` is Python's `str` on the exceptions of `from_dict`; an interval is never
  the empty string here.

  Proved: which candles make a waiting trade end, and on what price (`BooksTp2`,
  `BooksBreakeven`, `loop_books`), and that the query reports what the tick leaves exactly when
  the candles it reads on its own leave an open trade alone and the ratio, rounded by `to_dict`,
  books the same result (`query_agrees_iff`).
-/
import SignalEngine.Persistence.Resume
import SignalEngine.Services.SignalService

namespace SignalEngine

open Lib

/-! ## The query -/

/-- The dict `query_signal_status` returns; `error` is there only when it failed. -/
structure StatusReply where
  requestId : String
  error : Option String
  signalId : WireValue
  status : Option SignalStatus
  outcome : Option SignalOutcome
  realizedRr : Option ℚ
  tp1HitAt : Option ℤ
  tp2HitAt : Option ℤ
  slHitAt : Option ℤ
  closePrice : Option ℚ
  candlesScanned : ℕ

/-- `_make_error_result`. -/
def makeErrorResult (requestId : String) (signalDict : WireDict) (msg : String) : StatusReply where
  requestId := requestId
  error := some msg
  signalId := (signalDict .id).getD (.str "")
  status := none
  outcome := none
  realizedRr := none
  tp1HitAt := none
  tp2HitAt := none
  slHitAt := none
  closePrice := none
  candlesScanned := 0

/-- The copy of the signal that is replayed. -/
def TradeSignal.probe (s : TradeSignal) : TradeSignal :=
  { s with
    status := .triggered
    tp1HitAt := none
    tp2HitAt := none
    slHitAt := none
    outcome := none
    realizedRr := none
    closedAt := none
    closePrice := none
    expiredAt := none
    invalidatedAt := none }

/-- The result for the replayed copy `probe` of `signal`. -/
def statusResult (requestId : String) (signal probe : TradeSignal) (candlesScanned : ℕ) :
    StatusReply where
  requestId := requestId
  error := none
  signalId := .signalId signal.id
  status := some probe.status
  outcome := probe.outcome
  realizedRr := probe.realizedRr
  tp1HitAt := probe.tp1HitAt
  tp2HitAt := probe.tp2HitAt
  slHitAt := probe.slHitAt
  closePrice := probe.closePrice
  candlesScanned := candlesScanned

/-- `query_signal_status` at `now`; a candle that `normalize_candle` refuses raises. -/
def querySignalStatus (str : WireError → String)
    (profileOf : String → Interval → Interval → AssetProfile)
    (fetch : ℤ → ℤ → Except String (List Candle)) (now : ℤ) (signalDict : WireDict)
    (requestId : String) : Except CandleError StatusReply :=
  match TradeSignal.fromDict signalDict with
  | .error e => .ok (makeErrorResult requestId signalDict ("deserialise error: " ++ str e))
  | .ok signal =>
      match fetch (replayFrom signal) now with
      | .error e => .ok (makeErrorResult requestId signalDict ("candle fetch failed: " ++ e))
      | .ok candles =>
          if candles = [] then
            .ok (makeErrorResult requestId signalDict "no candles returned")
          else
            let profile := profileOf signal.symbol signal.htfInterval signal.ltfInterval
            let after := candles.filter (fun c => decide (replayFrom signal < c.timestamp))
            match replaySignalLifecycle signal.probe after profile with
            | .error e => .error e
            | .ok probe => .ok (statusResult requestId signal probe candles.length)

/-- The reply says how `s` stands. -/
structure StatusReply.Reports (r : StatusReply) (s : TradeSignal) : Prop where
  status : r.status = some s.status
  outcome : r.outcome = s.outcome
  realizedRr : r.realizedRr = s.realizedRr
  tp1HitAt : r.tp1HitAt = s.tp1HitAt
  tp2HitAt : r.tp2HitAt = s.tp2HitAt
  slHitAt : r.slHitAt = s.slHitAt
  closePrice : r.closePrice = s.closePrice

variable {p : AssetProfile} {s : TradeSignal}

/-! ## How a waiting trade ends -/

/-- The candles end the triggered trade `s` at TP2. -/
def BooksTp2 (p : AssetProfile) (s : TradeSignal) (cs : List Candle) : Prop :=
  ∃ pre c post, cs = pre ++ c :: post ∧ isExpired s p c.timestamp = false ∧
    reachesTarget s.direction c s.tp2 = true ∧
    ((∀ d ∈ pre, WaitsAt p s d) ∧ reachesTarget s.direction c s.tp1 = true ∨ RunsAtTp1 p s pre)

/-- The candles end the triggered trade `s` at breakeven, after TP1. -/
def BooksBreakeven (p : AssetProfile) (s : TradeSignal) (cs : List Candle) : Prop :=
  p.moveSlToBeOnTp1 = true ∧
    ∃ pre c post, cs = pre ++ c :: post ∧ RunsAtTp1 p s pre ∧
      (isExpired s p c.timestamp = true ∨
        isExpired s p c.timestamp = false ∧ reachesTarget s.direction c s.tp2 = false ∧
          reachesStop s.direction c s.entryPrice = true)

/-- What the other endings book. -/
def plainRr : Option SignalOutcome → ℚ
  | some .loss => -1
  | _ => 0

/-- A loop that breaks does so on one candle, before which the trade waits or runs at TP1. -/
theorem loop_breaks (hs : s.status = .triggered) {cs : List Candle}
    (h : (loopUntil (advanceAt p) s cs).2 = true) :
    ∃ pre c post, cs = pre ++ c :: post ∧
      ((∀ d ∈ pre, WaitsAt p s d) ∧ (advanceAt p s c).2 = true ∧
          loopUntil (advanceAt p) s cs = advanceAt p s c ∨
        RunsAtTp1 p s pre ∧ ∃ now, (advanceAt p (atTp1 s now) c).2 = true ∧
          loopUntil (advanceAt p) s cs = advanceAt p (atTp1 s now) c) := by
  obtain ⟨pre, c, post, rfl, hpre, hc, heq⟩ := loopUntil_split_of_broke h
  refine ⟨pre, c, post, rfl, ?_⟩
  rcases loop_of_triggered hs hpre with ⟨hwaits, hquiet⟩ | ⟨hrun, now, htp1⟩
  · rw [hquiet] at hc heq
    exact Or.inl ⟨hwaits, hc, heq⟩
  · rw [htp1] at hc heq
    exact Or.inr ⟨hrun, now, hc, heq⟩

theorem loop_of_booksTp2 (hs : s.status = .triggered) {cs : List Candle} (h : BooksTp2 p s cs) :
    (loopUntil (advanceAt p) s cs).2 = true ∧
      (loopUntil (advanceAt p) s cs).1.realizedRr =
        some (tp2WeightedRr s.riskRewardRatio p.tp1TriggerPct p.tp1ClosePct) := by
  obtain ⟨pre, c, post, rfl, hexp, htp2, ⟨hwaits, htp1⟩ | hrun⟩ := h
  · have hquiet := loopUntil_of_quiet (fun d hd => advanceAt_of_waitsAt hs (hwaits d hd))
    have hstep : advanceAt p s c =
        (closeAtTp2 { s with tp1HitAt := some c.timestamp } p c.timestamp, true) := by
      rw [advanceAt, advance_of_bothTargets hs hexp htp1 htp2]
    rw [loopUntil_append_of_pass (by rw [hquiet]), hquiet,
      loopUntil_cons_of_break (by rw [hstep]), hstep]
    exact ⟨rfl, rfl⟩
  · obtain ⟨now, hloop⟩ := loop_of_runsAtTp1 hs hrun
    have hexp' : isExpired (atTp1 s now) p c.timestamp = false := hexp
    have htp2' : reachesTarget (atTp1 s now).direction c (atTp1 s now).tp2 = true := htp2
    have hstatus : (atTp1 s now).status = .tp1Hit := rfl
    have hstep : advanceAt p (atTp1 s now) c =
        (closeAtTp2 (atTp1 s now) p c.timestamp, true) := by
      rw [advanceAt, advance_of_tp2AfterTp1 hstatus hexp' htp2']
    rw [loopUntil_append_of_pass (by rw [hloop]), hloop,
      loopUntil_cons_of_break (by rw [hstep]), hstep]
    exact ⟨rfl, rfl⟩

theorem loop_of_booksBreakeven (hs : s.status = .triggered) {cs : List Candle}
    (h : BooksBreakeven p s cs) :
    (loopUntil (advanceAt p) s cs).2 = true ∧
      (loopUntil (advanceAt p) s cs).1.realizedRr = some (protectedBeRr s p) := by
  obtain ⟨hbe, pre, c, post, rfl, hrun, hend⟩ := h
  obtain ⟨now, hloop⟩ := loop_of_runsAtTp1 hs hrun
  have hstatus : (atTp1 s now).status = .tp1Hit := rfl
  have hstep : (advanceAt p (atTp1 s now) c).2 = true ∧
      (advanceAt p (atTp1 s now) c).1.realizedRr = some (protectedBeRr s p) := by
    rcases hend with hexp | ⟨hexp, htp2, hstop⟩
    · have hexp' : isExpired (atTp1 s now) p c.timestamp = true := hexp
      have hrr : (expireSignal (atTp1 s now) c p c.timestamp).realizedRr =
          some (protectedBeRr (atTp1 s now) p) := by
        simp [expireSignal, hstatus, hbe]
      rw [advanceAt, advance_of_expired hexp']
      exact ⟨rfl, hrr⟩
    · have hexp' : isExpired (atTp1 s now) p c.timestamp = false := hexp
      have htp2' : reachesTarget (atTp1 s now).direction c (atTp1 s now).tp2 = false := htp2
      have hsl : effectiveSl (atTp1 s now) p = s.entryPrice := by
        rw [effectiveSl_of_tp1Hit hstatus, if_pos hbe]
        rfl
      have hstop' : reachesStop (atTp1 s now).direction c (effectiveSl (atTp1 s now) p) = true := by
        rw [hsl]
        exact hstop
      rw [advanceAt, advance_of_stopAfterTp1 hstatus hexp' htp2' hstop', if_pos hbe]
      exact ⟨rfl, rfl⟩
  rw [loopUntil_append_of_pass (by rw [hloop]), hloop, loopUntil_cons_of_break hstep.1]
  exact hstep

/-- A loop that breaks books the end at TP2, the one at breakeven, or no share of the ratio. -/
theorem loop_books (hs : s.status = .triggered) {cs : List Candle}
    (h : (loopUntil (advanceAt p) s cs).2 = true) :
    BooksTp2 p s cs ∨ BooksBreakeven p s cs ∨
      (loopUntil (advanceAt p) s cs).1.realizedRr =
        some (plainRr (loopUntil (advanceAt p) s cs).1.outcome) := by
  obtain ⟨pre, c, post, rfl, ⟨hwaits, hbreak, heq⟩ | ⟨hrun, now, hbreak, heq⟩⟩ := loop_breaks hs h
  · rw [heq]
    have hcase := advance_cases_triggered hs c p c.timestamp
    unfold advanceAt at hbreak ⊢
    generalize advance s c p c.timestamp = r at hcase hbreak ⊢
    cases hcase with
    | bothTargets _ hexp htp1 htp2 =>
        exact Or.inl ⟨pre, c, post, rfl, hexp, htp2, Or.inl ⟨hwaits, htp1⟩⟩
    | expireTriggered | stop => exact Or.inr (Or.inr rfl)
    | tp1 | wait | hold => cases hbreak
    | expireBreakeven ht | expireAfterTp1 ht | tp2AfterTp1 ht | breakeven ht | stopAfterTp1 ht =>
        rw [hs] at ht
        cases ht
  · rw [heq]
    have hcase := advance_cases_tp1Hit (s := atTp1 s now) rfl c p c.timestamp
    unfold advanceAt at hbreak ⊢
    generalize advance (atTp1 s now) c p c.timestamp = r at hcase hbreak ⊢
    cases hcase with
    | tp2AfterTp1 _ hexp htp2 =>
        exact Or.inl ⟨pre, c, post, rfl, hexp, htp2, Or.inr hrun⟩
    | expireBreakeven _ hexp hbe =>
        exact Or.inr (Or.inl ⟨hbe, pre, c, post, rfl, hrun, Or.inl hexp⟩)
    | breakeven _ hexp htp2 hbe hstop =>
        exact Or.inr (Or.inl ⟨hbe, pre, c, post, rfl, hrun, Or.inr ⟨hexp, htp2, hstop⟩⟩)
    | expireAfterTp1 | stopAfterTp1 => exact Or.inr (Or.inr rfl)
    | tp1 | wait | hold => cases hbreak
    | expireTriggered ht | bothTargets ht | stop ht => cases ht

/-! ## The two replays -/

/-- The candles that only the query reads leave the trade as the closed ones left it, and no
    share of the ratio that `to_dict` rounds is booked on the closed ones. -/
structure ReadsAlike (p : AssetProfile) (s : TradeSignal) (closed unclosed : List Candle) :
    Prop where
  waiting : (∀ c ∈ closed, WaitsAt p s c) → ∀ c ∈ unclosed, WaitsAt p s c
  running : RunsAtTp1 p s closed → ∀ c ∈ unclosed, HoldsAt p s c
  tp2 : BooksTp2 p s closed →
    tp2WeightedRr (pyRoundTo s.riskRewardRatio 4) p.tp1TriggerPct p.tp1ClosePct =
      tp2WeightedRr s.riskRewardRatio p.tp1TriggerPct p.tp1ClosePct
  breakeven : BooksBreakeven p s closed →
    protectedBreakevenRr (pyRoundTo s.riskRewardRatio 4) p.tp1TriggerPct p.tp1ClosePct =
      protectedBreakevenRr s.riskRewardRatio p.tp1TriggerPct p.tp1ClosePct

/-- A loop that leaves an open trade open did not break. -/
theorem pass_of_isOpen (hopen : s.status.isOpen = true) {cs : List Candle}
    (h : (loopUntil (advanceAt p) s cs).1.status.isOpen = true) :
    (loopUntil (advanceAt p) s cs).2 = false := by
  rw [loop_isOpen hopen] at h
  simpa using h

/-- A loop over the candles of a triggered trade that leaves it triggered passes them all. -/
theorem waits_of_status (hs : s.status = .triggered) {cs : List Candle}
    (h : (loopUntil (advanceAt p) s cs).1.status = .triggered) : ∀ c ∈ cs, WaitsAt p s c := by
  have hpass : (loopUntil (advanceAt p) s cs).2 = false :=
    pass_of_isOpen (by rw [hs]; rfl) (by rw [h]; rfl)
  rcases loop_of_triggered hs hpass with ⟨hwaits, -⟩ | ⟨-, now, htp1⟩
  · exact hwaits
  · rw [htp1] at h
    cases h

/-- A loop over the candles of a trade at TP1 that leaves it there passes them all. -/
theorem holds_of_status (hs : s.status = .tp1Hit) {cs : List Candle}
    (h : (loopUntil (advanceAt p) s cs).1.status = .tp1Hit) : ∀ c ∈ cs, HoldsAt p s c := by
  have hpass : (loopUntil (advanceAt p) s cs).2 = false :=
    pass_of_isOpen (by rw [hs]; rfl) (by rw [h]; rfl)
  exact (loop_of_tp1Hit hs hpass).1

/-- The stored signal goes through the candles as the signal does, up to the result. -/
theorem storedForm_loop (p : AssetProfile) (s : TradeSignal) (cs : List Candle) :
    EndsAlike (fun _ _ => True) (loopUntil (advanceAt p) s cs).1
      (loopUntil (advanceAt p) (storedForm s) cs).1 :=
  ((resumed_storedForm ⟨fun _ => trivial, trivial, trivial⟩).loop cs).endsAlike

theorem storedForm_loop_broke (hs : s.status = .triggered) {cs : List Candle} :
    (loopUntil (advanceAt p) (storedForm s) cs).2 = (loopUntil (advanceAt p) s cs).2 := by
  have hopen : s.status.isOpen = true := by rw [hs]; rfl
  have hopen' : (storedForm s).status.isOpen = true := hopen
  have hloop := loop_isOpen (p := p) hopen cs
  have hloop' := loop_isOpen (p := p) hopen' cs
  rw [(storedForm_loop p s cs).status, hloop] at hloop'
  simpa using hloop'.symm

/-- On a trade that the candles end, the stored signal books the same result exactly when the
    share of the ratio it books is not moved by rounding. -/
theorem realizedRr_storedForm_iff (hs : s.status = .triggered) {cs : List Candle}
    (hbroke : (loopUntil (advanceAt p) s cs).2 = true) :
    (loopUntil (advanceAt p) (storedForm s) cs).1.realizedRr =
        (loopUntil (advanceAt p) s cs).1.realizedRr ↔
      (BooksTp2 p s cs →
        tp2WeightedRr (pyRoundTo s.riskRewardRatio 4) p.tp1TriggerPct p.tp1ClosePct =
          tp2WeightedRr s.riskRewardRatio p.tp1TriggerPct p.tp1ClosePct) ∧
      (BooksBreakeven p s cs →
        protectedBreakevenRr (pyRoundTo s.riskRewardRatio 4) p.tp1TriggerPct p.tp1ClosePct =
          protectedBreakevenRr s.riskRewardRatio p.tp1TriggerPct p.tp1ClosePct) := by
  have hs' : (storedForm s).status = .triggered := hs
  constructor
  · intro heq
    constructor
    · intro hb
      have hb' : BooksTp2 p (storedForm s) cs := hb
      rw [(loop_of_booksTp2 hs hb).2, (loop_of_booksTp2 hs' hb').2] at heq
      exact Option.some.inj heq
    · intro hb
      have hb' : BooksBreakeven p (storedForm s) cs := hb
      rw [(loop_of_booksBreakeven hs hb).2, (loop_of_booksBreakeven hs' hb').2] at heq
      exact Option.some.inj heq
  · rintro ⟨htp2, hbe⟩
    have hbroke' : (loopUntil (advanceAt p) (storedForm s) cs).2 = true :=
      (storedForm_loop_broke hs).trans hbroke
    by_cases hb : BooksTp2 p s cs
    · have hb' : BooksTp2 p (storedForm s) cs := hb
      rw [(loop_of_booksTp2 hs hb).2, (loop_of_booksTp2 hs' hb').2]
      exact congrArg some (htp2 hb)
    by_cases hbe' : BooksBreakeven p s cs
    · have hb' : BooksBreakeven p (storedForm s) cs := hbe'
      rw [(loop_of_booksBreakeven hs hbe').2, (loop_of_booksBreakeven hs' hb').2]
      exact congrArg some (hbe hbe')
    have hplain := ((loop_books hs hbroke).resolve_left hb).resolve_left hbe'
    have hplain' := ((loop_books hs' hbroke').resolve_left hb).resolve_left hbe'
    rw [hplain, hplain', (storedForm_loop p s cs).outcome]

/-- No candles leave a triggered trade both waiting and at TP1. -/
theorem not_runsAtTp1_of_waits (hs : s.status = .triggered) {cs : List Candle}
    (h : ∀ c ∈ cs, WaitsAt p s c) : ¬ RunsAtTp1 p s cs := by
  intro hrun
  obtain ⟨now, htp1⟩ := loop_of_runsAtTp1 hs hrun
  rw [loopUntil_of_quiet (fun c hc => advanceAt_of_waitsAt hs (h c hc))] at htp1
  have hst : s.status = .tp1Hit := congrArg (fun r => r.1.status) htp1
  rw [hs] at hst
  cases hst

section Replies

variable {closed unclosed : List Candle}

/-- Where the closed candles end the trade, the query stops with them. -/
theorem reports_iff_of_broke (hs : s.status = .triggered)
    (hbroke : (loopUntil (advanceAt p) s closed).2 = true) (requestId : String)
    (signal : TradeSignal) (n : ℕ) :
    (statusResult requestId signal
        (loopUntil (advanceAt p) (storedForm s) (closed ++ unclosed)).1 n).Reports
      (loopUntil (advanceAt p) s closed).1 ↔ ReadsAlike p s closed unclosed := by
  have hbroke' := (storedForm_loop_broke hs).trans hbroke
  have halike := storedForm_loop p s closed
  have hreal := realizedRr_storedForm_iff hs hbroke
  rw [loopUntil_append_of_broke hbroke']
  constructor
  · intro h
    obtain ⟨htp2, hbe⟩ := hreal.mp h.realizedRr
    refine ⟨fun hwaits => ?_, fun hrun => ?_, htp2, hbe⟩
    · rw [loopUntil_of_quiet (fun c hc => advanceAt_of_waitsAt hs (hwaits c hc))] at hbroke
      cases hbroke
    · obtain ⟨now, htp1⟩ := loop_of_runsAtTp1 hs hrun
      rw [htp1] at hbroke
      cases hbroke
  · intro h
    exact ⟨congrArg some halike.status, halike.outcome, hreal.mpr ⟨h.tp2, h.breakeven⟩,
      halike.tp1HitAt, halike.tp2HitAt, halike.slHitAt, halike.closePrice⟩

/-- Where they do not, nothing has been booked. -/
theorem not_books_of_pass (hs : s.status = .triggered)
    (hpass : (loopUntil (advanceAt p) s closed).2 = false) :
    ¬ BooksTp2 p s closed ∧ ¬ BooksBreakeven p s closed := by
  constructor
  · intro hb
    rw [(loop_of_booksTp2 hs hb).1] at hpass
    cases hpass
  · intro hb
    rw [(loop_of_booksBreakeven hs hb).1] at hpass
    cases hpass

theorem reports_iff_of_waits (hs : s.status = .triggered)
    (hwaits : ∀ c ∈ closed, WaitsAt p s c) (requestId : String) (signal : TradeSignal) (n : ℕ) :
    (statusResult requestId signal
        (loopUntil (advanceAt p) (storedForm s) (closed ++ unclosed)).1 n).Reports
      (loopUntil (advanceAt p) s closed).1 ↔ ReadsAlike p s closed unclosed := by
  have hs' : (storedForm s).status = .triggered := hs
  have hloop := loopUntil_of_quiet (fun c hc => advanceAt_of_waitsAt hs (hwaits c hc))
  have hloop' := loopUntil_of_quiet (fun c hc => advanceAt_of_waitsAt hs' (hwaits c hc))
  obtain ⟨htp2, hbe⟩ := not_books_of_pass hs (by rw [hloop])
  have hnrun := not_runsAtTp1_of_waits hs hwaits
  rw [loopUntil_append_of_pass (by rw [hloop']), hloop, hloop']
  constructor
  · intro h
    have hstatus := Option.some.inj h.status
    exact ⟨fun _ => waits_of_status hs' (hstatus.trans hs), fun h => absurd h hnrun,
      fun h => absurd h htp2, fun h => absurd h hbe⟩
  · intro h
    rw [loopUntil_of_quiet (fun c hc => advanceAt_of_waitsAt hs' (h.waiting hwaits c hc))]
    exact ⟨rfl, rfl, rfl, rfl, rfl, rfl, rfl⟩

theorem reports_iff_of_runs (hs : s.status = .triggered) (hrun : RunsAtTp1 p s closed)
    (requestId : String) (signal : TradeSignal) (n : ℕ) :
    (statusResult requestId signal
        (loopUntil (advanceAt p) (storedForm s) (closed ++ unclosed)).1 n).Reports
      (loopUntil (advanceAt p) s closed).1 ↔ ReadsAlike p s closed unclosed := by
  obtain ⟨now, hloop⟩ := loop_of_runsAtTp1 hs hrun
  obtain ⟨now', hloop'⟩ := loop_of_runsAtTp1 (s := storedForm s) hs hrun
  have hnow : some now' = some now := by
    have halike := (storedForm_loop p s closed).tp1HitAt
    rw [hloop, hloop'] at halike
    exact halike
  cases hnow
  obtain ⟨htp2, hbe⟩ := not_books_of_pass hs (by rw [hloop])
  have hnwait : ¬ ∀ c ∈ closed, WaitsAt p s c := fun h => not_runsAtTp1_of_waits hs h hrun
  rw [loopUntil_append_of_pass (by rw [hloop']), hloop, hloop']
  constructor
  · intro h
    have hstatus := Option.some.inj h.status
    exact ⟨fun h => absurd h hnwait,
      fun _ => holds_of_status (s := atTp1 (storedForm s) now) rfl hstatus,
      fun h => absurd h htp2, fun h => absurd h hbe⟩
  · intro h
    rw [loopUntil_of_quiet (fun c hc =>
      advanceAt_of_holdsAt (s := atTp1 (storedForm s) now) rfl (h.running hrun c hc))]
    exact ⟨rfl, rfl, rfl, rfl, rfl, rfl, rfl⟩

/-- The reply for the stored signal after all candles, against the signal after the closed ones. -/
theorem reports_iff (hs : s.status = .triggered) (requestId : String) (signal : TradeSignal)
    (n : ℕ) :
    (statusResult requestId signal
        (loopUntil (advanceAt p) (storedForm s) (closed ++ unclosed)).1 n).Reports
      (loopUntil (advanceAt p) s closed).1 ↔ ReadsAlike p s closed unclosed := by
  cases hbroke : (loopUntil (advanceAt p) s closed).2 with
  | true => exact reports_iff_of_broke hs hbroke requestId signal n
  | false =>
      rcases loop_of_triggered hs hbroke with ⟨hwaits, -⟩ | ⟨hrun, -⟩
      · exact reports_iff_of_waits hs hwaits requestId signal n
      · exact reports_iff_of_runs hs hrun requestId signal n

end Replies

/-! ## Candles up to the entry -/

/-- A candle up to the entry expires the trade, at the price at which the first candle after the
    entry does. -/
def ExpiresEarly (p : AssetProfile) (s : TradeSignal) (early closed : List Candle) : Prop :=
  ∃ pre c post d rest, early = pre ++ c :: post ∧ closed = d :: rest ∧
    (∀ e ∈ pre, WaitsAt p s e) ∧ isExpired s p c.timestamp = true ∧ c.close = d.close

theorem not_expiresEarly_nil {closed : List Candle} : ¬ ExpiresEarly p s [] closed := by
  rintro ⟨pre, c, post, d, rest, hnil, -⟩
  cases pre <;> cases hnil

theorem expiresEarly_cons {c : Candle} {early closed : List Candle} :
    ExpiresEarly p s (c :: early) closed ↔
      (isExpired s p c.timestamp = true ∧ ∃ d rest, closed = d :: rest ∧ c.close = d.close) ∨
        WaitsAt p s c ∧ ExpiresEarly p s early closed := by
  constructor
  · rintro ⟨pre, e, post, d, rest, heq, hclosed, hpre, hexp, hclose⟩
    cases pre with
    | nil =>
        cases heq
        exact Or.inl ⟨hexp, d, rest, hclosed, hclose⟩
    | cons a pre =>
        cases heq
        obtain ⟨ha, hpre⟩ := List.forall_mem_cons.mp hpre
        exact Or.inr ⟨ha, pre, e, post, d, rest, rfl, hclosed, hpre, hexp, hclose⟩
  · rintro (⟨hexp, d, rest, hclosed, hclose⟩ | ⟨hc, pre, e, post, d, rest, rfl, hclosed, hpre, h⟩)
    · exact ⟨[], c, early, d, rest, rfl, hclosed, by simp, hexp, hclose⟩
    · exact ⟨c :: pre, e, post, d, rest, rfl, hclosed, List.forall_mem_cons.mpr ⟨hc, hpre⟩, h⟩

/-- Past its entry state a trade keeps the time of its TP1. -/
theorem advance_tp1HitAt (h : s.status ≠ .triggered) (c : Candle) (now : ℤ) :
    (advance s c p now).1.status ≠ .triggered ∧
      (advance s c p now).1.tp1HitAt = s.tp1HitAt := by
  unfold advance tp1HitBlock expireSignal closeAtTp2 closeAtStop closeAtBreakeven
  dsimp only
  rw [if_neg h, if_neg h]
  repeat' split
  all_goals first
    | exact ⟨h, rfl⟩
    | exact ⟨nofun, rfl⟩

theorem loop_tp1HitAt (h : s.status ≠ .triggered) (cs : List Candle) :
    (loopUntil (advanceAt p) s cs).1.tp1HitAt = s.tp1HitAt := by
  have hkeep : (loopUntil (advanceAt p) s cs).1.status ≠ .triggered ∧
      (loopUntil (advanceAt p) s cs).1.tp1HitAt = s.tp1HitAt :=
    loopUntil_invariant
      (fun t : TradeSignal => t.status ≠ .triggered ∧ t.tp1HitAt = s.tp1HitAt)
      (fun t c ht => ⟨(advance_tp1HitAt ht.1 c c.timestamp).1,
        (advance_tp1HitAt ht.1 c c.timestamp).2.trans ht.2⟩) ⟨h, rfl⟩ cs
  exact hkeep.2

/-- A candle that a trade does not wait through, and that does not expire it, dates a hit. -/
theorem hit_of_not_waitsAt (hs : s.status = .triggered) {c : Candle}
    (hexp : isExpired s p c.timestamp = false) (hwait : ¬ WaitsAt p s c) (cs : List Candle) :
    (loopUntil (advanceAt p) s (c :: cs)).1.tp1HitAt = some c.timestamp ∨
      (loopUntil (advanceAt p) s (c :: cs)).1.slHitAt = some c.timestamp := by
  cases hc : (advanceAt p s c).2 with
  | true =>
      rw [loopUntil_cons_of_break hc]
      have hcase := advance_cases_triggered hs c p c.timestamp
      unfold advanceAt at hc ⊢
      generalize advance s c p c.timestamp = r at hcase hc ⊢
      cases hcase with
      | bothTargets => exact Or.inl rfl
      | stop => exact Or.inr rfl
      | expireTriggered _ hexp' =>
          rw [hexp] at hexp'
          cases hexp'
      | tp1 | wait | hold => cases hc
      | expireBreakeven h | expireAfterTp1 h | tp2AfterTp1 h | breakeven h | stopAfterTp1 h =>
          rw [hs] at h
          cases h
  | false =>
      rw [loopUntil_cons_of_pass hc]
      rcases pass_of_triggered hs hc with ⟨hw, -⟩ | ⟨-, heq⟩
      · exact absurd hw hwait
      · rw [heq]
        have hne : (atTp1 s c.timestamp).status ≠ .triggered := by
          intro h
          cases h
        exact Or.inl (loop_tp1HitAt hne cs)

/-- TP1 and the stop are on record at no time up to `ts`. -/
def HitsAfter (ts : ℤ) (s : TradeSignal) : Prop :=
  ∀ t, s.tp1HitAt = some t ∨ s.slHitAt = some t → ts < t

theorem HitsAfter.advance {ts now : ℤ} (h : HitsAfter ts s) (hnow : ts < now) (c : Candle)
    (p : AssetProfile) : HitsAfter ts (advance s c p now).1 := by
  unfold SignalEngine.advance tp1HitBlock expireSignal closeAtTp2 closeAtStop closeAtBreakeven
  dsimp only
  repeat' split
  all_goals
    rintro t (ht | ht)
    · first
      | exact h t (Or.inl ht)
      | exact (Option.some.inj ht) ▸ hnow
    · first
      | exact h t (Or.inr ht)
      | exact (Option.some.inj ht) ▸ hnow

/-- The signal after the candle that expires it before TP1. -/
def expiredOn (s : TradeSignal) (c : Candle) : TradeSignal :=
  { s with
    status := .expired
    outcome := some .expired
    realizedRr := some 0
    closePrice := some c.close
    expiredAt := some c.timestamp
    closedAt := some c.timestamp }

theorem loop_of_expired (hs : s.status = .triggered) {c : Candle}
    (hexp : isExpired s p c.timestamp = true) (cs : List Candle) :
    loopUntil (advanceAt p) s (c :: cs) = (expiredOn s c, true) := by
  have hstep : advanceAt p s c = (expiredOn s c, true) := by
    rw [advanceAt, advance_of_expired hexp]
    simp [expireSignal, expiredOn, hs]
  rw [loopUntil_cons_of_break (by rw [hstep]), hstep]

/-- The query and the tick where the first candle up to the entry does not leave the trade
    waiting. -/
theorem reports_iff_of_not_waitsAt (hfresh : FreshSignal s) {c : Candle} {closed : List Candle}
    (hwait : ¬ WaitsAt p s c) (hearly : ∀ d ∈ closed, c.timestamp < d.timestamp)
    (cs : List Candle) (requestId : String) (signal : TradeSignal) (n : ℕ) :
    (statusResult requestId signal (loopUntil (advanceAt p) (storedForm s) (c :: cs)).1 n).Reports
        (loopUntil (advanceAt p) s closed).1 ↔
      isExpired s p c.timestamp = true ∧ ∃ d rest, closed = d :: rest ∧ c.close = d.close := by
  have hs : s.status = .triggered := hfresh.status_eq
  have hs' : (storedForm s).status = .triggered := hs
  cases hexp : isExpired s p c.timestamp with
  | false =>
      refine iff_of_false (fun h => ?_) (fun h => by cases h.1)
      have hafter : HitsAfter c.timestamp (loopUntil (advanceAt p) s closed).1 := by
        refine loopUntil_invariant_mem (HitsAfter c.timestamp)
          (fun t d hd ht => ht.advance (hearly d hd) d p) ?_
        rintro t (ht | ht)
        · rw [hfresh.tp1HitAt_eq] at ht
          cases ht
        · rw [hfresh.slHitAt_eq] at ht
          cases ht
      rcases hit_of_not_waitsAt (s := storedForm s) hs' hexp hwait cs with hhit | hhit
      · exact lt_irrefl _ (hafter _ (Or.inl (h.tp1HitAt.symm.trans hhit)))
      · exact lt_irrefl _ (hafter _ (Or.inr (h.slHitAt.symm.trans hhit)))
  | true =>
      rw [loop_of_expired (s := storedForm s) hs' hexp]
      cases closed with
      | nil =>
          refine iff_of_false (fun h => ?_) ?_
          · have hstatus : SignalStatus.expired = s.status := Option.some.inj h.status
            rw [hs] at hstatus
            cases hstatus
          · rintro ⟨-, d, rest, hnil, -⟩
            cases hnil
      | cons d ds =>
          have hlate : isExpired s p d.timestamp = true := by
            have hlt := hearly d List.mem_cons_self
            simp only [isExpired, decide_eq_true_eq] at hexp ⊢
            omega
          rw [loop_of_expired hs hlate]
          constructor
          · exact fun h => ⟨rfl, d, ds, rfl, Option.some.inj h.closePrice⟩
          · rintro ⟨-, e, rest, heq, hclose⟩
            cases heq
            exact ⟨rfl, rfl, rfl, rfl, rfl, rfl, congrArg some hclose⟩

/-- The reply after candles up to the entry as well. -/
theorem reports_iff_of_early (hfresh : FreshSignal s) {early closed unclosed : List Candle}
    (hearly : ∀ c ∈ early, ∀ d ∈ closed, c.timestamp < d.timestamp) (requestId : String)
    (signal : TradeSignal) (n : ℕ) :
    (statusResult requestId signal
        (loopUntil (advanceAt p) (storedForm s) (early ++ (closed ++ unclosed))).1 n).Reports
        (loopUntil (advanceAt p) s closed).1 ↔
      (∀ c ∈ early, WaitsAt p s c) ∧ ReadsAlike p s closed unclosed ∨
        ExpiresEarly p s early closed := by
  have hs : s.status = .triggered := hfresh.status_eq
  induction early with
  | nil =>
      rw [List.nil_append, reports_iff hs]
      simp [not_expiresEarly_nil]
  | cons c early ih =>
      obtain ⟨hc, hrest⟩ := List.forall_mem_cons.mp hearly
      rw [expiresEarly_cons, List.forall_mem_cons, List.cons_append]
      by_cases hwait : WaitsAt p s c
      · have hquiet := advanceAt_of_waitsAt (s := storedForm s) hs hwait
        rw [loopUntil_cons_of_pass (by rw [hquiet]), hquiet]
        refine (ih hrest).trans ?_
        simp [hwait, hwait.1]
      · rw [reports_iff_of_not_waitsAt hfresh hwait hc]
        simp [hwait]

/-! ## The emitted signal and its dict -/

/-- What the query and the tick rely on of an emitted signal. -/
structure JustEmitted (s : TradeSignal) : Prop where
  fresh : FreshSignal s
  invalidatedAt_eq : s.invalidatedAt = none
  triggeredAt_eq : s.triggeredAt = some (s.createdAt + intervalMs s.ltfInterval)

section Emission

variable {symbol broker : String} {htfInterval ltfInterval : Interval} {z : HtfRange}
  {rejection : RejectionCandle} {signalId : SignalId} {liveBid liveAsk : Option ℚ}

theorem invalidatedAt_buildSignal
    (hb : buildSignal symbol htfInterval ltfInterval z rejection signalId p broker
      liveBid liveAsk = some s) : s.invalidatedAt = none := by
  unfold buildSignal at hb
  dsimp only at hb
  repeat' split at hb
  all_goals first
    | cases hb
      done
    | cases hb
      rfl

theorem justEmitted_of_emitSetup {cfg : Settings} {raises : ℕ → Bool} {v : PairView}
    {io : PairInputs} {st : Service}
    (h : (Service.emitSetup cfg raises v io z rejection st).2 = .emitted s) : JustEmitted s := by
  unfold Service.emitSetup at h
  split at h
  · cases h
  split at h
  · cases h
  · next built hbuilt =>
      rw [evaluateSetup_signal] at hbuilt
      cases h
      have hfrom := buildSignal_eq_some hbuilt
      have hinv := invalidatedAt_buildSignal hbuilt
      refine ⟨?_, hinv, ?_⟩
      · exact ⟨hfrom.fresh.1, hfrom.fresh.2, hfrom.fresh.3, hfrom.fresh.4, hfrom.fresh.5,
          hfrom.fresh.6, hfrom.fresh.7, hfrom.fresh.8, hfrom.fresh.9⟩
      · have htrig := hfrom.triggeredAt_eq
        rw [← hfrom.createdAt_eq, ← hfrom.ltfInterval_eq] at htrig
        exact htrig

end Emission

/-- Resetting an emitted signal changes nothing. -/
theorem JustEmitted.probe_eq (h : JustEmitted s) : s.probe = s := by
  obtain ⟨⟨h1, h2, h3, h4, h5, h6, h7, h8, h9⟩, h10, -⟩ := h
  cases s
  dsimp only at h1 h2 h3 h4 h5 h6 h7 h8 h9 h10
  subst h1 h2 h3 h4 h5 h6 h7 h8 h9 h10
  rfl

/-- A step changes nothing that is not reset. -/
theorem probe_advance (s : TradeSignal) (c : Candle) (p : AssetProfile) (now : ℤ) :
    (advance s c p now).1.probe = s.probe := by
  unfold advance tp1HitBlock expireSignal closeAtTp2 closeAtStop closeAtBreakeven
  dsimp only
  repeat' split
  all_goals rfl

theorem probe_of_stepsTo {s' : TradeSignal} (h : Relation.ReflTransGen StepsTo s s') :
    s'.probe = s.probe := by
  induction h with
  | refl => rfl
  | @tail t u _ hstep ih =>
      obtain ⟨c, p, now, out, hstep⟩ := hstep
      obtain ⟨-, hadv⟩ := stepSignalState_eq_ok hstep
      have hkeep := probe_advance t c p now
      rw [← hadv] at hkeep
      exact hkeep.trans ih

/-! ## What each side reads -/

/-- A candle history: valid candles in the order of their opens. -/
structure LtfHistory (hist : List Candle) : Prop where
  ascending : SortedBy Candle.timestamp hist
  valid : ∀ c ∈ hist, c.Valid

/-- The candles after the entry that have closed by `now`. -/
def closedSince (hist : List Candle) (now : ℤ) (s : TradeSignal) : List Candle :=
  hist.filter (fun c => decide (s.triggeredAt.getD 0 < c.timestamp) &&
    decide (c.timestamp ≤ lastClosedOpen s.ltfInterval now))

/-- The candles after the entry that have opened by `now` but not closed. -/
def unclosedSince (hist : List Candle) (now : ℤ) (s : TradeSignal) : List Candle :=
  hist.filter (fun c => decide (s.triggeredAt.getD 0 < c.timestamp) &&
    decide (lastClosedOpen s.ltfInterval now < c.timestamp ∧ c.timestamp ≤ now))

/-- The candles up to the entry that the query replays: it starts at the signal candle where the
    entry time is 0. -/
def earlySince (hist : List Candle) (now : ℤ) (s : TradeSignal) : List Candle :=
  hist.filter (fun c => decide (replayFrom s < c.timestamp ∧ c.timestamp ≤ s.triggeredAt.getD 0) &&
    decide (c.timestamp ≤ now))

variable {hist : List Candle} {oldestTs now : ℤ}

theorem JustEmitted.replayFrom_le (h : JustEmitted s) : replayFrom s ≤ s.triggeredAt.getD 0 := by
  have hm := intervalMs_pos s.ltfInterval
  unfold replayFrom
  split
  · exact le_rfl
  · next h0 =>
      rw [h.triggeredAt_eq, Option.getD_some] at h0 ⊢
      omega

/-- An entry time other than the epoch is where both replays start. -/
theorem earlySince_eq_nil (htrig : s.triggeredAt.getD 0 ≠ 0) : earlySince hist now s = [] := by
  rw [earlySince, List.filter_eq_nil_iff, replayFrom, if_pos htrig]
  intro c _
  simp only [Bool.and_eq_true, decide_eq_true_eq]
  omega

theorem JustEmitted.newerCandles_eq (h : JustEmitted s) (hold : oldestTs ≤ s.createdAt) :
    newerCandles s (fetchedClosed (fetchFrom hist) s.ltfInterval oldestTs now) =
      closedSince hist now s := by
  have hm := intervalMs_pos s.ltfInterval
  rw [newerCandles, fetchedClosed, fetchFrom, List.filter_filter, List.filter_filter, closedSince,
    h.triggeredAt_eq, Option.getD_some]
  refine List.filter_congr fun c _ => ?_
  rw [Bool.eq_iff_iff]
  simp only [Bool.and_eq_true, decide_eq_true_eq]
  omega

/-- The query reads candles up to the entry, those of the tick, and those that have not closed. -/
theorem JustEmitted.queryFeed_split (h : JustEmitted s) (hhist : LtfHistory hist) (now : ℤ) :
    queryFeed (fetchFrom hist) now s =
      earlySince hist now s ++ (closedSince hist now s ++ unclosedSince hist now s) := by
  have hlast := lastClosedOpen_le s.ltfInterval now
  have hm := intervalMs_pos s.ltfInterval
  have hfrom := h.replayFrom_le
  have hsorted : SortedBy Candle.timestamp (queryFeed (fetchFrom hist) now s) :=
    (hhist.ascending.filter _).filter _
  have hafter : SortedBy Candle.timestamp ((queryFeed (fetchFrom hist) now s).filter
      fun c => decide (s.triggeredAt.getD 0 < c.timestamp)) := hsorted.filter _
  rw [← hsorted.filter_append_filter (s.triggeredAt.getD 0),
    ← hafter.filter_append_filter (lastClosedOpen s.ltfInterval now)]
  simp only [queryFeed, fetchFrom, List.filter_filter, earlySince, closedSince, unclosedSince]
  congr 1
  · refine List.filter_congr fun c _ => ?_
    rw [Bool.eq_iff_iff]
    simp only [Bool.and_eq_true, decide_eq_true_eq]
    omega
  congr 1
  all_goals
    refine List.filter_congr fun c _ => ?_
    rw [Bool.eq_iff_iff]
    simp only [Bool.and_eq_true, decide_eq_true_eq]
    omega

/-! ## When they agree -/

/-- The query on the dict `d` reports what one tick at `now` leaves of the freshly triggered `s`,
    both on the range requests of one history. -/
def QueryAgrees (str : WireError → String)
    (profileOf : String → Interval → Interval → AssetProfile) (hist : List Candle)
    (oldestTs now : ℤ) (s : TradeSignal) (d : WireDict) (requestId : String) : Prop :=
  ∃ r, querySignalStatus str profileOf (fun lo hi => .ok (fetchFrom hist lo hi)) now d requestId =
      .ok r ∧
    r.Reports (updateWatched (profileOf s.symbol s.htfInterval s.ltfInterval) ⟨s, true⟩
      (fetchedClosed (fetchFrom hist) s.ltfInterval oldestTs now)).signal

/-- What the query answers for the dict of an emitted signal, at any later state of it. -/
theorem JustEmitted.querySignalStatus_eq (h : JustEmitted s) {s' : TradeSignal}
    (hlater : Relation.ReflTransGen StepsTo s s') (hhist : LtfHistory hist)
    (str : WireError → String) (profileOf : String → Interval → Interval → AssetProfile)
    (now : ℤ) (requestId : String) :
    querySignalStatus str profileOf (fun lo hi => .ok (fetchFrom hist lo hi)) now s'.toWireDict
        requestId =
      if fetchFrom hist (replayFrom s) now = [] then
        .ok (makeErrorResult requestId s'.toWireDict "no candles returned")
      else
        .ok (statusResult requestId (storedForm s')
          (loopUntil (advanceAt (profileOf s.symbol s.htfInterval s.ltfInterval)) (storedForm s)
            (earlySince hist now s ++ (closedSince hist now s ++ unclosedSince hist now s))).1
          (fetchFrom hist (replayFrom s) now).length) := by
  -- all the query reads of `s'` is in its probe, which is that of `s`
  have hprobe : s'.probe = s := (probe_of_stepsTo hlater).trans h.probe_eq
  have hstored : (storedForm s').probe = storedForm s := congrArg storedForm hprobe
  have hfrom : replayFrom (storedForm s') = replayFrom s := by rw [← hprobe]; rfl
  have hsymbol : (storedForm s').symbol = s.symbol := by rw [← hprobe]; rfl
  have hhtf : (storedForm s').htfInterval = s.htfInterval := by rw [← hprobe]; rfl
  have hltf : (storedForm s').ltfInterval = s.ltfInterval := by rw [← hprobe]; rfl
  have hfeed := h.queryFeed_split hhist now
  have hvalid : ∀ c ∈ earlySince hist now s ++ (closedSince hist now s ++
      unclosedSince hist now s), c.Valid := by
    intro c hc
    rw [← hfeed] at hc
    exact hhist.valid c (List.mem_of_mem_filter (List.mem_of_mem_filter hc))
  unfold querySignalStatus
  rw [fromDict_toDict]
  dsimp only
  rw [hfrom, hstored, hsymbol, hhtf, hltf]
  split
  · rfl
  · rw [queryFeed] at hfeed
    rw [hfeed, replaySignalLifecycle_eq_loop _ hvalid]

/-- What the tick leaves of a freshly triggered signal. -/
theorem JustEmitted.updateWatched_eq (h : JustEmitted s) (hhist : LtfHistory hist)
    (hold : oldestTs ≤ s.createdAt)
    (htwo : 2 ≤ (fetchedClosed (fetchFrom hist) s.ltfInterval oldestTs now).length) :
    (updateWatched p ⟨s, true⟩
        (fetchedClosed (fetchFrom hist) s.ltfInterval oldestTs now)).signal =
      (loopUntil (advanceAt p) s (closedSince hist now s)).1 := by
  have hopen : s.status.isOpen = true := by
    rw [h.fresh.status_eq]
    rfl
  have hvalid : ∀ c ∈ closedSince hist now s, c.Valid :=
    fun c hc => hhist.valid c (List.mem_of_mem_filter hc)
  rw [updateWatched, if_neg (by simp), if_neg (by omega), h.newerCandles_eq hold,
    evaluateCandles_eq_loop hvalid hopen]
  rfl

section Agreement

variable {cfg : Settings} {raises : ℕ → Bool} {v : PairView} {io : PairInputs} {z : HtfRange}
  {rejection : RejectionCandle} {st : Service} {s' : TradeSignal}

/-- **When the query agrees with the engine.** For an emitted signal, whatever has been done with
    it since, the query reports what one tick at the same time leaves of it exactly when its
    range holds a candle, the candles it reads up to the entry and those that have not closed
    leave the trade alone, and no rounded share of the ratio is booked; or a candle up to the
    entry expires it as the first one after it does. -/
theorem query_agrees_iff
    (hemit : (Service.emitSetup cfg raises v io z rejection st).2 = .emitted s)
    (hlater : Relation.ReflTransGen StepsTo s s') (hhist : LtfHistory hist)
    (hold : oldestTs ≤ s.createdAt)
    (htwo : 2 ≤ (fetchedClosed (fetchFrom hist) s.ltfInterval oldestTs now).length)
    (str : WireError → String) (profileOf : String → Interval → Interval → AssetProfile)
    (requestId : String) :
    QueryAgrees str profileOf hist oldestTs now s s'.toWireDict requestId ↔
      (∃ c ∈ hist, replayFrom s ≤ c.timestamp ∧ c.timestamp ≤ now) ∧
        ((∀ c ∈ earlySince hist now s,
              WaitsAt (profileOf s.symbol s.htfInterval s.ltfInterval) s c) ∧
            ReadsAlike (profileOf s.symbol s.htfInterval s.ltfInterval) s (closedSince hist now s)
              (unclosedSince hist now s) ∨
          ExpiresEarly (profileOf s.symbol s.htfInterval s.ltfInterval) s (earlySince hist now s)
            (closedSince hist now s)) := by
  have h := justEmitted_of_emitSetup hemit
  have hearly : ∀ c ∈ earlySince hist now s, ∀ d ∈ closedSince hist now s,
      c.timestamp < d.timestamp := by
    intro c hc d hd
    have hc' := List.of_mem_filter hc
    have hd' := List.of_mem_filter hd
    simp only [Bool.and_eq_true, decide_eq_true_eq] at hc' hd'
    omega
  have hfetched : fetchFrom hist (replayFrom s) now = [] ↔
      ¬ ∃ c ∈ hist, replayFrom s ≤ c.timestamp ∧ c.timestamp ≤ now := by
    simp only [fetchFrom, List.filter_eq_nil_iff, decide_eq_true_eq, not_exists, not_and]
  rw [QueryAgrees, h.querySignalStatus_eq hlater hhist, h.updateWatched_eq hhist hold htwo]
  by_cases hne : fetchFrom hist (replayFrom s) now = []
  · -- the query reports an error, and no status at all
    rw [if_pos hne]
    constructor
    · rintro ⟨r, hr, hreports⟩
      cases hr
      cases hreports.status
    · exact fun hagree => absurd hagree.1 (hfetched.mp hne)
  · rw [if_neg hne]
    have hsome := not_not.mp (mt hfetched.mpr hne)
    constructor
    · rintro ⟨r, hr, hreports⟩
      cases hr
      exact ⟨hsome, (reports_iff_of_early h.fresh hearly _ _ _).mp hreports⟩
    · exact fun hagree => ⟨_, rfl, (reports_iff_of_early h.fresh hearly _ _ _).mpr hagree.2⟩

end Agreement

/-! ## A candle still forming -/

/-- The pair the sample trade is found on. -/
def sampleView : PairView := ⟨"XAUUSD", oneHour, fiveMin, sampleProfile, 7500000, [], 0, none, []⟩

def queryInputs : PairInputs where
  htfFull := []
  fetchLtf := fun _ _ => []
  realNow := fun _ => 7500000
  detectedAt := fun _ => 7500000
  streakNow := fun _ => 7500000
  tick := fun _ => (none, none)
  load := fun _ => []

/-- The sample trade as it is emitted. -/
def sampleEmitted : TradeSignal :=
  { sampleSignal with detectedAt := some 7500000, emittedAt := some 7500000 }

theorem sampleEmitted_emitted :
    (Service.emitSetup sampleSettings (fun _ => false) sampleView queryInputs sampleRange
      sampleRejection { coordinator := ⟨0, {}, [], none⟩ }).2 = .emitted sampleEmitted := by
  decide +kernel

/-- The rejection candle, the one after it, and one that dips below the stop. -/
def dipping : List Candle :=
  [⟨7200000, 105, 107, 100, 106, 0⟩, ⟨7500000, 106, 108, 105, 107, 0⟩,
    ⟨7800000, 107, 108, 99, 104, 0⟩]

theorem dipping_history : LtfHistory dipping := by
  constructor
  · unfold SortedBy
    decide +kernel
  · decide +kernel

/-- A minute into the candle that dips, the query reports the stop; the tick leaves the trade
    as it was. -/
theorem query_reports_forming_candle :
    ¬ ∀ (cfg : Settings) (raises : ℕ → Bool) (v : PairView) (io : PairInputs) (z : HtfRange)
      (rejection : RejectionCandle) (st : Service) (s : TradeSignal) (hist : List Candle)
      (oldestTs now : ℤ) (str : WireError → String)
      (profileOf : String → Interval → Interval → AssetProfile) (requestId : String),
      (Service.emitSetup cfg raises v io z rejection st).2 = .emitted s → LtfHistory hist →
      oldestTs ≤ s.createdAt →
      2 ≤ (fetchedClosed (fetchFrom hist) s.ltfInterval oldestTs now).length →
      QueryAgrees str profileOf hist oldestTs now s s.toWireDict requestId := by
  intro h
  obtain ⟨r, hr, hreports⟩ := h sampleSettings (fun _ => false) sampleView queryInputs sampleRange
    sampleRejection { coordinator := ⟨0, {}, [], none⟩ } sampleEmitted dipping 7200000 7860000
    (fun _ => "") (fun _ _ _ => sampleProfile) "r1" sampleEmitted_emitted dipping_history
    (by decide +kernel) (by decide +kernel)
  have hquery : (querySignalStatus (fun _ => "") (fun _ _ _ => sampleProfile)
      (fun lo hi => .ok (fetchFrom dipping lo hi)) 7860000 sampleEmitted.toWireDict "r1").map
      StatusReply.status = .ok (some .slHit) := by
    decide +kernel
  have htick : (updateWatched sampleProfile ⟨sampleEmitted, true⟩
      (fetchedClosed (fetchFrom dipping) fiveMin 7200000 7860000)).signal.status = .triggered := by
    decide +kernel
  rw [hr] at hquery
  have hstatus : r.status = some .slHit := Except.ok.inj hquery
  rw [hreports.status] at hstatus
  have htick' := Option.some.inj hstatus
  exact absurd (htick.symm.trans htick') (by decide)

/-- Had it only risen so far, the two would agree. -/
theorem query_agrees_rising :
    QueryAgrees (fun _ => "") (fun _ _ _ => sampleProfile)
      (dipping.take 2 ++ [⟨7800000, 107, 112, 107, 110, 0⟩]) 7200000 7860000 sampleEmitted
      sampleEmitted.toWireDict "r1" := by
  have hopen : (loopUntil (advanceAt sampleProfile) sampleEmitted (closedSince
      (dipping.take 2 ++ [⟨7800000, 107, 112, 107, 110, 0⟩]) 7860000 sampleEmitted)).2 = false := by
    decide +kernel
  obtain ⟨htp2, hbe⟩ := not_books_of_pass rfl hopen
  refine (query_agrees_iff sampleEmitted_emitted .refl ⟨?_, by decide +kernel⟩
    (by decide +kernel) (by decide +kernel) _ _ _).mpr ⟨by decide +kernel, Or.inl ⟨?_, ?_⟩⟩
  · unfold SortedBy
    decide +kernel
  · rw [earlySince_eq_nil (by decide)]
    exact fun c hc => (by cases hc)
  constructor
  · intro _
    unfold WaitsAt
    decide +kernel
  · intro _
    unfold HoldsAt
    decide +kernel
  · exact fun h => absurd h htp2
  · exact fun h => absurd h hbe

end SignalEngine
