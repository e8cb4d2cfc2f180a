/-
  Candle feeds: which candles each path hands to `step_signal_state` for one signal.

  Model. `hist` is the LTF history, opens one interval apart, at any alignment. The market
  data client is a parameter `fetch`: a range request returns the history's candles of that
  range, except that one which has not closed by its end may look different (`FetchesRange`).
  Live and query select by timestamp, the backtest by the index `bisect_right` gives.

  Proved:
  * `historyAt_of_newestClosed`: the backtest's feed is the history after the newest closed candle.
  * `liveFeed_eq`, `queryFeed_eq`: theirs is the closed history after the entry time, without
    the candle that opens at it.
  * `feeds_agree_iff`: the feeds are equal only while that candle has not closed.
-/
import SignalEngine.Domain.Builder
import SignalEngine.Engine.LiveTicks
import SignalEngine.Lib.Sorted

namespace SignalEngine

open Lib

/-! ## The three feeds -/

/-- A range request of the market data client: `fetch lo hi`. -/
abbrev FetchRange := ℤ → ℤ → List Candle

/-- `last_closed_open` of `update_watchlist`. -/
def lastClosedOpen (ltf : Interval) (now : ℤ) : ℤ :=
  now / intervalMs ltf * intervalMs ltf - intervalMs ltf

/-- The closed candles `update_watchlist` goes on with. -/
def fetchedClosed (fetch : FetchRange) (ltf : Interval) (oldestTs now : ℤ) : List Candle :=
  (fetch oldestTs (lastClosedOpen ltf now + intervalMs ltf)).filter
    (fun c => decide (c.timestamp ≤ lastClosedOpen ltf now))

/-- `signal_candles` of `update_watchlist`; fewer than two closed candles end the call. -/
def liveFeed (fetch : FetchRange) (ltf : Interval) (oldestTs now : ℤ) (s : TradeSignal) :
    List Candle :=
  if (fetchedClosed fetch ltf oldestTs now).length < 2 then []
  else newerCandles s (fetchedClosed fetch ltf oldestTs now)

/-- `signal.triggered_at or signal.created_at`. -/
def replayFrom (s : TradeSignal) : ℤ :=
  if s.triggeredAt.getD 0 ≠ 0 then s.triggeredAt.getD 0 else s.createdAt

/-- The candles `query_signal_status` replays; without an end the request runs to `now`. -/
def queryFeed (fetch : FetchRange) (now : ℤ) (s : TradeSignal) : List Candle :=
  (fetch (replayFrom s) now).filter (fun c => decide (replayFrom s < c.timestamp))

/-- `pair_current_ts` of the backtest. -/
def pairCurrentTs (ltf : Interval) (analysisClose : ℤ) : ℤ :=
  analysisClose / intervalMs ltf * intervalMs ltf - intervalMs ltf

/-- `ltf_hi_idx` of the backtest. -/
def ltfHiIdx (ltf : Interval) (hist : List Candle) (analysisClose : ℤ) : ℕ :=
  bisectRight Candle.timestamp hist (pairCurrentTs ltf analysisClose)

/-- `ltf_candles_np[ltf_interval][cur_ltf_i + 1:]`, with `cur_ltf_i = ltf_hi_idx - 1`. -/
def backtestFeed (ltf : Interval) (hist : List Candle) (analysisClose : ℤ) : List Candle :=
  hist.drop (ltfHiIdx ltf hist analysisClose - 1 + 1)

/-- The candle the backtest calls the last closed one. -/
def newestClosed (ltf : Interval) (hist : List Candle) (analysisClose : ℤ) : Option Candle :=
  (hist.take (ltfHiIdx ltf hist analysisClose)).getLast?

/-- The part of a feed that has closed by `now`. -/
def closedBy (ltf : Interval) (now : ℤ) (cs : List Candle) : List Candle :=
  cs.filter (fun c => decide (c.timestamp ≤ lastClosedOpen ltf now))

/-- The live tick evaluates its feed. -/
theorem updateWatched_feed (p : AssetProfile) (fetch : FetchRange) (ltf : Interval)
    (oldestTs now : ℤ) (s : TradeSignal) :
    updateWatched p ⟨s, true⟩ (fetchedClosed fetch ltf oldestTs now) =
      evaluateCandles p ⟨s, true⟩ (liveFeed fetch ltf oldestTs now s) := by
  unfold updateWatched liveFeed
  split
  · next h => cases h
  · split
    · rfl
    · rfl

/-! ## Histories without gaps -/

/-- Opens one interval apart. -/
def GapFree (ltf : Interval) (hist : List Candle) : Prop :=
  hist.IsChain (fun a b => b.timestamp = a.timestamp + intervalMs ltf)

/-- What a range request promises about the closed candles of the range. -/
def FetchesRange (ltf : Interval) (hist : List Candle) (fetch : FetchRange) : Prop :=
  ∀ lo hi, (fetch lo hi).filter (fun c => decide (c.timestamp + intervalMs ltf ≤ hi)) =
    hist.filter (fun c => decide (lo ≤ c.timestamp ∧ c.timestamp + intervalMs ltf ≤ hi))

variable {ltf : Interval} {hist : List Candle}

theorem GapFree.pairwise (h : GapFree ltf hist) :
    hist.Pairwise (fun a b => a.timestamp + intervalMs ltf ≤ b.timestamp) := by
  have hm := intervalMs_pos ltf
  have htrans : IsTrans Candle (fun a b => a.timestamp + intervalMs ltf ≤ b.timestamp) :=
    ⟨fun a b c hab hbc => by omega⟩
  exact List.isChain_iff_pairwise.mp (h.imp (fun a b hab => hab.ge))

/-- The history around the newest closed candle `c`, as the backtest cuts it. -/
structure HistoryAt (ltf : Interval) (hist : List Candle) (c : Candle) (pre rest : List Candle) :
    Prop where
  hist_eq : hist = pre ++ c :: rest
  next_eq : ∀ d ∈ rest.head?, d.timestamp = c.timestamp + intervalMs ltf
  later : ∀ d ∈ rest.tail, c.timestamp + intervalMs ltf < d.timestamp
  earlier : ∀ d ∈ pre, d.timestamp < c.timestamp

theorem historyAt_of_newestClosed (hgap : GapFree ltf hist) {analysisClose : ℤ} {c : Candle}
    (hc : newestClosed ltf hist analysisClose = some c) :
    ∃ pre, HistoryAt ltf hist c pre (backtestFeed ltf hist analysisClose) := by
  have hm := intervalMs_pos ltf
  obtain ⟨pre, hpre⟩ := List.getLast?_eq_some_iff.mp hc
  have hpos : ltfHiIdx ltf hist analysisClose ≠ 0 := by
    intro h0
    rw [h0] at hpre
    simp at hpre
  have hfeed : backtestFeed ltf hist analysisClose =
      hist.drop (ltfHiIdx ltf hist analysisClose) := by
    rw [backtestFeed, Nat.sub_add_cancel (Nat.one_le_iff_ne_zero.mpr hpos)]
  have heq : hist = pre ++ c :: backtestFeed ltf hist analysisClose := by
    have hsplit := List.take_append_drop (ltfHiIdx ltf hist analysisClose) hist
    rw [hpre, ← hfeed] at hsplit
    simpa using hsplit.symm
  generalize backtestFeed ltf hist analysisClose = rest at heq
  have hpair := hgap.pairwise
  rw [heq] at hgap hpair
  obtain ⟨_, htail, hcross⟩ := List.pairwise_append.mp hpair
  refine ⟨pre, heq, ?_, ?_, fun d hd => ?_⟩
  · intro d hd
    obtain ⟨rest', rfl⟩ : ∃ rest', rest = d :: rest' := List.head?_eq_some_iff.mp hd
    exact (List.isChain_cons_cons.mp (List.IsChain.right_of_append hgap)).1
  · intro e he
    cases rest with
    | nil => cases he
    | cons d rest' =>
        obtain ⟨hcd, hrest⟩ := List.pairwise_cons.mp htail
        have h1 := hcd d List.mem_cons_self
        have h2 := (List.pairwise_cons.mp hrest).1 e he
        omega
  · have := hcross d hd c List.mem_cons_self
    omega

/-! ## What each feed is -/

variable {fetch : FetchRange} {c : Candle} {pre rest : List Candle} {s : TradeSignal}

/-- Among the candles after `x`, closed by the end of the request, the request is the history. -/
theorem fetch_filter (hfetch : FetchesRange ltf hist fetch) (lo : ℤ) {hi x l : ℤ} (hlo : lo ≤ x + 1)
    (hl : l + intervalMs ltf ≤ hi) :
    (fetch lo hi).filter (fun c => decide (x < c.timestamp) && decide (c.timestamp ≤ l)) =
      hist.filter (fun c => decide (x < c.timestamp) && decide (c.timestamp ≤ l)) := by
  have h := congrArg (List.filter
    (fun c : Candle => decide (x < c.timestamp) && decide (c.timestamp ≤ l))) (hfetch lo hi)
  rw [List.filter_filter, List.filter_filter] at h
  refine (List.filter_congr fun c _ => ?_).trans (h.trans (List.filter_congr fun c _ => ?_))
  · rw [Bool.eq_iff_iff]
    simp only [Bool.and_eq_true, decide_eq_true_eq]
    omega
  · rw [Bool.eq_iff_iff]
    simp only [Bool.and_eq_true, decide_eq_true_eq]
    omega

/-- Nothing that closed before `c` opens after it. -/
theorem HistoryAt.filter_earlier (h : HistoryAt ltf hist c pre rest) {bound : ℤ}
    (hbound : c.timestamp ≤ bound) : pre.filter (fun d => decide (bound < d.timestamp)) = [] := by
  rw [List.filter_eq_nil_iff]
  intro d hd hlt
  have hearlier := h.earlier d hd
  have hlater := of_decide_eq_true hlt
  omega

/-- After the entry time the history is what follows the candle opening at it. -/
theorem HistoryAt.filter_after (h : HistoryAt ltf hist c pre rest) :
    hist.filter (fun d => decide (c.timestamp + intervalMs ltf < d.timestamp)) = rest.tail := by
  have hm := intervalMs_pos ltf
  have hbound : c.timestamp ≤ c.timestamp + intervalMs ltf := by omega
  rw [h.hist_eq, List.filter_append, h.filter_earlier hbound, List.nil_append,
    List.filter_cons_of_neg (by simpa using hm.le)]
  have hlater := h.later
  have hnext := h.next_eq
  cases rest with
  | nil => rfl
  | cons d rest' =>
      have hd : d.timestamp = c.timestamp + intervalMs ltf := hnext d rfl
      rw [List.filter_cons_of_neg (by simp [hd]), List.tail_cons, List.filter_eq_self]
      intro e he
      exact decide_eq_true (hlater e he)

/-- From the rejection candle on, the history is the backtest's feed. -/
theorem HistoryAt.filter_from (h : HistoryAt ltf hist c pre rest) :
    hist.filter (fun d => decide (c.timestamp < d.timestamp)) = rest := by
  have hm := intervalMs_pos ltf
  rw [h.hist_eq, List.filter_append, h.filter_earlier le_rfl, List.nil_append,
    List.filter_cons_of_neg (by simp), List.filter_eq_self]
  intro d hd
  have hlater := h.later
  have hnext := h.next_eq
  cases rest with
  | nil => cases hd
  | cons e rest' =>
      have he : e.timestamp = c.timestamp + intervalMs ltf := hnext e rfl
      rcases List.mem_cons.mp hd with rfl | hd
      · exact decide_eq_true (by omega)
      · have := hlater d hd
        exact decide_eq_true (by omega)

/-- A signal whose setup candle is `c`. -/
structure EnteredAfter (ltf : Interval) (c : Candle) (s : TradeSignal) : Prop where
  createdAt_eq : s.createdAt = c.timestamp
  triggeredAt_eq : s.triggeredAt = some (c.timestamp + intervalMs ltf)

theorem lastClosedOpen_le (ltf : Interval) (now : ℤ) :
    lastClosedOpen ltf now + intervalMs ltf ≤ now := by
  have hm := intervalMs_pos ltf
  have := Int.ediv_mul_le now hm.ne'
  unfold lastClosedOpen
  omega

/-- Two candles of the history that have closed since `oldestTs` keep the call going. -/
theorem two_le_fetchedClosed (hfetch : FetchesRange ltf hist fetch) {d e : Candle}
    (hsub : List.Sublist [d, e] hist) {oldestTs now : ℤ}
    (hin : ∀ x ∈ [d, e], oldestTs ≤ x.timestamp ∧ x.timestamp ≤ lastClosedOpen ltf now) :
    2 ≤ (fetchedClosed fetch ltf oldestTs now).length := by
  have hclosed : fetchedClosed fetch ltf oldestTs now =
      hist.filter (fun c => decide (oldestTs ≤ c.timestamp ∧
        c.timestamp + intervalMs ltf ≤ lastClosedOpen ltf now + intervalMs ltf)) := by
    rw [← hfetch, fetchedClosed]
    exact List.filter_congr fun c _ => by simp
  have hkeep := hsub.filter (fun c => decide (oldestTs ≤ c.timestamp ∧
    c.timestamp + intervalMs ltf ≤ lastClosedOpen ltf now + intervalMs ltf))
  rw [List.filter_eq_self.mpr, ← hclosed] at hkeep
  · exact hkeep.length_le
  · intro x hx
    obtain ⟨h1, h2⟩ := hin x hx
    exact decide_eq_true ⟨h1, by omega⟩

/-- With fewer than two closed candles, nothing after the entry candle has closed. -/
theorem HistoryAt.closedBy_of_short (hfetch : FetchesRange ltf hist fetch)
    (h : HistoryAt ltf hist c pre rest) {oldestTs now : ℤ} (hold : oldestTs ≤ c.timestamp)
    (hshort : (fetchedClosed fetch ltf oldestTs now).length < 2) :
    closedBy ltf now rest.tail = [] := by
  have hm := intervalMs_pos ltf
  rw [closedBy, List.filter_eq_nil_iff]
  intro e he hle
  have hle := of_decide_eq_true hle
  have hlt := h.later e he
  have hnext := h.next_eq
  have heq := h.hist_eq
  cases rest with
  | nil => cases he
  | cons d rest' =>
      have hd : d.timestamp = c.timestamp + intervalMs ltf := hnext d rfl
      have hsub : List.Sublist [d, e] hist := by
        rw [heq]
        refine List.Sublist.trans ?_ (List.sublist_append_right _ _)
        refine List.Sublist.cons _ (List.Sublist.cons_cons _ ?_)
        exact List.singleton_sublist.mpr he
      have hin : ∀ x ∈ [d, e],
          oldestTs ≤ x.timestamp ∧ x.timestamp ≤ lastClosedOpen ltf now := by
        intro x hx
        rw [List.mem_cons, List.mem_singleton] at hx
        rcases hx with rfl | rfl <;> constructor <;> omega
      have := two_le_fetchedClosed hfetch hsub hin
      omega

theorem liveFeed_eq (hfetch : FetchesRange ltf hist fetch) (h : HistoryAt ltf hist c pre rest)
    (hs : EnteredAfter ltf c s) {oldestTs : ℤ} (hold : oldestTs ≤ s.createdAt) (now : ℤ) :
    liveFeed fetch ltf oldestTs now s = closedBy ltf now rest.tail := by
  have hm := intervalMs_pos ltf
  rw [hs.createdAt_eq] at hold
  have hcut := fetch_filter hfetch oldestTs (x := c.timestamp + intervalMs ltf)
    (l := lastClosedOpen ltf now) (by omega) le_rfl
  have hnewer : newerCandles s (fetchedClosed fetch ltf oldestTs now) =
      closedBy ltf now rest.tail := by
    rw [newerCandles, fetchedClosed, List.filter_filter, hs.triggeredAt_eq, closedBy,
      ← h.filter_after, List.filter_filter]
    simp only [Option.getD_some, Bool.and_comm (decide (_ ≤ lastClosedOpen ltf now))]
    exact hcut
  unfold liveFeed
  split
  · next hshort => rw [h.closedBy_of_short hfetch hold hshort]
  · exact hnewer

/-- The query replays from the entry time too, unless that is the epoch itself. -/
theorem queryFeed_eq (hfetch : FetchesRange ltf hist fetch) (h : HistoryAt ltf hist c pre rest)
    (hs : EnteredAfter ltf c s) (now : ℤ) :
    closedBy ltf now (queryFeed fetch now s) =
      closedBy ltf now (if c.timestamp + intervalMs ltf ≠ 0 then rest.tail else rest) := by
  have hnow := lastClosedOpen_le ltf now
  have hcut := fetch_filter hfetch (replayFrom s) (x := replayFrom s)
    (l := lastClosedOpen ltf now) (by omega) hnow
  have hfeed : closedBy ltf now (queryFeed fetch now s) =
      closedBy ltf now (hist.filter (fun d => decide (replayFrom s < d.timestamp))) := by
    rw [closedBy, closedBy, queryFeed, List.filter_filter, List.filter_filter]
    simp only [Bool.and_comm (decide (_ ≤ lastClosedOpen ltf now))]
    exact hcut
  rw [hfeed, replayFrom, hs.triggeredAt_eq, hs.createdAt_eq, Option.getD_some]
  split
  · rw [h.filter_after]
  · rw [h.filter_from]

/-! ## When the feeds agree -/

/-- Live and query evaluate the candles the backtest replays, up to the same closed candle. -/
def FeedsAgree (ltf : Interval) (hist : List Candle) (fetch : FetchRange)
    (analysisClose oldestTs now : ℤ) (s : TradeSignal) : Prop :=
  liveFeed fetch ltf oldestTs now s = closedBy ltf now (backtestFeed ltf hist analysisClose) ∧
    closedBy ltf now (queryFeed fetch now s) =
      closedBy ltf now (backtestFeed ltf hist analysisClose)

/-- Leaving out the entry candle changes nothing exactly while it has not closed. -/
theorem HistoryAt.closedBy_tail_eq_iff (h : HistoryAt ltf hist c pre rest) (now : ℤ) :
    closedBy ltf now rest.tail = closedBy ltf now rest ↔
      ∀ d ∈ hist, d.timestamp = c.timestamp + intervalMs ltf →
        lastClosedOpen ltf now < d.timestamp := by
  have hm := intervalMs_pos ltf
  have hnext := h.next_eq
  have hlater := h.later
  have hrest : ∀ d ∈ hist, d.timestamp = c.timestamp + intervalMs ltf → d ∈ rest := by
    intro d hd hat
    rw [h.hist_eq] at hd
    rcases List.mem_append.mp hd with hd | hd
    · have := h.earlier d hd
      omega
    · rcases List.mem_cons.mp hd with rfl | hd
      · omega
      · exact hd
  cases rest with
  | nil => exact ⟨fun _ d hd hat => absurd (hrest d hd hat) (by simp), fun _ => rfl⟩
  | cons e rest' =>
      have he : e.timestamp = c.timestamp + intervalMs ltf := hnext e rfl
      constructor
      · intro heq d hd hat
        by_contra hclosed
        have hkeep : e.timestamp ≤ lastClosedOpen ltf now := by omega
        rw [closedBy, closedBy, List.tail_cons, List.filter_cons_of_pos (by simpa using hkeep)]
          at heq
        exact absurd (congrArg List.length heq) (by simp)
      · intro hopen
        have hlt := hopen e (by rw [h.hist_eq]; simp) he
        have hnone : ∀ d ∈ rest', ¬ decide (d.timestamp ≤ lastClosedOpen ltf now) = true := by
          intro d hd hle
          have := hlater d hd
          have := of_decide_eq_true hle
          omega
        rw [closedBy, closedBy, List.tail_cons, List.filter_cons_of_neg
          (by rw [decide_eq_true_eq]; omega)]

/-- **When the feeds agree.** For a signal built at an LTF close from the newest closed candle
    `c` of a history without gaps, live and query read what the backtest reads exactly while
    no candle opening at the entry time has closed. -/
theorem feeds_agree_iff {symbol : String} {htf : Interval} {htfRange : HtfRange}
    {rejection : RejectionCandle} {signalId : SignalId} {p : AssetProfile} {broker : String}
    {liveBid liveAsk : Option ℚ} {s : TradeSignal} {ltf : Interval} {hist : List Candle}
    {fetch : FetchRange} {analysisClose oldestTs : ℤ} {c : Candle}
    (hgap : GapFree ltf hist) (hfetch : FetchesRange ltf hist fetch)
    (hb : buildSignal symbol htf ltf htfRange rejection signalId p broker liveBid liveAsk = some s)
    (hc : newestClosed ltf hist analysisClose = some c)
    (hrej : rejection.timestamp = c.timestamp) (hold : oldestTs ≤ s.createdAt) (now : ℤ) :
    FeedsAgree ltf hist fetch analysisClose oldestTs now s ↔
      ∀ d ∈ hist, d.timestamp = c.timestamp + intervalMs ltf →
        lastClosedOpen ltf now < d.timestamp := by
  have hfrom := buildSignal_eq_some hb
  have hs : EnteredAfter ltf c s := by
    constructor
    · rw [hfrom.createdAt_eq, hrej]
    · rw [hfrom.triggeredAt_eq, hrej]
  obtain ⟨pre, h⟩ := historyAt_of_newestClosed hgap hc
  rw [FeedsAgree, liveFeed_eq hfetch h hs hold, queryFeed_eq hfetch h hs,
    ← h.closedBy_tail_eq_iff now]
  refine ⟨fun hagree => hagree.1, fun hagree => ⟨hagree, ?_⟩⟩
  split
  · exact hagree
  · rfl

/-! ## The entry candle of the sample trade -/

/-- The history around the sample trade's rejection candle. -/
def sampleHistory : List Candle :=
  [⟨6900000, 104, 106, 103, 105, 0⟩, ⟨7200000, 105, 107, 100, 106, 0⟩,
    ⟨7500000, 106, 108, 99, 107, 0⟩, ⟨7800000, 107, 110, 105, 109, 0⟩]

/-- A client that answers range requests from a fixed history. -/
def fetchFrom (hist : List Candle) : FetchRange := fun lo hi =>
  hist.filter (fun c => decide (lo ≤ c.timestamp ∧ c.timestamp ≤ hi))

theorem sampleHistory_gapFree : GapFree fiveMin sampleHistory := by
  unfold GapFree
  decide +kernel

theorem fetchesRange_fetchFrom (ltf : Interval) (hist : List Candle) :
    FetchesRange ltf hist (fetchFrom hist) := by
  have hm := intervalMs_pos ltf
  intro lo hi
  rw [fetchFrom, List.filter_filter]
  refine List.filter_congr fun c _ => ?_
  rw [Bool.eq_iff_iff]
  simp only [Bool.and_eq_true, decide_eq_true_eq]
  omega

/-- The candle that opens at the sample trade's entry time trades through its stop; only the
    backtest reads it. -/
theorem entry_candle_not_fed :
    ¬ ∀ (symbol : String) (htf ltf : Interval) (htfRange : HtfRange)
      (rejection : RejectionCandle) (signalId : SignalId) (p : AssetProfile) (broker : String)
      (liveBid liveAsk : Option ℚ) (s : TradeSignal) (hist : List Candle) (fetch : FetchRange)
      (analysisClose oldestTs now : ℤ) (c : Candle),
      GapFree ltf hist → FetchesRange ltf hist fetch →
      buildSignal symbol htf ltf htfRange rejection signalId p broker liveBid liveAsk = some s →
      newestClosed ltf hist analysisClose = some c → rejection.timestamp = c.timestamp →
      oldestTs ≤ s.createdAt → FeedsAgree ltf hist fetch analysisClose oldestTs now s := by
  intro h
  have hagree := (h "XAUUSD" oneHour fiveMin sampleRange sampleRejection sampleId sampleProfile ""
    none none sampleSignal sampleHistory (fetchFrom sampleHistory) 7500000 7200000 8100000
    ⟨7200000, 105, 107, 100, 106, 0⟩ sampleHistory_gapFree
    (fetchesRange_fetchFrom fiveMin sampleHistory) sampleSignal_built (by decide +kernel) rfl
    (by decide +kernel)).1
  revert hagree
  decide +kernel

/-- At the entry time itself nothing has closed yet, and the feeds agree. -/
theorem feeds_agree_at_entry :
    FeedsAgree fiveMin sampleHistory (fetchFrom sampleHistory) 7500000 7200000 7500000
      sampleSignal :=
  (feeds_agree_iff sampleHistory_gapFree (fetchesRange_fetchFrom fiveMin sampleHistory)
    sampleSignal_built (c := ⟨7200000, 105, 107, 100, 106, 0⟩) (by decide +kernel) rfl
    (by decide +kernel) 7500000).mpr (by decide +kernel)

end SignalEngine
