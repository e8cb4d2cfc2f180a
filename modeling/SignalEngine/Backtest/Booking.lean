/-
  Booking: what a trade comes to on the candles that follow, told once for both simulators.

  Model. `book` reads candles that carry the verdict of an expiry test and books a full win at
  a given R. It is our own statement of what the two loops of the backtest have in common: they
  differ in the expiry test (`late`) and in the R of a full win.

  `parts_iff`: two bookings of the same candles, by two tests and two full wins, are equal and
  neither revisits entry after TP1, exactly when the candles do not part them (`Parts`). The
  induction is on the candles, in the two phases of the trade.
-/
import SignalEngine.Backtest.Simulate
import SignalEngine.Domain.Gain
import SignalEngine.Engine.RealizedR

namespace SignalEngine

open Lib

/-- What a backtest result says about the close. -/
structure Booking where
  outcome : SignalOutcome
  realizedRr : ℚ
  closeTs : Option ℤ
  closePrice : Option ℚ
  deriving DecidableEq, Repr

def BacktestResult.booking (r : BacktestResult) : Booking :=
  ⟨r.outcome, r.realizedRr, r.closeTs, r.closePrice⟩

/-- A trade that has taken TP1. -/
def bookAfterTp1 (p : AssetProfile) (s : TradeSignal) (fullWin : ℚ) :
    List (Candle × Bool) → Booking
  | [] => ⟨.expired, 0, none, none⟩
  | (c, late) :: xs =>
      if late then
        if p.moveSlToBeOnTp1 then
          ⟨.breakeven, protectedBeRr s p, some c.timestamp, some s.entryPrice⟩
        else ⟨.expired, 0, some c.timestamp, some c.close⟩
      else if reachesTarget s.direction c s.tp2 then
        ⟨.winFull, fullWin, some c.timestamp, some s.tp2⟩
      else if reachesStop s.direction c (stopAfterTp1 p s) then
        if p.moveSlToBeOnTp1 then
          ⟨.breakeven, protectedBeRr s p, some c.timestamp, some s.entryPrice⟩
        else ⟨.loss, -1, some c.timestamp, some s.stopLoss⟩
      else bookAfterTp1 p s fullWin xs

/-- An untouched trade. -/
def book (p : AssetProfile) (s : TradeSignal) (fullWin : ℚ) : List (Candle × Bool) → Booking
  | [] => ⟨.expired, 0, none, none⟩
  | (c, late) :: xs =>
      if late then ⟨.expired, 0, some c.timestamp, some c.close⟩
      else if reachesTarget s.direction c s.tp1 && reachesTarget s.direction c s.tp2 then
        ⟨.winFull, fullWin, some c.timestamp, some s.tp2⟩
      else if reachesStop s.direction c s.stopLoss then
        ⟨.loss, -1, some c.timestamp, some s.stopLoss⟩
      else if reachesTarget s.direction c s.tp1 then bookAfterTp1 p s fullWin xs
      else book p s fullWin xs

/-- The candles with the verdict of an expiry test on their timestamps. -/
def judged (late : ℤ → Bool) (F : List Candle) : List (Candle × Bool) :=
  F.map fun c => (c, late c.timestamp)

/-- The candle trades at entry or beyond it on the losing side. -/
def TouchesEntry (s : TradeSignal) (c : Candle) : Prop :=
  reachesStop s.direction c s.entryPrice = true

/-- A trade that has taken TP1 meets its entry again before it is closed or on the candle that
    closes it. -/
def RevisitsAfterTp1 (p : AssetProfile) (s : TradeSignal) (xs : List (Candle × Bool)) : Prop :=
  Until (Carries p s) (fun e _ => TouchesEntry s e.1) xs

/-- Some candle after the TP1 candle, up to and including the closing one, touches entry. -/
def RevisitsEntry (p : AssetProfile) (s : TradeSignal) (xs : List (Candle × Bool)) : Prop :=
  Until (Waits s) (fun t rest => TakesTp1 s t ∧ RevisitsAfterTp1 p s rest) xs

/-- What parts two bookings of a trade that has taken TP1: a candle that the two expiry tests
    tell apart, one that touches entry, or one at TP2 when the full wins differ. -/
def PartsAfterTp1 (p : AssetProfile) (s : TradeSignal) (sameTest : ℤ → Prop) (sameWin : Prop)
    (xs : List (Candle × Bool)) : Prop :=
  Until (Carries p s) (fun e _ => ¬ sameTest e.1.timestamp ∨ TouchesEntry s e.1 ∨
    e.2 = false ∧ reachesTarget s.direction e.1 s.tp2 = true ∧ ¬ sameWin) xs

/-- What parts two bookings of an untouched trade. -/
def Parts (p : AssetProfile) (s : TradeSignal) (sameTest : ℤ → Prop) (sameWin : Prop)
    (xs : List (Candle × Bool)) : Prop :=
  Until (Waits s) (fun x rest => ¬ sameTest x.1.timestamp ∨
    x.2 = false ∧ reachesTarget s.direction x.1 s.tp1 = true ∧
      reachesTarget s.direction x.1 s.tp2 = true ∧ ¬ sameWin ∨
    TakesTp1 s x ∧ PartsAfterTp1 p s sameTest sameWin rest) xs

variable {p : AssetProfile} {s s' : TradeSignal} {c : Candle} {late late₁ late₂ : ℤ → Bool}
  {win win₁ win₂ : ℚ} {F : List Candle} {xs : List (Candle × Bool)} {ts : ℤ}

theorem judged_cons (late : ℤ → Bool) (c : Candle) (F : List Candle) :
    judged late (c :: F) = (c, late c.timestamp) :: judged late F := rfl

theorem revisitsAfterTp1_cons {b : Bool} :
    RevisitsAfterTp1 p s ((c, b) :: xs) ↔
      TouchesEntry s c ∨ Carries p s (c, b) ∧ RevisitsAfterTp1 p s xs :=
  until_cons

theorem revisitsEntry_cons {b : Bool} :
    RevisitsEntry p s ((c, b) :: xs) ↔
      TakesTp1 s (c, b) ∧ RevisitsAfterTp1 p s xs ∨ Waits s (c, b) ∧ RevisitsEntry p s xs :=
  until_cons

theorem partsAfterTp1_cons {sameTest : ℤ → Prop} {sameWin : Prop} {b : Bool} :
    PartsAfterTp1 p s sameTest sameWin ((c, b) :: xs) ↔
      (¬ sameTest c.timestamp ∨ TouchesEntry s c ∨
        b = false ∧ reachesTarget s.direction c s.tp2 = true ∧ ¬ sameWin) ∨
      Carries p s (c, b) ∧ PartsAfterTp1 p s sameTest sameWin xs :=
  until_cons

theorem parts_cons {sameTest : ℤ → Prop} {sameWin : Prop} {b : Bool} :
    Parts p s sameTest sameWin ((c, b) :: xs) ↔
      (¬ sameTest c.timestamp ∨
        b = false ∧ reachesTarget s.direction c s.tp1 = true ∧
          reachesTarget s.direction c s.tp2 = true ∧ ¬ sameWin ∨
        TakesTp1 s (c, b) ∧ PartsAfterTp1 p s sameTest sameWin xs) ∨
      Waits s (c, b) ∧ Parts p s sameTest sameWin xs :=
  until_cons

/-! ## One candle -/

/-- A price further on the losing side is reached later. -/
theorem reachesStop_of_gain_le {x y : ℚ} (hxy : gain s x ≤ gain s y)
    (h : reachesStop s.direction c x = true) : reachesStop s.direction c y = true := by
  unfold reachesStop at h ⊢
  unfold gain at hxy
  cases hd : s.direction with
  | long =>
      rw [hd] at h hxy
      have hlow : c.low ≤ x := of_decide_eq_true h
      exact decide_eq_true (hlow.trans (by linarith [hxy]))
  | short =>
      rw [hd] at h hxy
      have hhigh : x ≤ c.high := of_decide_eq_true h
      exact decide_eq_true (le_trans (by linarith [hxy]) hhigh)

/-- After TP1 the stop is not on the winning side of entry. -/
theorem touchesEntry_of_stop (hside : gain s s.stopLoss ≤ 0)
    (h : reachesStop s.direction c (stopAfterTp1 p s) = true) : TouchesEntry s c := by
  refine reachesStop_of_gain_le ?_ h
  rw [gain_entry, stopAfterTp1]
  split
  · exact (gain_entry s).le
  · exact hside

/-- A candle that does not touch entry leaves the stop after TP1 alone. -/
theorem stop_of_not_touchesEntry (hside : gain s s.stopLoss ≤ 0) (h : ¬ TouchesEntry s c) :
    reachesStop s.direction c (stopAfterTp1 p s) = false :=
  Bool.eq_false_iff.mpr fun hstop => h (touchesEntry_of_stop hside hstop)

theorem bookAfterTp1_congr (h : SameTrade s s') (xs : List (Candle × Bool)) :
    bookAfterTp1 p s' win xs = bookAfterTp1 p s win xs := by
  have hbe : protectedBeRr s' p = protectedBeRr s p := by
    rw [protectedBeRr, protectedBeRr, h.riskRewardRatio_eq]
  have hstop : stopAfterTp1 p s' = stopAfterTp1 p s := by
    rw [stopAfterTp1, stopAfterTp1, h.entryPrice_eq, h.stopLoss_eq]
  induction xs with
  | nil => rfl
  | cons x xs ih =>
      rw [bookAfterTp1, bookAfterTp1, ih, hbe, hstop, h.direction_eq, h.entryPrice_eq,
        h.stopLoss_eq, h.tp2_eq]

/-! ## When a booking is dated -/

/-- A late candle dates the close of a trade that has taken TP1. -/
theorem bookAfterTp1_of_late (h : late c.timestamp = true) :
    (bookAfterTp1 p s win (judged late (c :: F))).outcome ≠ .winFull ∧
      (bookAfterTp1 p s win (judged late (c :: F))).closeTs = some c.timestamp := by
  rw [judged_cons, bookAfterTp1, if_pos h]
  split
  · exact ⟨(fun hwin => by cases hwin), rfl⟩
  · exact ⟨(fun hwin => by cases hwin), rfl⟩

/-- Short of a full win, the close of such a trade is dated by a late candle, or the trade has
    met its entry again. -/
theorem late_of_bookAfterTp1 (hside : gain s s.stopLoss ≤ 0)
    (hrevisit : ¬ RevisitsAfterTp1 p s (judged late F))
    (hwin : (bookAfterTp1 p s win (judged late F)).outcome ≠ .winFull)
    (hts : (bookAfterTp1 p s win (judged late F)).closeTs = some ts) : late ts = true := by
  induction F with
  | nil => cases hts
  | cons c F ih =>
      cases hlate : late c.timestamp with
      | true =>
          rw [(bookAfterTp1_of_late hlate).2] at hts
          exact Option.some.inj hts ▸ hlate
      | false =>
          have htouch : ¬ TouchesEntry s c := fun h => hrevisit (until_cons.mpr (Or.inl h))
          have hstop := stop_of_not_touchesEntry (p := p) hside htouch
          rw [judged_cons, bookAfterTp1, hlate, if_neg Bool.false_ne_true] at hwin hts
          cases h2 : reachesTarget s.direction c s.tp2 with
          | true => exact absurd (by rw [if_pos h2]) hwin
          | false =>
              rw [h2, hstop, if_neg Bool.false_ne_true, if_neg Bool.false_ne_true] at hwin hts
              exact ih (fun h => hrevisit (until_cons.mpr (Or.inr ⟨⟨hlate, h2, hstop⟩, h⟩)))
                hwin hts

/-- A late candle expires an untouched trade. -/
theorem book_of_late (h : late c.timestamp = true) :
    book p s win (judged late (c :: F)) = ⟨.expired, 0, some c.timestamp, some c.close⟩ := by
  rw [judged_cons, book, if_pos h]

/-- An expiry is dated by a late candle, or the trade has met its entry again after TP1. -/
theorem late_of_book (hside : gain s s.stopLoss ≤ 0)
    (hrevisit : ¬ RevisitsEntry p s (judged late F))
    (hexp : (book p s win (judged late F)).outcome = .expired)
    (hts : (book p s win (judged late F)).closeTs = some ts) : late ts = true := by
  induction F with
  | nil => cases hts
  | cons c F ih =>
      cases hlate : late c.timestamp with
      | true =>
          rw [book_of_late hlate] at hts
          exact Option.some.inj hts ▸ hlate
      | false =>
          rw [judged_cons, book, hlate, if_neg Bool.false_ne_true] at hexp hts
          split at hexp
          · cases hexp
          next hboth =>
          rw [if_neg hboth] at hts
          cases h3 : reachesStop s.direction c s.stopLoss with
          | true =>
              rw [if_pos h3] at hexp
              cases hexp
          | false =>
              rw [h3, if_neg Bool.false_ne_true] at hexp hts
              cases h1 : reachesTarget s.direction c s.tp1 with
              | true =>
                  have h2 : reachesTarget s.direction c s.tp2 = false := by
                    rw [h1, Bool.true_and] at hboth
                    exact Bool.eq_false_iff.mpr hboth
                  rw [if_pos h1] at hexp hts
                  refine late_of_bookAfterTp1 hside (fun h => hrevisit ?_) ?_ hts
                  · exact until_cons.mpr (Or.inl ⟨⟨hlate, h1, h2, h3⟩, h⟩)
                  · rw [hexp]
                    decide
              | false =>
                  rw [h1, if_neg Bool.false_ne_true] at hexp hts
                  exact ih (fun h => hrevisit (until_cons.mpr (Or.inr ⟨⟨hlate, h1, h3⟩, h⟩)))
                    hexp hts

/-! ## What parts two bookings -/

/-- Of two verdicts that differ, one is late where the other is not. -/
theorem parted_of_verdicts {late late' : Bool} {revisits revisits' differ : Prop}
    (hne : late ≠ late') (h : late = true → late' = false → ¬ revisits' → differ)
    (h' : late' = true → late = false → ¬ revisits → differ) :
    revisits ∨ revisits' ∨ differ := by
  by_cases hrev : revisits
  · exact Or.inl hrev
  by_cases hrev' : revisits'
  · exact Or.inr (Or.inl hrev')
  rcases lt_or_gt_of_ne hne with hlt | hlt
  · obtain ⟨hlate, hlate'⟩ := Bool.lt_iff.mp hlt
    exact Or.inr (Or.inr (h' hlate' hlate hrev))
  · obtain ⟨hlate', hlate⟩ := Bool.lt_iff.mp hlt
    exact Or.inr (Or.inr (h hlate hlate' hrev'))

/-- No candles: nothing parts the bookings, nothing revisits entry, and they are the same. -/
theorem parted_nil_iff {α : Type} {hold₁ hold₂ hold₃ : α → Prop}
    {goal₁ goal₂ goal₃ : α → List α → Prop} (b : Booking) :
    Until hold₁ goal₁ [] ↔ Until hold₂ goal₂ [] ∨ Until hold₃ goal₃ [] ∨ b ≠ b := by
  simp [not_until_nil]

/-- Told late by one test and not by the other, a candle parts the bookings. -/
theorem bookAfterTp1_ne_of_late (hside : gain s s.stopLoss ≤ 0) (h₁ : late₁ c.timestamp = true)
    (h₂ : late₂ c.timestamp = false) (hrevisit : ¬ RevisitsAfterTp1 p s (judged late₂ (c :: F))) :
    bookAfterTp1 p s win₁ (judged late₁ (c :: F)) ≠
      bookAfterTp1 p s win₂ (judged late₂ (c :: F)) := by
  intro heq
  obtain ⟨hwin, hts⟩ : (bookAfterTp1 p s win₁ (judged late₁ (c :: F))).outcome ≠ .winFull ∧
      (bookAfterTp1 p s win₁ (judged late₁ (c :: F))).closeTs = some c.timestamp :=
    bookAfterTp1_of_late h₁
  rw [heq] at hwin hts
  have hlate := late_of_bookAfterTp1 hside hrevisit hwin hts
  rw [h₂] at hlate
  cases hlate

theorem book_ne_of_late (hside : gain s s.stopLoss ≤ 0) (h₁ : late₁ c.timestamp = true)
    (h₂ : late₂ c.timestamp = false) (hrevisit : ¬ RevisitsEntry p s (judged late₂ (c :: F))) :
    book p s win₁ (judged late₁ (c :: F)) ≠ book p s win₂ (judged late₂ (c :: F)) := by
  intro heq
  rw [book_of_late h₁] at heq
  have hlate : late₂ c.timestamp = true := late_of_book hside hrevisit
    (congrArg Booking.outcome heq.symm) (congrArg Booking.closeTs heq.symm)
  rw [h₂] at hlate
  cases hlate

/-- The bookings of a trade that has taken TP1. -/
theorem partsAfterTp1_iff (hside : gain s s.stopLoss ≤ 0) (F : List Candle) :
    PartsAfterTp1 p s (fun ts => late₁ ts = late₂ ts) (win₁ = win₂) (judged late₂ F) ↔
      RevisitsAfterTp1 p s (judged late₁ F) ∨ RevisitsAfterTp1 p s (judged late₂ F) ∨
        bookAfterTp1 p s win₁ (judged late₁ F) ≠ bookAfterTp1 p s win₂ (judged late₂ F) := by
  induction F with
  | nil =>
      exact parted_nil_iff _
  | cons c F ih =>
      by_cases htouch : TouchesEntry s c
      · exact iff_of_true (until_cons.mpr (Or.inl (Or.inr (Or.inl htouch))))
          (Or.inl (until_cons.mpr (Or.inl htouch)))
      by_cases htest : late₁ c.timestamp = late₂ c.timestamp
      · -- one verdict: the bookings go on alike
        have hstop := stop_of_not_touchesEntry (p := p) hside htouch
        rw [judged_cons, judged_cons, partsAfterTp1_cons, revisitsAfterTp1_cons,
          revisitsAfterTp1_cons, bookAfterTp1, bookAfterTp1, htest]
        cases hlate : late₂ c.timestamp with
        | true =>
            have hcarries : ¬ Carries p s (c, true) := fun h => by cases h.1
            simp only [htouch, hcarries, not_true, false_and, or_false,
              Bool.true_eq_false, if_true, ne_eq]
        | false =>
            rw [if_neg Bool.false_ne_true, if_neg Bool.false_ne_true]
            cases h2 : reachesTarget s.direction c s.tp2 with
            | true =>
                have hcarries : ¬ Carries p s (c, false) := fun h => by
                  rw [show reachesTarget s.direction c s.tp2 = false from h.2.1] at h2
                  cases h2
                simp [htouch, hcarries]
            | false =>
                have hcarries : Carries p s (c, false) := ⟨rfl, h2, hstop⟩
                simp only [htouch, hcarries, hstop, not_true, true_and, false_or,
                  Bool.false_eq_true, false_and, and_false, if_false]
                exact ih
      · -- the test that tells it late dates its booking, the other one cannot
        refine iff_of_true (until_cons.mpr (Or.inl (Or.inl htest))) ?_
        apply parted_of_verdicts htest
        · intro h₁ h₂ hrev
          exact bookAfterTp1_ne_of_late hside h₁ h₂ hrev
        · intro h₂ h₁ hrev
          exact (bookAfterTp1_ne_of_late hside h₂ h₁ hrev).symm

/-- **Two bookings of one trade.** Neither meets entry again after TP1 and both come to the same
    exactly when no candle parts them. -/
theorem parts_iff (hside : gain s s.stopLoss ≤ 0) (F : List Candle) :
    Parts p s (fun ts => late₁ ts = late₂ ts) (win₁ = win₂) (judged late₂ F) ↔
      RevisitsEntry p s (judged late₁ F) ∨ RevisitsEntry p s (judged late₂ F) ∨
        book p s win₁ (judged late₁ F) ≠ book p s win₂ (judged late₂ F) := by
  induction F with
  | nil =>
      exact parted_nil_iff _
  | cons c F ih =>
      by_cases htest : late₁ c.timestamp = late₂ c.timestamp
      · rw [judged_cons, judged_cons, parts_cons, revisitsEntry_cons, revisitsEntry_cons, book,
          book, htest]
        cases hlate : late₂ c.timestamp with
        | true =>
            have hwaits : ¬ Waits s (c, true) := fun h => by cases h.1
            have htakes : ¬ TakesTp1 s (c, true) := fun h => by cases h.1
            simp only [hwaits, htakes, not_true, false_and, or_false, Bool.true_eq_false, if_true,
              ne_eq]
        | false =>
            rw [if_neg Bool.false_ne_true, if_neg Bool.false_ne_true]
            cases h1 : reachesTarget s.direction c s.tp1 <;>
              cases h2 : reachesTarget s.direction c s.tp2 <;>
              cases h3 : reachesStop s.direction c s.stopLoss <;>
              simp [Waits, TakesTp1, h1, h2, h3, ih, partsAfterTp1_iff hside]
      · refine iff_of_true (until_cons.mpr (Or.inl (Or.inl htest))) ?_
        apply parted_of_verdicts htest
        · intro h₁ h₂ hrev
          exact book_ne_of_late hside h₁ h₂ hrev
        · intro h₂ h₁ hrev
          exact (book_ne_of_late hside h₂ h₁ hrev).symm

end SignalEngine
